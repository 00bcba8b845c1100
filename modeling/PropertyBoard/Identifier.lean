import PropertyBoard.Json.Printer

/-!
# PropertyBoard.Identifier

The identifiers of what is new on a board.

* `Identifier.Source`: a sequence of identifiers, in which none occurs twice.
* `Identifier.nth`: one such sequence, which does not ascend. Its identifiers consist of hexadecimal
  digits (`isDigit_of_mem_nth`), are all different (`nth_injective`), and the first of them are
  32 digits long (`length_nth`).
* `Identifier.Source.scattered`: the source of this sequence.
-/

namespace PropertyBoard
namespace Identifier

/-- A small hexadecimal digit. -/
def IsDigit (c : Char) : Prop :=
  ∃ d < 16, c = Json.hexDigit d

/-- How many identifiers are 32 digits long: as many as 12 digits can number. -/
def shortCount : Nat :=
  0x1000000000000

/-- What hands out identifiers, one after the other. As no two of them are alike they cannot all be 32
digits long, but more than a board will ever ask for are. -/
structure Source where
  nth : Nat → String
  distinct : ∀ {m n : Nat}, nth m = nth n → m = n
  hexadecimal : ∀ {n : Nat} {c : Char}, c ∈ (nth n).toList → IsDigit c
  width : ∀ {n : Nat}, n < shortCount → (nth n).length = 32

/-- The hexadecimal digits of a number, at least so many of them. -/
def hex : Nat → Nat → List Char
  | 0, n => if n = 0 then [] else Nat.toDigits 16 n
  | width + 1, n => hex width (n / 16) ++ [Json.hexDigit (n % 16)]

/-- Two digits that scatter, the marks of a random identifier, and the number itself. -/
def nth (n : Nat) : String :=
  String.ofList (hex 2 ((n * 0x9d + 7) % 256) ++ "0000000000".toList ++ "4000".toList ++
    "8000".toList ++ hex 12 n)

/-! ## Digits -/

theorem digitChar_eq {d : Nat} (h : d < 16) : d.digitChar = Json.hexDigit d := by
  have key : ∀ d < 16, d.digitChar = Json.hexDigit d := by decide
  exact key d h

theorem isDigit_of_mem_toDigits {n : Nat} {c : Char} (h : c ∈ Nat.toDigits 16 n) : IsDigit c := by
  induction n using Nat.strongRecOn with
  | ind n ih =>
    rw [Nat.toDigits_eq_if (by decide)] at h
    split at h
    · rename_i hn
      exact ⟨n, hn, (List.mem_singleton.1 h).trans (digitChar_eq hn)⟩
    · rename_i hn
      rcases List.mem_append.1 h with h | h
      · exact ih (n / 16) (Nat.div_lt_self (by omega) (by decide)) h
      · have hmod : n % 16 < 16 := Nat.mod_lt n (by decide)
        exact ⟨n % 16, hmod, (List.mem_singleton.1 h).trans (digitChar_eq hmod)⟩

theorem isDigit_of_mem_hex {width n : Nat} {c : Char} (h : c ∈ hex width n) : IsDigit c := by
  induction width generalizing n with
  | zero =>
    rw [hex] at h
    split at h
    · cases h
    · exact isDigit_of_mem_toDigits h
  | succ width ih =>
    rw [hex] at h
    rcases List.mem_append.1 h with h | h
    · exact ih h
    · exact ⟨n % 16, Nat.mod_lt n (by decide), List.mem_singleton.1 h⟩

theorem isDigit_of_mem_nth {n : Nat} {c : Char} (h : c ∈ (nth n).toList) : IsDigit c := by
  have hmarks : ∀ c ∈ "0000000000".toList ++ "4000".toList ++ "8000".toList, IsDigit c := by
    have key : ("0000000000".toList ++ "4000".toList ++ "8000".toList).all
        (fun c => c = '0' || c = '4' || c = '8') = true := by
      decide
    intro c hc
    have hcases := List.all_eq_true.1 key c hc
    simp only [Bool.or_eq_true, decide_eq_true_eq, or_assoc] at hcases
    rcases hcases with rfl | rfl | rfl
    · exact ⟨0, by decide, rfl⟩
    · exact ⟨4, by decide, rfl⟩
    · exact ⟨8, by decide, rfl⟩
  rw [nth, String.toList_ofList] at h
  simp only [List.mem_append] at h
  rcases h with (((h | h) | h) | h) | h
  · exact isDigit_of_mem_hex h
  · exact hmarks c (List.mem_append_left _ (List.mem_append_left _ h))
  · exact hmarks c (List.mem_append_left _ (List.mem_append_right _ h))
  · exact hmarks c (List.mem_append_right _ h)
  · exact isDigit_of_mem_hex h

theorem IsDigit.ne_nul {c : Char} (h : IsDigit c) : c ≠ '\x00' := by
  obtain ⟨d, hd, rfl⟩ := h
  have key : ∀ d < 16, Json.hexDigit d ≠ '\x00' := by decide
  exact key d hd

/-! ## Different numbers -/

theorem hexDigit_injective {d e : Nat} (hd : d < 16) (he : e < 16)
    (h : Json.hexDigit d = Json.hexDigit e) : d = e := by
  have key : ∀ d < 16, ∀ e < 16, Json.hexDigit d = Json.hexDigit e → d = e := by decide
  exact key d hd e he h

/-- The digits of a number are those of its sixteenth, and one more. -/
theorem toDigits_step {n : Nat} (h : 16 ≤ n) :
    Nat.toDigits 16 n = Nat.toDigits 16 (n / 16) ++ [Json.hexDigit (n % 16)] := by
  rw [Nat.toDigits_eq_if (by decide), if_neg (by omega), digitChar_eq (Nat.mod_lt n (by decide))]

theorem toDigits_small {n : Nat} (h : n < 16) : Nat.toDigits 16 n = [Json.hexDigit n] := by
  rw [Nat.toDigits_eq_if (by decide), if_pos h, digitChar_eq h]

theorem toDigits_ne_nil (n : Nat) : Nat.toDigits 16 n ≠ [] := by
  by_cases h : n < 16
  · simp [toDigits_small h]
  · simp [toDigits_step (Nat.not_lt.1 h)]

/-- A number with another digit before its last one is not written with one digit. -/
theorem two_digits_ne {c d : Char} (n : Nat) : Nat.toDigits 16 (n / 16) ++ [c] ≠ [d] := by
  intro h
  have hlength := congrArg List.length h
  rw [List.length_append, List.length_singleton, List.length_singleton] at hlength
  exact toDigits_ne_nil (n / 16) (List.eq_nil_of_length_eq_zero (by omega))

/-- Numbers with the same sixteenth and the same last digit are the same. -/
theorem eq_of_digits {m n : Nat} (hrest : m / 16 = n / 16)
    (hlast : [Json.hexDigit (m % 16)] = [Json.hexDigit (n % 16)]) : m = n := by
  have hdigit := hexDigit_injective (Nat.mod_lt m (by decide)) (Nat.mod_lt n (by decide))
    (List.cons.inj hlast).1
  omega

theorem toDigits_injective {m n : Nat} (h : Nat.toDigits 16 m = Nat.toDigits 16 n) : m = n := by
  induction m using Nat.strongRecOn generalizing n with
  | ind m ih =>
    by_cases hm : m < 16
    · by_cases hn : n < 16
      · rw [toDigits_small hm, toDigits_small hn] at h
        exact hexDigit_injective hm hn (List.cons.inj h).1
      · rw [toDigits_small hm, toDigits_step (Nat.not_lt.1 hn)] at h
        exact absurd h.symm (two_digits_ne n)
    · by_cases hn : n < 16
      · rw [toDigits_small hn, toDigits_step (Nat.not_lt.1 hm)] at h
        exact absurd h (two_digits_ne m)
      · rw [toDigits_step (Nat.not_lt.1 hm), toDigits_step (Nat.not_lt.1 hn)] at h
        obtain ⟨hrest, hlast⟩ := List.append_inj' h rfl
        exact eq_of_digits (ih (m / 16) (by omega) hrest) hlast

theorem hex_injective {width m n : Nat} (h : hex width m = hex width n) : m = n := by
  induction width generalizing m n with
  | zero =>
    simp only [hex] at h
    by_cases hm : m = 0
    · by_cases hn : n = 0
      · rw [hm, hn]
      · rw [if_pos hm, if_neg hn] at h
        exact absurd h.symm (toDigits_ne_nil n)
    · by_cases hn : n = 0
      · rw [if_neg hm, if_pos hn] at h
        exact absurd h (toDigits_ne_nil m)
      · rw [if_neg hm, if_neg hn] at h
        exact toDigits_injective h
  | succ width ih =>
    simp only [hex] at h
    obtain ⟨hrest, hlast⟩ := List.append_inj' h rfl
    exact eq_of_digits (ih hrest) hlast

theorem length_hex {width n : Nat} (h : n < Nat.pow 16 width) : (hex width n).length = width := by
  induction width generalizing n with
  | zero =>
    have hzero : n = 0 := by simpa using h
    simp [hex, hzero]
  | succ width ih =>
    have hrest : n / 16 < Nat.pow 16 width := (Nat.div_lt_iff_lt_mul (by decide)).2 h
    rw [hex, List.length_append, List.length_singleton, ih hrest]

theorem length_scattering (n : Nat) : (hex 2 ((n * 0x9d + 7) % 256)).length = 2 :=
  length_hex (Nat.mod_lt _ (by decide))

theorem length_nth {n : Nat} (h : n < shortCount) : (nth n).length = 32 := by
  have hnumber : (hex 12 n).length = 12 := length_hex h
  rw [← String.length_toList, nth, String.toList_ofList]
  simp [length_scattering, hnumber]

theorem nth_injective {m n : Nat} (h : nth m = nth n) : m = n := by
  have hlists := String.ofList_injective h
  simp only [List.append_assoc] at hlists
  -- The digits that scatter are as many for both, and so are the marks.
  obtain ⟨_, hmarks⟩ := List.append_inj hlists (by rw [length_scattering, length_scattering])
  obtain ⟨_, hversion⟩ := List.append_inj hmarks rfl
  obtain ⟨_, hvariant⟩ := List.append_inj hversion rfl
  obtain ⟨_, hnumber⟩ := List.append_inj hvariant rfl
  exact hex_injective hnumber

/-- The identifiers of a board that is given no other source. -/
def Source.scattered : Source where
  nth := Identifier.nth
  distinct := nth_injective
  hexadecimal := isDigit_of_mem_nth
  width := length_nth

instance : Inhabited Source :=
  ⟨.scattered⟩

end Identifier
end PropertyBoard
