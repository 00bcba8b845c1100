import PropertyBoard.Text.Lowercase

/-!
# PropertyBoard.Proofs.Lowercase

What lower case leaves as it is.

* `runs_sound`: the table moves no character out of Unicode, and none to NUL.
* `noNul_full`: so lower case brings no NUL into a text.
* `asciiChar_full`: what is in lower case has none of the letters that the other mapping changes.
-/

namespace PropertyBoard
namespace Text
namespace Lowercase

theorem noNul_iff {cs : List Char} : '\x00' ∉ cs ↔ ∀ c ∈ cs, c.toNat ≠ 0 := by
  constructor
  · rintro h c hc hzero
    have : c = '\x00' := Char.toNat_inj.1 hzero
    exact h (this ▸ hc)
  · intro h hc
    exact h _ hc rfl

/-- The run moves no code point out of Unicode, and none to zero. -/
def Run.Sound (r : Run) : Prop :=
  0 < (r.first : Int) + r.shift ∧
    ((r.last : Int) + r.shift < 0xD800 ∨
      0xDFFF < (r.first : Int) + r.shift ∧ (r.last : Int) + r.shift < 0x110000)

instance (r : Run) : Decidable r.Sound :=
  inferInstanceAs (Decidable (_ ∧ _))

theorem runs_sound : ∀ r ∈ runs, r.Sound := by
  decide +kernel

theorem toNat_ofNat_of_valid {n : Nat} (h : n.isValidChar) : (Char.ofNat n).toNat = n := by
  rw [Char.ofNat, dif_pos h]
  rfl

theorem toNat_asciiChar (c : Char) :
    (asciiChar c).toNat = if 'A' ≤ c ∧ c ≤ 'Z' then c.toNat + 32 else c.toNat := by
  unfold asciiChar
  split
  · rename_i hc
    have hc : c.toNat ≤ 90 := hc.2
    exact toNat_ofNat_of_valid (.inl (by omega))
  · rfl

/-- The run that covers a character moves it to a character, and not to NUL. -/
theorem moved_of_covers {n : Nat} {r : Run} (h : runs.find? (·.covers n) = some r) :
    ((n : Int) + r.shift).toNat.isValidChar ∧ ((n : Int) + r.shift).toNat ≠ 0 := by
  obtain ⟨hpos, hvalid⟩ := runs_sound r (List.mem_of_find?_eq_some h)
  have hcovers := List.find?_some h
  simp only [Run.covers, Bool.and_eq_true, decide_eq_true_eq] at hcovers
  obtain ⟨⟨hfirst, hlast⟩, _⟩ := hcovers
  unfold Nat.isValidChar
  omega

theorem simpleChar_ne_nul {c : Char} (h : c.toNat ≠ 0) : (simpleChar c).toNat ≠ 0 := by
  unfold simpleChar
  split
  · rw [toNat_asciiChar]
    split <;> omega
  · split
    · rename_i r hr
      obtain ⟨hvalid, hne⟩ := moved_of_covers hr
      rwa [toNat_ofNat_of_valid hvalid]
    · exact h

theorem charBetween_ne_nul {before after : List Char} {c : Char} (h : c.toNat ≠ 0) :
    ∀ d ∈ charBetween before c after, d.toNat ≠ 0 := by
  unfold charBetween
  split
  · simp
  · split
    · split <;> simp
    · simpa using simpleChar_ne_nul h

/-- What each character becomes between others, all characters of the lower case are. -/
theorem forall_fullFrom {p q : Char → Prop}
    (h : ∀ before c after, p c → ∀ d ∈ charBetween before c after, q d) (cs : List Char) :
    ∀ before, (∀ c ∈ cs, p c) → ∀ d ∈ fullFrom before cs, q d := by
  induction cs with
  | nil => simp [fullFrom]
  | cons c cs ih =>
    intro before hall d hd
    obtain ⟨hc, hcs⟩ := List.forall_mem_cons.1 hall
    rcases List.mem_append.1 hd with hd | hd
    · exact h before c cs hc d hd
    · exact ih _ hcs d hd

/-- Lower case brings no NUL into a text. -/
theorem noNul_full {s : String} (h : '\x00' ∉ s.toList) : '\x00' ∉ (full s).toList := by
  rw [full, String.toList_ofList, noNul_iff]
  exact forall_fullFrom (fun _ _ _ hc => charBetween_ne_nul hc) s.toList [] (noNul_iff.1 h)

/-! ## Small letters -/

theorem asciiChar_asciiChar (c : Char) : asciiChar (asciiChar c) = asciiChar c := by
  have hsmall : ¬('A' ≤ asciiChar c ∧ asciiChar c ≤ 'Z') := by
    rintro ⟨hlow, hhigh⟩
    have hlow : 65 ≤ (asciiChar c).toNat := hlow
    have hhigh : (asciiChar c).toNat ≤ 90 := hhigh
    rw [toNat_asciiChar] at hlow hhigh
    split at hlow
    · rename_i hc
      have hc : 65 ≤ c.toNat := hc.1
      rw [if_pos ‹_›] at hhigh
      omega
    · rename_i hc
      rw [if_neg ‹_›] at hhigh
      exact hc ⟨hlow, hhigh⟩
  rw [asciiChar, if_neg hsmall]

theorem asciiChar_of_above {c : Char} (h : 90 < c.toNat) : asciiChar c = c := by
  refine if_neg fun hc => ?_
  have hc : c.toNat ≤ 90 := hc.2
  omega

theorem runs_above : ∀ r ∈ runs, 90 < (r.first : Int) + r.shift := by
  decide +kernel

theorem asciiChar_simpleChar (c : Char) : asciiChar (simpleChar c) = simpleChar c := by
  unfold simpleChar
  split
  · exact asciiChar_asciiChar c
  · rename_i hc
    split
    · rename_i r hr
      have habove := runs_above r (List.mem_of_find?_eq_some hr)
      have hcovers := List.find?_some hr
      simp only [Run.covers, Bool.and_eq_true, decide_eq_true_eq] at hcovers
      obtain ⟨⟨hfirst, _⟩, _⟩ := hcovers
      refine asciiChar_of_above ?_
      rw [toNat_ofNat_of_valid (moved_of_covers hr).1]
      omega
    · exact asciiChar_of_above (by omega)

theorem asciiChar_charBetween {before after : List Char} {c : Char} :
    ∀ d ∈ charBetween before c after, asciiChar d = d := by
  unfold charBetween
  split
  · exact List.forall_mem_cons.2 ⟨by decide, List.forall_mem_singleton.2 (by decide)⟩
  · split
    · split <;> exact List.forall_mem_singleton.2 (by decide)
    · exact List.forall_mem_singleton.2 (asciiChar_simpleChar c)

/-- The lower case of a text has no letter from `A` to `Z`. -/
theorem asciiChar_full (s : String) : ∀ c ∈ (full s).toList, asciiChar c = c := by
  rw [full, String.toList_ofList]
  exact forall_fullFrom (p := fun _ => True) (fun _ _ _ _ => asciiChar_charBetween) s.toList []
    fun _ _ => trivial

theorem asciiChar_ascii (s : String) : ∀ c ∈ (ascii s).toList, asciiChar c = c := by
  simp only [ascii, String.toList_ofList, List.mem_map]
  rintro _ ⟨c, _, rfl⟩
  exact asciiChar_asciiChar c

theorem asciiChar_bne_nul (c : Char) : (asciiChar c != '\x00') = (c != '\x00') := by
  have hnul (d : Char) : (d != '\x00') = (d.toNat != 0) := by
    rw [Bool.eq_iff_iff, bne_iff_ne, bne_iff_ne, ne_eq, ne_eq, ← Char.toNat_inj]
    rfl
  rw [hnul, hnul, toNat_asciiChar]
  split
  · rename_i hc
    have hc : 65 ≤ c.toNat := hc.1
    simp
    omega
  · rfl

theorem noNul_ascii {s : String} (h : '\x00' ∉ s.toList) : '\x00' ∉ (ascii s).toList := by
  rw [ascii, String.toList_ofList, List.mem_map]
  rintro ⟨c, hc, hnul⟩
  have hne := asciiChar_bne_nul c
  rw [hnul] at hne
  have hc' : c = '\x00' := by simpa using hne
  exact h (hc' ▸ hc)

end Lowercase
end Text
end PropertyBoard
