import PropertyBoard.Json.Printer
import PropertyBoard.Json.Reader

/-!
# PropertyBoard.Proofs.Json.Escape

The three ways in which a character of a text is written: behind a backslash, by its code, and as
itself.

* `Json.escape_cases`: these ways, with what the reader makes of them.
* `Json.ne_nul_of_mem_escape`: none of them writes a NUL.
-/

namespace PropertyBoard
namespace Json

/-- The letters that stand for a character behind a backslash. -/
def shortEscapes : List Char :=
  ['"', '\\', 'b', 'f', 'n', 'r', 't']

theorem escape_cases (c : Char) :
    (∃ d ∈ shortEscapes, escape c = ['\\', d] ∧ Reader.escaped? d = some c.toNat) ∨
      (c.toNat < 0x20 ∧
        escape c = ['\\', 'u', '0', '0', hexDigit (c.toNat / 16), hexDigit (c.toNat % 16)]) ∨
      (escape c = [c] ∧ c ≠ '"' ∧ c ≠ '\\' ∧ 0x20 ≤ c.toNat) := by
  unfold escape
  split
  · rename_i h
    exact .inl ⟨'"', by decide, rfl, by rw [h]; rfl⟩
  · rename_i hquote
    split
    · rename_i h
      exact .inl ⟨'\\', by decide, rfl, by rw [h]; rfl⟩
    · rename_i hslash
      split
      · rename_i hlow
        split
        · rename_i h
          exact .inl ⟨'b', by decide, rfl, by rw [h]; rfl⟩
        split
        · rename_i h
          exact .inl ⟨'t', by decide, rfl, by rw [h]; rfl⟩
        split
        · rename_i h
          exact .inl ⟨'n', by decide, rfl, by rw [h]; rfl⟩
        split
        · rename_i h
          exact .inl ⟨'f', by decide, rfl, by rw [h]; rfl⟩
        split
        · rename_i h
          exact .inl ⟨'r', by decide, rfl, by rw [h]; rfl⟩
        · exact .inr (.inl ⟨hlow, rfl⟩)
      · rename_i hhigh
        exact .inr (.inr ⟨rfl, hquote, hslash, by omega⟩)

theorem value?_hexDigit {d : Nat} (h : d < 16) : Hex.value? (hexDigit d) = some d := by
  have key : ∀ d, d < 16 → Hex.value? (hexDigit d) = some d := by decide
  exact key d h

theorem hexDigit_plain {d : Nat} (h : d < 16) :
    hexDigit d ≠ '"' ∧ hexDigit d ≠ '\\' ∧ hexDigit d ≠ '\x00' ∧
      escape (hexDigit d) = [hexDigit d] := by
  have key : ∀ d < 16, hexDigit d ≠ '"' ∧ hexDigit d ≠ '\\' ∧ hexDigit d ≠ '\x00' ∧
      escape (hexDigit d) = [hexDigit d] := by
    decide
  exact key d h

/-- What is written between quotes holds no NUL. -/
theorem ne_nul_of_mem_escape {c d : Char} (h : d ∈ escape c) : d ≠ '\x00' := by
  rcases escape_cases c with ⟨e, he, hc, _⟩ | ⟨hlow, hc⟩ | ⟨hc, _, _, hhigh⟩
  · rw [hc] at h
    have key : shortEscapes.all (· ≠ '\x00') = true := by decide
    simp only [List.mem_cons, List.not_mem_nil, or_false] at h
    rcases h with rfl | rfl
    · decide
    · exact of_decide_eq_true (List.all_eq_true.1 key d he)
  · rw [hc] at h
    obtain ⟨_, _, hfirst, _⟩ := hexDigit_plain (d := c.toNat / 16) (by omega)
    obtain ⟨_, _, hsecond, _⟩ := hexDigit_plain (d := c.toNat % 16) (by omega)
    simp only [List.mem_cons, List.not_mem_nil, or_false] at h
    rcases h with rfl | rfl | rfl | rfl | rfl | rfl
    · decide
    · decide
    · decide
    · decide
    · exact hfirst
    · exact hsecond
  · rw [hc, List.mem_singleton] at h
    rintro rfl
    rw [← h] at hhigh
    exact absurd hhigh (by decide)

end Json
end PropertyBoard
