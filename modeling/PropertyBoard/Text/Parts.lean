/-!
# PropertyBoard.Text.Parts

The parts of a text between separators. There is always at least one part; joining the parts with
the separator gives the text back (`intercalate_parts`).
-/

namespace PropertyBoard
namespace Text

def parts (sep : Char) : List Char → List (List Char)
  | [] => [[]]
  | c :: cs =>
    if c = sep then [] :: parts sep cs
    else
      match parts sep cs with
      | part :: rest => (c :: part) :: rest
      | [] => [[c]]

theorem parts_ne_nil (sep : Char) (cs : List Char) : parts sep cs ≠ [] := by
  cases cs with
  | nil => simp [parts]
  | cons c cs =>
    simp only [parts]
    split
    · simp
    · split <;> simp

theorem intercalate_parts (sep : Char) (cs : List Char) :
    [sep].intercalate (parts sep cs) = cs := by
  induction cs with
  | nil => rfl
  | cons c cs ih =>
    cases hp : parts sep cs with
    | nil => exact absurd hp (parts_ne_nil sep cs)
    | cons part rest =>
      rw [hp] at ih
      by_cases hc : c = sep
      · simp only [parts, hc, if_true, hp]
        rw [List.intercalate_cons_cons]
        · simp [ih]
      · simp only [parts, hc, if_false, hp]
        cases rest with
        | nil => simpa [List.intercalate] using ih
        | cons q qs =>
          rw [List.intercalate_cons_cons] at ih ⊢
          simp [ih]

end Text
end PropertyBoard
