/-!
# PropertyBoard.Text.Blank

Blanks and trimming. A blank is a character with the Unicode property White_Space.

* `isBlank`: the twenty-five blanks.
* `trim`: a text without the blanks at its two ends (`trim_within`). The result starts and ends with
  a character that is no blank (`trim_trim`: trimming again changes nothing).
* `nonBlank?`: the trimmed text, if anything is left.
-/

namespace PropertyBoard
namespace Text

/-- The Unicode property White_Space. -/
def isBlank (c : Char) : Bool :=
  let n := c.toNat
  (0x09 ≤ n && n ≤ 0x0D) || n == 0x20 || n == 0x85 || n == 0xA0 || n == 0x1680 ||
    (0x2000 ≤ n && n ≤ 0x200A) || n == 0x2028 || n == 0x2029 || n == 0x202F || n == 0x205F ||
    n == 0x3000

/-- Characters without the blanks at the two ends. -/
def trimChars (cs : List Char) : List Char :=
  ((cs.dropWhile isBlank).reverse.dropWhile isBlank).reverse

def trim (s : String) : String :=
  String.ofList (trimChars s.toList)

/-- The trimmed text, unless nothing is left of it. -/
def nonBlank? (s : String) : Option String :=
  let t := trim s
  if t = "" then none else some t

/-! ## Trimming -/

/-- Trimming leaves a stretch of the text. -/
theorem trim_within (s : String) : (trim s).toList <:+: s.toList := by
  rw [trim, String.toList_ofList, trimChars]
  have hfront : s.toList.dropWhile isBlank <:+ s.toList := List.dropWhile_suffix _
  have hback : ((s.toList.dropWhile isBlank).reverse.dropWhile isBlank).reverse <+:
      s.toList.dropWhile isBlank := by
    rw [← List.reverse_suffix, List.reverse_reverse]
    exact List.dropWhile_suffix _
  exact hback.isInfix.trans hfront.isInfix

theorem dropWhile_dropWhile (p : Char → Bool) (cs : List Char) :
    (cs.dropWhile p).dropWhile p = cs.dropWhile p := by
  induction cs with
  | nil => rfl
  | cons c cs ih =>
    cases h : p c with
    | true => simpa [List.dropWhile, h] using ih
    | false => simp [List.dropWhile, h]

/-- Dropping at the back leaves a front that has nothing to drop as it is. -/
theorem dropWhile_reverse_dropWhile (p : Char → Bool) (cs : List Char) (h : cs.dropWhile p = cs) :
    ((cs.reverse.dropWhile p).reverse).dropWhile p = (cs.reverse.dropWhile p).reverse := by
  cases cs with
  | nil => rfl
  | cons c cs =>
    have hc : p c = false := by
      cases hp : p c with
      | false => rfl
      | true =>
        have hlen := congrArg List.length h
        simp only [List.dropWhile, hp] at hlen
        have := List.dropWhile_sublist p (l := cs)
        have := this.length_le
        simp only [List.length_cons] at hlen
        omega
    have key : ∀ ds : List Char, (ds ++ [c]).dropWhile p = ds.dropWhile p ++ [c] := by
      intro ds
      induction ds with
      | nil => simp [List.dropWhile, hc]
      | cons d ds ih =>
        cases hd : p d with
        | true => simpa [List.dropWhile, hd] using ih
        | false => simp [List.dropWhile, hd]
    simp [key, hc]

theorem trimChars_trimChars (cs : List Char) : trimChars (trimChars cs) = trimChars cs := by
  unfold trimChars
  rw [dropWhile_reverse_dropWhile isBlank _ (dropWhile_dropWhile isBlank cs)]
  simp [dropWhile_dropWhile]

theorem trim_trim (s : String) : trim (trim s) = trim s := by
  simp [trim, trimChars_trimChars]

theorem nonBlank?_eq_some_iff {s t : String} : nonBlank? s = some t ↔ t = trim s ∧ t ≠ "" := by
  unfold nonBlank?
  simp only
  split
  · rename_i h
    constructor
    · intro h'
      cases h'
    · rintro ⟨rfl, h'⟩
      exact absurd h h'
  · rename_i h
    constructor
    · intro h'
      cases h'
      exact ⟨rfl, h⟩
    · rintro ⟨rfl, _⟩
      rfl

theorem nonBlank?_eq_none_iff {s : String} : nonBlank? s = none ↔ trim s = "" := by
  simp [nonBlank?]

end Text
end PropertyBoard
