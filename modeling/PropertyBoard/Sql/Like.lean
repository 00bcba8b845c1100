import PropertyBoard.Text.Lowercase

/-!
# PropertyBoard.Sql.Like

Patterns for texts. In a pattern `%` stands for any text and `_` for any character; a character
after the escape character stands for itself. `A` to `Z` match their small letters, and U+FFFD,
U+FFFE and U+FFFF match each other. A text ends before its first NUL, and so does a pattern.

* `escape`: a text as a pattern that stands for nothing but that text.
* `parts?`: the parts of a pattern; one with an escape character at its end has none and matches
  nothing.
* `isLike`: whether a text matches.
-/

namespace PropertyBoard
namespace Sql
namespace Like

def escapeChar : Char :=
  '!'

def isSpecial (c : Char) : Bool :=
  c == '%' || c == '_' || c == escapeChar

def escape (cs : List Char) : List Char :=
  cs.flatMap fun c => if isSpecial c then [escapeChar, c] else [c]

/-- The longest pattern that is tried, in octets of UTF-8. -/
def maxPatternSize : Nat :=
  50000

inductive Part where
  | anyText
  | anyChar
  | exactly (c : Char)
  deriving Repr, DecidableEq

def parts? : List Char → Option (List Part)
  | [] => some []
  | c :: cs =>
    if c = escapeChar then
      match cs with
      | d :: rest => (parts? rest).map (.exactly d :: ·)
      | [] => none
    else
      (parts? cs).map (fun ps =>
        (if c = '%' then .anyText else if c = '_' then .anyChar else .exactly c) :: ps)

def matchParts : List Part → List Char → Bool
  | [], cs => cs.isEmpty
  | .anyText :: ps, [] => matchParts ps []
  | .anyText :: ps, c :: cs => matchParts ps (c :: cs) || matchParts (.anyText :: ps) cs
  | .anyChar :: ps, _ :: cs => matchParts ps cs
  | .exactly d :: ps, c :: cs =>
    Text.Lowercase.asciiChar c == Text.Lowercase.asciiChar d && matchParts ps cs
  | _ :: _, [] => false

/-- U+FFFE and U+FFFF count as U+FFFD. -/
def counted (c : Char) : Char :=
  if c.toNat = 0xFFFE ∨ c.toNat = 0xFFFF then Char.ofNat 0xFFFD else c

/-- The characters of a text as they are compared. -/
def comparable (s : String) : List Char :=
  (s.toList.takeWhile (· != '\x00')).map counted

def isLike (s pattern : String) : Bool :=
  match parts? (comparable pattern) with
  | some ps => matchParts ps (comparable s)
  | none => false

end Like
end Sql
end PropertyBoard
