import PropertyBoard.Text.Lowercase.Table
import PropertyBoard.Text.Lowercase.Context

/-!
# PropertyBoard.Text.Lowercase

Lower case in two strengths.

* `asciiChar`, `ascii`: only `A` to `Z` are changed.
* `full`: the Unicode default mapping. U+0130 becomes two characters, and a capital sigma at the
  end of a word becomes a final sigma; all other characters go by `Lowercase.runs`.
-/

namespace PropertyBoard
namespace Text
namespace Lowercase

def asciiChar (c : Char) : Char :=
  if 'A' ≤ c ∧ c ≤ 'Z' then Char.ofNat (c.toNat + 32) else c

def ascii (s : String) : String :=
  String.ofList (s.toList.map asciiChar)

def Run.covers (r : Run) (n : Nat) : Bool :=
  r.first ≤ n && n ≤ r.last && (n - r.first) % r.step == 0

/-- The one-character lower case of a character. -/
def simpleChar (c : Char) : Char :=
  if c.toNat < 0x80 then asciiChar c
  else
    match runs.find? (·.covers c.toNat) with
    | some r => Char.ofNat ((c.toNat : Int) + r.shift).toNat
    | none => c

/-- The nearest character that is not looked through has a case. -/
def nextIsCased (cs : List Char) : Bool :=
  match cs.dropWhile isIgnorable with
  | c :: _ => isCased c
  | [] => false

/-- The lower case of one character between the characters before it, nearest first, and the
characters after it. -/
def charBetween (before : List Char) (c : Char) (after : List Char) : List Char :=
  if c.toNat = 0x130 then ['i', Char.ofNat 0x307]
  else if c.toNat = 0x3A3 then
    if nextIsCased before && !nextIsCased after then [Char.ofNat 0x3C2] else [Char.ofNat 0x3C3]
  else [simpleChar c]

def fullFrom : List Char → List Char → List Char
  | _, [] => []
  | before, c :: after => charBetween before c after ++ fullFrom (c :: before) after

def full (s : String) : String :=
  String.ofList (fullFrom [] s.toList)

end Lowercase
end Text
end PropertyBoard
