import PropertyBoard.Sql.Fragment

/-!
# PropertyBoard.Sql.Template

Parts of statements that are written as one text, with a list of values apart from it. Only its place
in the list says for which question mark a value is meant.

* `Template`: the text and the values.
* `Template.fragment?`: the text with the values set in, from left to right. Two question marks stand
  for one in the text, and those in a quotation stand for themselves. Values that are left over are
  dropped; a mark without a value stops the program.
* `Fragment.spelled`: a fragment with each character in a piece of its own, as templates give it.
-/

namespace PropertyBoard
namespace Sql

structure Template where
  text : String
  values : List Param
  deriving Repr, DecidableEq

namespace Piece

def letter (c : Char) : Piece :=
  .words (String.singleton c)

def spelled : Piece → List Piece
  | words s => s.toList.map letter
  | hole p => [hole p]

end Piece

def Fragment.spelled (f : Fragment) : Fragment :=
  f.flatMap Piece.spelled

namespace Template

/-- The end of the quotation that a character begins. -/
def closing? (c : Char) : Option Char :=
  if c = '"' || c = '\x27' || c = Char.ofNat 0x60 then some c
  else if c = '[' then some ']'
  else none

/-- The end of the quotation in which a text goes on after a character. -/
def quoteAfter : Option Char → Char → Option Char
  | some quote, c => if c = quote then none else some quote
  | none, c => closing? c

def pieces? : Option Char → List Char → List Param → Option Fragment
  | _, [], _ => some []
  | quote, c :: cs, values =>
    if quote = none ∧ c = '?' then
      match cs, values with
      | '?' :: rest, values => (pieces? none rest values).map (.letter '?' :: ·)
      | _, value :: values => (pieces? none cs values).map (.hole value :: ·)
      | _, [] => none
    else (pieces? (quoteAfter quote c) cs values).map (.letter c :: ·)

/-- A list of question marks, with commas between them. -/
def placeholders (n : Nat) : String :=
  ", ".intercalate (List.replicate n "?")

def fragment? (t : Template) : Option Fragment :=
  pieces? none t.text.toList t.values

end Template
end Sql
end PropertyBoard
