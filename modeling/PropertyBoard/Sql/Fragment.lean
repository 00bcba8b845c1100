import PropertyBoard.Sql.Param

/-!
# PropertyBoard.Sql.Fragment

The text of a statement with the values that belong to its placeholders.

* `Fragment`: fixed words and holes, in order. Data only ever stands in holes.
* `Fragment.text`: the words, with a question mark for each hole.
* `Fragment.params`: the values of the holes, in order.

The text and the values of a fragment are those of its parts, one after the other (`text_append`,
`params_append`).
-/

namespace PropertyBoard
namespace Sql

inductive Piece where
  | words (s : String)
  | hole (p : Param)
  deriving Repr, DecidableEq

abbrev Fragment := List Piece

namespace Piece

def text : Piece → String
  | words s => s
  | hole _ => "?"

def param? : Piece → Option Param
  | words _ => none
  | hole p => some p

end Piece

namespace Fragment

def text (f : Fragment) : String :=
  f.foldl (fun written piece => written ++ piece.text) ""

def params (f : Fragment) : List Param :=
  f.filterMap Piece.param?

def ofWords (s : String) : Fragment :=
  [.words s]

def ofText (s : String) : Fragment :=
  [.hole (.text s)]

/-- The later fragments, each after the separator. -/
def following (separator : String) (fs : List Fragment) : Fragment :=
  fs.flatMap fun f => .words separator :: f

def joined (separator : String) : List Fragment → Fragment
  | [] => []
  | f :: fs => f ++ following separator fs

def parenthesised (f : Fragment) : Fragment :=
  .words "(" :: f ++ [.words ")"]

/-- A list of holes, with commas between them. -/
def holes (ps : List Param) : Fragment :=
  joined ", " (ps.map fun p => [.hole p])

/-! ## Parts -/

theorem foldl_text (f : Fragment) (written : String) :
    f.foldl (fun written piece => written ++ piece.text) written = written ++ f.text := by
  induction f generalizing written with
  | nil => simp [text]
  | cons piece f ih =>
    simp only [text, List.foldl_cons]
    rw [ih (written ++ piece.text), ih ("" ++ piece.text)]
    simp [String.append_assoc]

theorem text_cons (piece : Piece) (f : Fragment) :
    Fragment.text (piece :: f) = piece.text ++ Fragment.text f := by
  have h := foldl_text f ("" ++ piece.text)
  simpa [text] using h

theorem text_append (f g : Fragment) : Fragment.text (f ++ g) = f.text ++ g.text := by
  simp only [text, List.foldl_append]
  exact foldl_text g f.text

theorem params_append (f g : Fragment) : Fragment.params (f ++ g) = f.params ++ g.params := by
  simp [params]

end Fragment

def quoted (name : String) : String :=
  "\"" ++ name ++ "\""

def qualified (table name : String) : String :=
  quoted table ++ "." ++ quoted name

end Sql
end PropertyBoard
