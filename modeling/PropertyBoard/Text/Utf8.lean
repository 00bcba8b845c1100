/-!
# PropertyBoard.Text.Utf8

Octets and text.

* `octets`: the UTF-8 octets of a text.
* `pieces`: what a sequence of octets holds, read from the left. Each piece is a character, or an
  ill-formed stretch: the longest start of a character that the octets after it do not complete,
  or one octet that starts no character.
* `decode?`: the text, if no stretch is ill-formed.
* `decodeLossy`: the text with U+FFFD for each ill-formed stretch.
-/

namespace PropertyBoard
namespace Utf8

def octets (s : String) : List UInt8 :=
  s.toUTF8.toList

/-- A character of which some octets are read: the bits so far, how many octets are owed, and the
range that the next octet has to lie in. -/
structure Open where
  bits : Nat
  owed : Nat
  low : Nat
  high : Nat
  deriving Repr, DecidableEq

/-- A character or an ill-formed stretch. -/
inductive Piece where
  | char (c : Char)
  | illFormed
  deriving Repr, DecidableEq

/-- The first octet of a character. -/
def firstOctet (b : Nat) : List Piece × Option Open :=
  if b < 0x80 then ([.char (Char.ofNat b)], none)
  else if 0xC2 ≤ b && b ≤ 0xDF then ([], some ⟨b - 0xC0, 1, 0x80, 0xBF⟩)
  else if b == 0xE0 then ([], some ⟨0, 2, 0xA0, 0xBF⟩)
  else if b == 0xED then ([], some ⟨0xD, 2, 0x80, 0x9F⟩)
  else if 0xE1 ≤ b && b ≤ 0xEF then ([], some ⟨b - 0xE0, 2, 0x80, 0xBF⟩)
  else if b == 0xF0 then ([], some ⟨0, 3, 0x90, 0xBF⟩)
  else if 0xF1 ≤ b && b ≤ 0xF3 then ([], some ⟨b - 0xF0, 3, 0x80, 0xBF⟩)
  else if b == 0xF4 then ([], some ⟨4, 3, 0x80, 0x8F⟩)
  else ([.illFormed], none)

/-- One more octet: the pieces it completes and the character left open. -/
def step : Option Open → Nat → List Piece × Option Open
  | none, b => firstOctet b
  | some o, b =>
    if o.low ≤ b && b ≤ o.high then
      let bits := o.bits * 64 + (b - 0x80)
      if o.owed ≤ 1 then ([.char (Char.ofNat bits)], none)
      else ([], some ⟨bits, o.owed - 1, 0x80, 0xBF⟩)
    else
      let r := firstOctet b
      (.illFormed :: r.1, r.2)

def piecesFrom : Option Open → List UInt8 → List Piece
  | none, [] => []
  | some _, [] => [.illFormed]
  | o, b :: bs =>
    let r := step o b.toNat
    r.1 ++ piecesFrom r.2 bs

def pieces (bs : List UInt8) : List Piece :=
  piecesFrom none bs

def decode? (bs : List UInt8) : Option String :=
  let ps := pieces bs
  if ps.contains .illFormed then none
  else
    some (String.ofList (ps.filterMap fun
      | .char c => some c
      | .illFormed => none))

def decodeLossy (bs : List UInt8) : String :=
  String.ofList ((pieces bs).map fun
    | .char c => c
    | .illFormed => Char.ofNat 0xFFFD)

end Utf8
end PropertyBoard
