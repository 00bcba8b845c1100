import PropertyBoard.Dict
import PropertyBoard.Text.Decimal

/-!
# PropertyBoard.Json.Basic

JSON values.

* `Json`: a value. A whole number that a 64-bit word can hold is an `int`; any other number is kept
  as it was written (`real`).
* `Numeral.int?`: the integer that a number literal writes. A literal with a fraction or an
  exponent writes none, and neither does `-0`.
* `Numeral.isHuge`: the literal is read as a number that no double holds.
-/

namespace PropertyBoard

inductive Json where
  | null
  | bool (b : Bool)
  | int (n : Int)
  | real (literal : String)
  | str (s : String)
  | arr (items : List Json)
  | obj (members : List (String × Json))
  deriving Repr, Inhabited

namespace Json

def text? : Json → Option String
  | str s => some s
  | _ => none

def int? : Json → Option Int
  | int n => some n
  | _ => none

def flag? : Json → Option Bool
  | bool b => some b
  | _ => none

def items? : Json → Option (List Json)
  | arr items => some items
  | _ => none

def members? : Json → Option (List (String × Json))
  | obj members => some members
  | _ => none

/-- The first member of this name, if the value is an object that has one. -/
def get? (j : Json) (name : String) : Option Json :=
  match j with
  | obj members => members.lookup name
  | _ => none

def ofText (s : String) : Json :=
  str s

def ofTexts (ss : List String) : Json :=
  arr (ss.map str)

end Json

namespace Numeral

def isDigit (c : Char) : Bool :=
  (Decimal.digit? c).isSome

def int? (literal : String) : Option Int :=
  match literal.toList with
  | '-' :: cs =>
    match Decimal.value? cs with
    | some 0 => none
    | some n => some (-(n : Int))
    | none => none
  | cs => (Decimal.value? cs).map fun n => (n : Int)

/-! ## Numbers that no double holds

A literal is read as a significand of at most 64 bits times a power of ten. Both become the nearest
double before they are multiplied, so a literal slightly below the largest double can fail as well.
-/

/-- From here on an exponent is not looked at more closely. -/
def maxExponent : Nat :=
  2147483647

/-- The number that digits write, as long as it is not above `maxExponent`. -/
def magnitude (cs : List Char) : Nat :=
  cs.foldl (fun n c => if maxExponent < n then n else n * 10 + (Decimal.digit? c).getD 0) 0

/-- The power of ten in a literal, given the characters after its `e`. -/
def exponent : List Char → Int
  | '-' :: cs => -(magnitude cs : Int)
  | '+' :: cs => (magnitude cs : Int)
  | cs => (magnitude cs : Int)

def maxSignificand : Nat :=
  18446744073709551615

/-- A literal without its sign and its exponent: `significand * 10 ^ power`. After `full` no digit
goes into the significand. -/
structure Scaled where
  significand : Nat := 0
  power : Int := 0
  full : Bool := false
  deriving Repr, DecidableEq

namespace Scaled

def takes (s : Scaled) (d : Nat) : Bool :=
  !s.full && s.significand * 10 + d ≤ maxSignificand

/-- A digit before the point. One that is left out still counts as a power of ten. -/
def wholeDigit (s : Scaled) (c : Char) : Scaled :=
  let d := (Decimal.digit? c).getD 0
  if s.takes d then { s with significand := s.significand * 10 + d }
  else { s with power := s.power + 1, full := true }

/-- A digit after the point. -/
def fractionDigit (s : Scaled) (c : Char) : Scaled :=
  let d := (Decimal.digit? c).getD 0
  if s.takes d then { s with significand := s.significand * 10 + d, power := s.power - 1 }
  else { s with full := true }

/-- Behind the point digits go into the significand again as long as they fit. -/
def ofDigits (whole fraction : List Char) : Scaled :=
  fraction.foldl fractionDigit { whole.foldl wholeDigit {} with full := false }

end Scaled

/-- The double nearest to a natural number, if doubles had no end; the even one of two that are
equally near. -/
def nearestDouble (n : Nat) : Nat :=
  let unit := Nat.pow 2 (n.log2 - 52)
  let kept := n / unit
  let lost := n % unit
  if unit < 2 * lost ∨ unit = 2 * lost ∧ kept % 2 = 1 then (kept + 1) * unit else kept * unit

/-- The largest power of ten that is multiplied with. -/
def maxPower : Int :=
  308

def exceedsDoubles (significand : Nat) (power : Int) : Bool :=
  if significand = 0 || power < 0 then false
  else if maxPower < power then true
  else
    Nat.pow 2 1024 ≤
      nearestDouble (nearestDouble significand * nearestDouble (Nat.pow 10 power.toNat))

def isHuge (literal : String) : Bool :=
  let unsigned := literal.toList.dropWhile (· == '-')
  let mantissa := unsigned.takeWhile fun c => c != 'e' && c != 'E'
  let power := exponent ((unsigned.dropWhile fun c => c != 'e' && c != 'E').drop 1)
  let s := Scaled.ofDigits (mantissa.takeWhile (· != '.'))
    ((mantissa.dropWhile (· != '.')).drop 1)
  exceedsDoubles s.significand (s.power + power)

end Numeral
end PropertyBoard
