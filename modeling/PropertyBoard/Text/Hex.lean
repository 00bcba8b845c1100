/-!
# PropertyBoard.Text.Hex

Hexadecimal digits, capital and small.

* `value?`: what a digit is worth.
* `code`: the number that digits write, where all of them are digits.
-/

namespace PropertyBoard
namespace Hex

def value? (c : Char) : Option Nat :=
  if '0' ≤ c ∧ c ≤ '9' then some (c.toNat - 48)
  else if 'a' ≤ c ∧ c ≤ 'f' then some (c.toNat - 87)
  else if 'A' ≤ c ∧ c ≤ 'F' then some (c.toNat - 55)
  else none

def isDigit (c : Char) : Bool :=
  (value? c).isSome

def code (digits : List Char) : Nat :=
  digits.foldl (fun n c => n * 16 + (value? c).getD 0) 0

end Hex
end PropertyBoard
