/-!
# PropertyBoard.Text.Decimal

Whole numbers in decimal digits.

* `digits`: the digits of a natural number, without leading zeros; `toText` for an integer.
* `value?`: the number that a text of ASCII digits writes; leading zeros are allowed.
  `value?_digits`: it reads back what `digits` writes.
* `readInt?`, `readNat?`: an optional sign and at least one digit. A natural number may carry `+`
  but never `-`.
* `readWithin`: an integer in a closed range.
-/

namespace PropertyBoard
namespace Decimal

def digitChar (d : Nat) : Char :=
  Char.ofNat (48 + d)

def digits (n : Nat) : List Char :=
  if n < 10 then [digitChar n] else digits (n / 10) ++ [digitChar (n % 10)]
termination_by n
decreasing_by omega

def intChars : Int → List Char
  | .ofNat n => digits n
  | .negSucc n => '-' :: digits (n + 1)

def toText (n : Int) : String :=
  String.ofList (intChars n)

/-- ASCII digits only. -/
def digit? (c : Char) : Option Nat :=
  if '0' ≤ c ∧ c ≤ '9' then some (c.toNat - 48) else none

/-- The number written by the digits read so far, followed by these. -/
def valueFrom : Nat → List Char → Option Nat
  | acc, [] => some acc
  | acc, c :: cs =>
    match digit? c with
    | some d => valueFrom (acc * 10 + d) cs
    | none => none

def value? : List Char → Option Nat
  | [] => none
  | cs => valueFrom 0 cs

def readNat? (s : String) : Option Nat :=
  match s.toList with
  | '+' :: cs => value? cs
  | cs => value? cs

def readInt? (s : String) : Option Int :=
  match s.toList with
  | '-' :: cs => (value? cs).map fun n => -(n : Int)
  | '+' :: cs => (value? cs).map fun n => (n : Int)
  | cs => (value? cs).map fun n => (n : Int)

def readWithin (lo hi : Int) (s : String) : Option Int :=
  match readInt? s with
  | some n => if lo ≤ n ∧ n ≤ hi then some n else none
  | none => none

/-! ## Reading back -/

theorem digit?_digitChar {d : Nat} (h : d < 10) : digit? (digitChar d) = some d := by
  have : ∀ d, d < 10 → digit? (digitChar d) = some d := by decide
  exact this d h

theorem valueFrom_append (acc : Nat) (xs ys : List Char) :
    valueFrom acc (xs ++ ys) = (valueFrom acc xs).bind fun n => valueFrom n ys := by
  induction xs generalizing acc with
  | nil => rfl
  | cons x xs ih =>
    simp only [List.cons_append, valueFrom]
    split
    · rw [ih]
    · rfl

theorem valueFrom_digits (n : Nat) : valueFrom 0 (digits n) = some n := by
  rw [digits]
  split
  · rename_i h
    simp [valueFrom, digit?_digitChar h]
  · rw [valueFrom_append, valueFrom_digits (n / 10)]
    simp only [Option.bind_some, valueFrom, digit?_digitChar (Nat.mod_lt n (by omega : 10 > 0))]
    congr 1
    omega
termination_by n
decreasing_by omega

theorem digits_ne_nil (n : Nat) : digits n ≠ [] := by
  rw [digits]
  split <;> simp

theorem value?_digits (n : Nat) : value? (digits n) = some n := by
  have h := valueFrom_digits n
  cases hd : digits n with
  | nil => exact absurd hd (digits_ne_nil n)
  | cons c cs =>
    rw [hd] at h
    exact h

end Decimal
end PropertyBoard
