import PropertyBoard.Json.Shape

/-!
# PropertyBoard.Sql.Param

Values in statements.

* `Cell`: what a column holds, or a placeholder stands for: a 64-bit integer, a text, or nothing.
  Texts are ordered by code point, and numbers come before texts.
* `Param`: a value handed over with a statement. `Param.cell` is the cell that it becomes; a number
  above the largest signed one becomes that one.
-/

namespace PropertyBoard
namespace Sql

inductive Cell where
  | null
  | int (n : Int64)
  | text (s : String)
  deriving Repr, DecidableEq

namespace Cell

def order : Cell → Cell → Ordering
  | null, null => .eq
  | null, _ => .lt
  | _, null => .gt
  | int m, int n => compare m n
  | int _, text _ => .lt
  | text _, int _ => .gt
  | text s, text t => compare s t

/-- Nothing equals nothing else, not even itself. -/
def equals : Cell → Cell → Bool
  | null, _ => false
  | _, null => false
  | a, b => a = b

def differs : Cell → Cell → Bool
  | null, _ => false
  | _, null => false
  | a, b => a ≠ b

end Cell

inductive Param where
  | absent
  | flag (b : Bool)
  | int32 (n : Int32)
  | int64 (n : Int64)
  | nat32 (n : UInt32)
  | nat64 (n : UInt64)
  | text (s : String)
  deriving Repr, DecidableEq

namespace Param

def cell : Param → Cell
  | absent => .null
  | flag b => .int (if b then 1 else 0)
  | int32 n => .int n.toInt64
  | int64 n => .int n
  | nat32 n => .int (.ofNat n.toNat)
  | nat64 n => .int (.ofInt (min n.toNat maxInt64))
  | text s => .text s

def ofCell : Cell → Param
  | .null => absent
  | .int n => int64 n
  | .text s => text s

theorem cell_ofCell (c : Cell) : (ofCell c).cell = c := by
  cases c <;> rfl

end Param
end Sql
end PropertyBoard
