import PropertyBoard.Sql.Fragment

/-!
# PropertyBoard.Sql.Comparison

Columns, and what compares them.

* `Column`: how a column is written and what it holds in a row.
* `Comparison`: a column beside a value, beside several values, or beside another column.
* `Comparison.fragment`: how it is written; `Comparison.holds`: whether a row meets it.
* `Join`: the rows of two tables, side by side where they agree in a column. `Join.source` is how it
  is written and `Join.rows` are its rows; both are told by one comparison.
-/

namespace PropertyBoard
namespace Sql

structure Column (ρ : Type) where
  label : String
  cell : ρ → Cell

namespace Column

variable {ρ σ : Type}

def text (name : String) (get : ρ → String) : Column ρ where
  label := quoted name
  cell r := .text (get r)

def int (name : String) (get : ρ → Int64) : Column ρ where
  label := quoted name
  cell r := .int (get r)

/-- The column of a table, in rows that hold a row of that table. -/
def within (table : String) (part : σ → ρ) (c : Column ρ) : Column σ where
  label := quoted table ++ "." ++ c.label
  cell r := c.cell (part r)

end Column

inductive Comparison (ρ : Type) where
  | equals (column : Column ρ) (value : Param)
  | differs (column : Column ρ) (value : Param)
  | isIn (column : Column ρ) (values : List Param)
  | agrees (left right : Column ρ)

namespace Comparison

variable {ρ : Type}

/-- Membership of no values is written as a comparison that never holds. -/
def neverFragment : Fragment :=
  [.hole (.int32 1), .words " = ", .hole (.int32 2)]

def fragment : Comparison ρ → Fragment
  | equals column value => [.words (column.label ++ " = "), .hole value]
  | differs column value => [.words (column.label ++ " <> "), .hole value]
  | isIn column values =>
    if values.isEmpty then neverFragment
    else .words (column.label ++ " IN (") :: Fragment.holes values ++ [.words ")"]
  | agrees left right => [.words (left.label ++ " = " ++ right.label)]

def holds : Comparison ρ → ρ → Bool
  | equals column value, r => (column.cell r).equals value.cell
  | differs column value, r => (column.cell r).differs value.cell
  | isIn column values, r => values.any fun value => (column.cell r).equals value.cell
  | agrees left right, r => (left.cell r).equals (right.cell r)

def allHold (cs : List (Comparison ρ)) (r : ρ) : Bool :=
  cs.all fun c => c.holds r

end Comparison

structure Join (ρ σ : Type) where
  left : String
  right : String
  leftColumn : Column ρ
  rightColumn : Column σ

namespace Join

variable {ρ σ : Type}

def on (j : Join ρ σ) : Comparison (ρ × σ) :=
  .agrees (j.leftColumn.within j.left Prod.fst) (j.rightColumn.within j.right Prod.snd)

def source (j : Join ρ σ) : String :=
  quoted j.left ++ " INNER JOIN " ++ quoted j.right ++ " ON " ++ j.on.fragment.text

def rows (j : Join ρ σ) (ls : List ρ) (rs : List σ) : List (ρ × σ) :=
  ls.flatMap fun l => (rs.map fun r => (l, r)).filter j.on.holds

theorem mem_rows {j : Join ρ σ} {ls : List ρ} {rs : List σ} {l : ρ} {r : σ} :
    (l, r) ∈ j.rows ls rs ↔ l ∈ ls ∧ r ∈ rs ∧ j.on.holds (l, r) = true := by
  simp only [rows, List.mem_flatMap, List.mem_filter, List.mem_map]
  constructor
  · rintro ⟨l', hl, ⟨r', hr, heq⟩, hon⟩
    cases heq
    exact ⟨hl, hr, hon⟩
  · rintro ⟨hl, hr, hon⟩
    exact ⟨l, hl, ⟨r, hr, rfl⟩, hon⟩

end Join
end Sql
end PropertyBoard
