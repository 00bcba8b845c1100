import PropertyBoard.Page
import PropertyBoard.Refusal
import PropertyBoard.Sql.Condition

/-!
# PropertyBoard.Sql.Statement

Statements, each with its text (`fragment`) and with what it does to the rows of a table (`on`).

* `Select`: the rows that meet the conditions, in order, and of these a window.
* `Count`: how many rows meet the conditions.
* `Insert`, `Update`, `Delete`: one new row; changes to the rows that meet the conditions; their
  removal. Update and deletion also tell how many rows there were.

A statement may carry at most `maxParams` values, and its condition may be at most `maxConditionDepth` deep.
-/

namespace PropertyBoard
namespace Sql

/-- The most values that one statement may carry. -/
def maxParams : Nat :=
  32766

/-- How deep the parts of a condition may be nested. -/
def maxConditionDepth : Nat :=
  1000

structure SortBy (ρ : Type) where
  column : Column ρ
  descending : Bool := false

namespace SortBy

variable {ρ : Type}

def order (s : SortBy ρ) (a b : ρ) : Ordering :=
  let o := (s.column.cell a).order (s.column.cell b)
  if s.descending then o.swap else o

/-- Whether one row may stand before another; later columns settle what earlier ones leave open. -/
def le : List (SortBy ρ) → ρ → ρ → Bool
  | [], _, _ => true
  | s :: rest, a, b =>
    match s.order a b with
    | .lt => true
    | .gt => false
    | .eq => le rest a b

def fragment (s : SortBy ρ) : Fragment :=
  .ofWords (s.column.label ++ if s.descending then " DESC" else " ASC")

end SortBy

namespace Window

/-- The number of rows that a 64-bit count stands for, which is signed in a statement. -/
def clamp (n : UInt64) : Nat :=
  min n.toNat maxInt64.toNat

def apply {α : Type} (w : Window) (rows : List α) : List α :=
  (rows.drop (clamp w.offset)).take (clamp w.limit)

def fragment (w : Window) : Fragment :=
  [.words " LIMIT ", .hole (.nat64 w.limit), .words " OFFSET ", .hole (.nat64 w.offset)]

end Window

/-- The rows to show are those of `source`. With `distinct`, rows that agree in the column by which
the rows are sorted first are shown once. `depth` is how deep the condition is, where it matters,
and `fault` tells why a row cannot be tested. -/
structure Select (ρ : Type) where
  columns : List (Column ρ)
  source : String
  conditions : List (Condition ρ) := []
  distinct : Option (Column ρ) := none
  order : List (SortBy ρ) := []
  window : Option Window := none
  depth : Nat := 0
  fault : ρ → Option StorageError := fun _ => none

namespace Select

variable {ρ : Type}

def fragment (q : Select ρ) : Fragment :=
  .words (if q.distinct.isSome then "SELECT DISTINCT " else "SELECT ") ::
    .words (", ".intercalate (q.columns.map Column.label)) ::
    .words " FROM " :: .words q.source ::
    Condition.whereClause q.conditions ++
    (if q.order.isEmpty then []
      else .words " ORDER BY " :: Fragment.joined ", " (q.order.map SortBy.fragment)) ++
    (match q.window with
      | some w => Window.fragment w
      | none => [])

/-- Rows without those that agree in a column with the row before them. -/
def dropRepeats (column : Column ρ) : Option Cell → List ρ → List ρ
  | _, [] => []
  | last, r :: rest =>
    let cell := column.cell r
    if last = some cell then dropRepeats column last rest
    else r :: dropRepeats column (some cell) rest

/-- All rows that meet the conditions, in order. -/
def found (q : Select ρ) (rows : List ρ) : List ρ :=
  let sorted := (rows.filter (Condition.allHold q.conditions)).mergeSort (SortBy.le q.order)
  match q.distinct with
  | some column => dropRepeats column none sorted
  | none => sorted

/-- Whether the statement shows no row, whatever the rows are; no row is tested then. -/
def showsNothing (q : Select ρ) : Bool :=
  match q.window with
  | some w => w.limit = 0
  | none => false

/-- What keeps the statement from being run at all. -/
def limitFault (q : Select ρ) : Option StorageError :=
  if maxConditionDepth < q.depth then some (.tooDeep q.depth)
  else if maxParams < q.fragment.params.length then
    some (.tooManyParams q.fragment.params.length)
  else none

def on (q : Select ρ) (rows : List ρ) : Except StorageError (List ρ) :=
  match q.limitFault with
  | some e => .error e
  | none =>
    if q.showsNothing then .ok []
    else
      match rows.findSome? q.fault with
      | some e => .error e
      | none =>
        match q.window with
        | some w => .ok (Window.apply w (q.found rows))
        | none => .ok (q.found rows)

/-- Unless repeated rows are dropped, the rows found are those that meet all conditions. -/
theorem mem_found {q : Select ρ} (h : q.distinct = none) {rows : List ρ} {r : ρ} :
    r ∈ q.found rows ↔ r ∈ rows ∧ Condition.allHold q.conditions r = true := by
  simp only [found, h]
  rw [(List.mergeSort_perm _ _).mem_iff, List.mem_filter]

end Select

structure Count (ρ : Type) where
  source : String
  conditions : List (Condition ρ)

namespace Count

variable {ρ : Type}

def fragment (q : Count ρ) : Fragment :=
  .words "SELECT COUNT(*) AS \"count\" FROM " :: .words q.source ::
    Condition.whereClause q.conditions

def on (q : Count ρ) (rows : List ρ) : Nat :=
  rows.countP (Condition.allHold q.conditions)

end Count

structure Insert (ρ : Type) where
  table : String
  columns : List (Column ρ)
  row : ρ

namespace Insert

variable {ρ : Type}

def fragment (q : Insert ρ) : Fragment :=
  .words "INSERT INTO " :: .words (quoted q.table) :: .words " (" ::
    .words (", ".intercalate (q.columns.map Column.label)) :: .words ") VALUES (" ::
    Fragment.holes (q.columns.map fun c => Param.ofCell (c.cell q.row)) ++ [.words ")"]

end Insert

/-- The new content of a column. -/
structure Assignment (ρ : Type) where
  column : String
  value : Param
  apply : ρ → ρ

namespace Assignment

variable {ρ : Type}

/-- A row gets the text that is handed over. -/
def text (column : String) (set : String → ρ → ρ) (s : String) : Assignment ρ where
  column
  value := .text s
  apply := set s

def int (column : String) (set : Int64 → ρ → ρ) (n : Int64) : Assignment ρ where
  column
  value := .int64 n
  apply := set n

@[simp] theorem column_text (column : String) (set : String → ρ → ρ) (s : String) :
    (text column set s).column = column := rfl

@[simp] theorem apply_text (column : String) (set : String → ρ → ρ) (s : String) (r : ρ) :
    (text column set s).apply r = set s r := rfl

@[simp] theorem apply_int (column : String) (set : Int64 → ρ → ρ) (n : Int64) (r : ρ) :
    (int column set n).apply r = set n r := rfl

end Assignment

structure Update (ρ : Type) where
  table : String
  assignments : List (Assignment ρ)
  conditions : List (Condition ρ)

namespace Update

variable {ρ : Type}

def fragment (q : Update ρ) : Fragment :=
  .words "UPDATE " :: .words (quoted q.table) :: .words " SET " ::
    Fragment.joined ", " (q.assignments.map fun a =>
      [.words (quoted a.column), .words " = ", .hole a.value]) ++
    Condition.whereClause q.conditions

def change (q : Update ρ) (r : ρ) : ρ :=
  q.assignments.foldl (fun r a => a.apply r) r

def on (q : Update ρ) (rows : List ρ) : List ρ × Nat :=
  (rows.map fun r => if Condition.allHold q.conditions r then q.change r else r,
    rows.countP (Condition.allHold q.conditions))

theorem length_on (q : Update ρ) (rows : List ρ) : (q.on rows).1.length = rows.length := by
  simp [on]

/-- An update changes the rows that meet the conditions and no other row. -/
theorem mem_on {q : Update ρ} {rows : List ρ} {r : ρ} :
    r ∈ (q.on rows).1 ↔
      ∃ old ∈ rows, r = if Condition.allHold q.conditions old then q.change old else old := by
  simp only [on, List.mem_map]
  constructor
  · rintro ⟨old, hold, rfl⟩
    exact ⟨old, hold, rfl⟩
  · rintro ⟨old, hold, rfl⟩
    exact ⟨old, hold, rfl⟩

end Update

structure Delete (ρ : Type) where
  table : String
  conditions : List (Condition ρ)

namespace Delete

variable {ρ : Type}

def fragment (q : Delete ρ) : Fragment :=
  .words "DELETE FROM " :: .words (quoted q.table) :: Condition.whereClause q.conditions

def on (q : Delete ρ) (rows : List ρ) : List ρ × Nat :=
  (rows.filter fun r => !Condition.allHold q.conditions r,
    rows.countP (Condition.allHold q.conditions))

/-- A deletion leaves the rows that do not meet all conditions. -/
theorem mem_on {q : Delete ρ} {rows : List ρ} {r : ρ} :
    r ∈ (q.on rows).1 ↔ r ∈ rows ∧ Condition.allHold q.conditions r = false := by
  simp [on, List.mem_filter]

end Delete
end Sql
end PropertyBoard
