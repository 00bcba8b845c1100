import PropertyBoard.Sql.Comparison
import PropertyBoard.Sql.Like

/-!
# PropertyBoard.Sql.Lookup

Subqueries that look for a row, and the conditions that are written out by hand.

* `Relation`: where a subquery takes its rows from, beside the row at hand.
* `Lookup`: looks through one relation after the other for rows that meet comparisons. It is made by
  `here` and `among` only, each of which says how it is written together with what it finds.
* `Handwritten`: a condition in a text of its own. `Handwritten.fragment` is how it is written, and
  `Handwritten.verdict?` whether a row meets it, if that can be told.
-/

namespace PropertyBoard
namespace Sql

/-- What is written in place of a table, and the rows that it gives beside a row; `none` is a row
that cannot be read. -/
structure Relation (ρ σ : Type) where
  written : String
  rows : ρ → List (Option σ)

/-- Whether some row passes; `none` if one that cannot be read or tested comes first. -/
def anyPasses {σ : Type} (test : σ → Option Bool) : List (Option σ) → Option Bool
  | [] => some false
  | none :: _ => none
  | some r :: rest =>
    match test r with
    | some false => anyPasses test rest
    | verdict => verdict

/-- Where every row can be read and tested, some row passes or none does. -/
theorem anyPasses_of_decided {α σ : Type} {test : σ → Option Bool} {xs : List α} {row : α → σ}
    {passes : α → Bool} (h : ∀ x ∈ xs, test (row x) = some (passes x)) :
    anyPasses test (xs.map fun x => some (row x)) = some (xs.any passes) := by
  induction xs with
  | nil => rfl
  | cons x rest ih =>
    obtain ⟨hx, hrest⟩ := List.forall_mem_cons.1 h
    rw [List.map_cons, anyPasses, hx, List.any_cons]
    cases passes x with
    | true => rfl
    | false => exact ih hrest

structure Lookup (ρ : Type) where
  sources : List String
  comparisons : List Fragment
  found? : ρ → Option Bool

namespace Lookup

variable {ρ σ : Type}

/-- Where no further row is needed. -/
def here : Lookup ρ where
  sources := []
  comparisons := []
  found? _ := some true

/-- Looks among the rows of a relation for one that meets the comparisons, and goes on from there. -/
def among (relation : Relation ρ σ) (comparisons : List (Comparison (ρ × σ)))
    (rest : Lookup (ρ × σ)) : Lookup ρ where
  sources := relation.written :: rest.sources
  comparisons := comparisons.map Comparison.fragment ++ rest.comparisons
  found? r := anyPasses
    (fun s => if Comparison.allHold comparisons (r, s) then rest.found? (r, s) else some false)
    (relation.rows r)

def fragment (l : Lookup ρ) : Fragment :=
  .words (" FROM " ++ ", ".intercalate l.sources) ::
    if l.comparisons.isEmpty then []
    else .words " WHERE " :: Fragment.joined " AND " l.comparisons

theorem found?_among {α : Type} {relation : Relation ρ σ}
    {comparisons : List (Comparison (ρ × σ))} {rest : Lookup (ρ × σ)} {r : ρ} {xs : List α}
    {row : α → σ} {found : α → Bool} (hrows : relation.rows r = xs.map fun x => some (row x))
    (hrest : ∀ x ∈ xs, rest.found? (r, row x) = some (found x)) :
    (among relation comparisons rest).found? r =
      some (xs.any fun x => Comparison.allHold comparisons (r, row x) && found x) := by
  show anyPasses _ (relation.rows r) = _
  rw [hrows]
  refine anyPasses_of_decided ?_
  intro x hx
  rw [hrest x hx]
  cases Comparison.allHold comparisons (r, row x) <;> rfl

end Lookup

inductive Handwritten (ρ : Type) where
  | like (column : Column ρ) (pattern : String)
  | hasRow (lookup : Lookup ρ)
  | not (condition : Handwritten ρ)
  | both (left right : Handwritten ρ)

namespace Handwritten

variable {ρ : Type}

def fragment : Handwritten ρ → Fragment
  | like column pattern =>
    [.words ("LOWER(" ++ column.label ++ ") LIKE "), .hole (.text pattern), .words " ESCAPE '!'"]
  | hasRow lookup => .words "EXISTS (SELECT 1" :: lookup.fragment ++ [.words ")"]
  | not c => .words "NOT " :: c.fragment
  | both a b => .words "(" :: a.fragment ++ .words " AND " :: b.fragment ++ [.words ")"]

/-- The right side is left alone where the left one does not hold. -/
def verdict? : Handwritten ρ → ρ → Option Bool
  | like column pattern, r =>
    match column.cell r with
    | .text s => some (Like.isLike (Text.Lowercase.ascii s) pattern)
    | _ => some false
  | hasRow lookup, r => lookup.found? r
  | not c, r => (c.verdict? r).map (!·)
  | both a b, r =>
    match a.verdict? r with
    | some true => b.verdict? r
    | verdict => verdict

def holds (c : Handwritten ρ) (r : ρ) : Bool :=
  (c.verdict? r).getD false

end Handwritten
end Sql
end PropertyBoard
