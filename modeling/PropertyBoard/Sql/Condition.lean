import PropertyBoard.Sql.Lookup

/-!
# PropertyBoard.Sql.Condition

Conditions on the rows of a table.

* `Condition`: comparisons, rows in a subquery, what is written out by hand, and what these make up.
* `Condition.fragment`: how it is written; `Condition.holds`: whether a row meets it.
* `whereClause`: all conditions of a list, as the end of a statement; none at all is no clause.
-/

namespace PropertyBoard
namespace Sql

inductive Condition (ρ : Type) where
  | compare (comparison : Comparison ρ)
  | hasRow (lookup : Lookup ρ)
  | byHand (condition : Handwritten ρ)
  | not (condition : Condition ρ)
  | either (left right : Condition ρ)

namespace Condition

variable {ρ : Type}

@[reducible] def equals (column : Column ρ) (value : Param) : Condition ρ :=
  compare (.equals column value)

@[reducible] def differs (column : Column ρ) (value : Param) : Condition ρ :=
  compare (.differs column value)

@[reducible] def isIn (column : Column ρ) (values : List Param) : Condition ρ :=
  compare (.isIn column values)

/-- Conditions that need no parentheses beside others. -/
def isPlain : Condition ρ → Bool
  | compare _ => true
  | hasRow _ => true
  | _ => false

def operand (c : Condition ρ) (written : Fragment) : Fragment :=
  if c.isPlain then written else written.parenthesised

def fragment : Condition ρ → Fragment
  | compare comparison => comparison.fragment
  | hasRow lookup =>
    .words "EXISTS(SELECT " :: .hole (.int32 1) :: lookup.fragment ++ [.words ")"]
  | byHand c => c.fragment
  | not c => .words "NOT " :: c.operand c.fragment
  | either a b => a.operand a.fragment ++ .words " OR " :: b.operand b.fragment

def holds : Condition ρ → ρ → Bool
  | compare comparison, r => comparison.holds r
  | hasRow lookup, r => (lookup.found? r).getD false
  | byHand c, r => c.holds r
  | not c, r => !c.holds r
  | either a b, r => a.holds r || b.holds r

def allHold (cs : List (Condition ρ)) (r : ρ) : Bool :=
  cs.all fun c => c.holds r

def conjunction : List (Condition ρ) → Fragment
  | [] => []
  | [c] => c.fragment
  | cs => Fragment.joined " AND " (cs.map fun c => c.operand c.fragment)

def whereClause (cs : List (Condition ρ)) : Fragment :=
  if cs.isEmpty then [] else .words " WHERE " :: conjunction cs

end Condition
end Sql
end PropertyBoard
