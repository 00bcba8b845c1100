import PropertyBoard.Sql.Statement
import PropertyBoard.Sql.Template
import PropertyBoard.Store.Objects

/-!
# PropertyBoard.Statement.Objects

The statement that a query of a view stands for: a page of the objects that meet the query.

* `Clause`: what a query asks of one field. Without texts the field is wanted, or not wanted, as
  such. With texts a wanted field holds one of them; an unwanted field is there and holds none.
* `Clause.term`: its condition, which tells how it is written and which objects meet it.
* `Clause.template`: its text by hand, made from the number of texts, and apart from it its values.
* `Objects.compile`: the statement. A query that asks nothing of any field has none.

| texts       | wanted              | unwanted                                    |
|-------------|---------------------|---------------------------------------------|
| none        | the field is there  | the field is not there                      |
| one or more | it holds one        | the field is there and holds none           |
-/

namespace PropertyBoard
namespace Statement
namespace Objects

open Sql Store

/-- A field of an object, and what is held for it. -/
abbrev Entry := String × Option Held

/-- Something held for a field, beside the field and the object. -/
abbrev HeldElement := (ObjectRow × Entry) × Loose.Element

def entries : Relation ObjectRow Entry where
  written := "json_each(\"v\".\"properties\") AS f"
  rows r := r.held.map some

/-- What is not JSON cannot be read. -/
def heldElements : Relation (ObjectRow × Entry) Loose.Element where
  written := "json_each(f.value) AS x"
  rows r :=
    match r.2.2 with
    | some h => (Held.elements h).map Loose.Element.readable?
    | none => [none]

def keyColumn : Column (ObjectRow × Entry) where
  label := "f.key"
  cell r := .text r.2.1

def valueColumn : Column HeldElement where
  label := "x.value"
  cell r := r.2.cell

inductive Clause where
  | wanted (fieldId : String) (texts : List String)
  | unwanted (fieldId : String) (texts : List String)
  deriving Repr, DecidableEq

namespace Clause

def present (fieldId : String) : Lookup ObjectRow :=
  .among entries [.equals keyColumn (.text fieldId)] .here

/-- The comparison of a held text with one text, or with several. -/
def oneOf : List String → Comparison HeldElement
  | [text] => .equals valueColumn (.text text)
  | texts => .isIn valueColumn (texts.map .text)

def contains (fieldId : String) (texts : List String) : Lookup ObjectRow :=
  .among entries [.equals keyColumn (.text fieldId)] (.among heldElements [oneOf texts] .here)

def term : Clause → Handwritten ObjectRow
  | wanted fieldId [] => .hasRow (present fieldId)
  | wanted fieldId texts => .hasRow (contains fieldId texts)
  | unwanted fieldId [] => .not (.hasRow (present fieldId))
  | unwanted fieldId texts =>
    .both (.hasRow (present fieldId)) (.not (.hasRow (contains fieldId texts)))

def fragment (c : Clause) : Fragment :=
  c.term.fragment

def holds (c : Clause) (r : ObjectRow) : Bool :=
  c.term.holds r

def fault (c : Clause) (r : ObjectRow) : Option StorageError :=
  if (c.term.verdict? r).isSome then none else some .malformedJson

/-- How deep the subqueries of the clause are, each counted from its own condition. -/
def innerDepth : Clause → Nat
  | wanted _ [] => 3
  | wanted _ _ => 4
  | unwanted _ [] => 3
  | unwanted _ _ => 4

/-- How deep the clause is. -/
def depth : Clause → Nat
  | wanted _ [] => 4
  | wanted _ _ => 5
  | unwanted _ [] => 5
  | unwanted _ _ => 7

def condition (c : Clause) : Condition ObjectRow :=
  .byHand c.term

/-! ### The clause by hand -/

def fieldPresent : String :=
  "EXISTS (SELECT 1 FROM json_each(\"v\".\"properties\") AS f WHERE f.key = ?)"

/-- The comparison of what is held goes behind it. -/
def fieldContains : String :=
  "EXISTS (SELECT 1 FROM json_each(\"v\".\"properties\") AS f, " ++
    "json_each(f.value) AS x WHERE f.key = ? AND "

/-- The text for a number of texts, whatever they are. -/
def containsText (n : Nat) : String :=
  if n = 1 then fieldContains ++ "x.value = ?)"
  else fieldContains ++ "x.value IN (" ++ Template.placeholders n ++ "))"

def fieldValues (fieldId : String) (texts : List String) : List Param :=
  .text fieldId :: texts.map .text

def template : Clause → Template
  | wanted fieldId [] => ⟨fieldPresent, [.text fieldId]⟩
  | wanted fieldId texts => ⟨containsText texts.length, fieldValues fieldId texts⟩
  | unwanted fieldId [] => ⟨"NOT " ++ fieldPresent, [.text fieldId]⟩
  | unwanted fieldId texts =>
    ⟨"(" ++ fieldPresent ++ " AND NOT " ++ containsText texts.length ++ ")",
      .text fieldId :: fieldValues fieldId texts⟩

/-- The clause by hand alone, as a statement. -/
def statement (c : Clause) : Fragment :=
  .words "SELECT " :: c.template.fragment?.getD []

end Clause

def clauses (q : Query) : List Clause :=
  (q.includes.entries.map fun e => .wanted e.1 e.2) ++
    (q.excludes.entries.map fun e => .unwanted e.1 e.2)

def own (c : Column ObjectRow) : Column ObjectRow :=
  c.within "v" id

def scopeConditions (q : Query) : List (Condition ObjectRow) :=
  (q.channelScope.toList.map fun id => .equals (own ObjectRow.channelColumn) (.text id)) ++
    (q.teamScope.toList.map fun id => .equals (own ObjectRow.teamColumn) (.text id))

def typeConditions (type : Option ObjectType) : List (Condition ObjectRow) :=
  type.toList.map fun t => .equals (own ObjectRow.typeColumn) (.text t.name)

/-- The clauses are tried in order, as long as they hold. -/
def clausesFault : List Clause → ObjectRow → Option StorageError
  | [], _ => none
  | c :: cs, r =>
    match c.fault r with
    | some e => some e
    | none => if c.holds r then clausesFault cs r else none

/-- Objects of another type are left out before anything stored is read, and objects of another
scope before any clause is tried. What is nested too deep cannot be looked at by any clause. -/
def fault (q : Query) (type : Option ObjectType) (r : ObjectRow) : Option StorageError :=
  if !Condition.allHold (typeConditions type) r then none
  else if !r.isReadable then some .malformedJson
  else if !Condition.allHold (scopeConditions q) r then none
  else if !r.isSearchable then some .malformedJson
  else clausesFault (clauses q) r

/-- How deep a comparison is. -/
def comparisonDepth : Nat :=
  3

/-- How deep a conjunction is whose earlier and later conditions have these depths: each condition
goes beside all that stand before it. -/
def conjunctionDepth : List Nat → Nat
  | [] => 0
  | d :: ds => ds.foldl (fun sofar d => max sofar d + 1) d

/-- How deep the whole condition is, together with the deepest subquery in it. -/
def depth (q : Query) (type : Option ObjectType) : Nat :=
  let comparisons := (scopeConditions q ++ typeConditions type).map fun _ => comparisonDepth
  conjunctionDepth ((clauses q).map Clause.depth ++ comparisons) +
    ((clauses q).map Clause.innerDepth).foldl max 0

def select (q : Query) (type : Option ObjectType) (page : Page) : Select ObjectRow where
  columns := [own ObjectRow.idColumn]
  source := quoted ObjectRow.view ++ " AS \"v\""
  conditions :=
    (clauses q).map Clause.condition ++ scopeConditions q ++ typeConditions type
  distinct := some (own ObjectRow.idColumn)
  order := [{ column := own ObjectRow.idColumn }]
  window := some page.window
  depth := depth q type
  fault := fault q type

def compile (q : Query) (type : Option ObjectType) (page : Page) :
    Except Refusal (Select ObjectRow) :=
  if q.hasCriteria then .ok (select q type page) else .error .noCriteria

end Objects
end Statement
end PropertyBoard
