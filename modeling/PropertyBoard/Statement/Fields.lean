import PropertyBoard.Sql.Like
import PropertyBoard.Sql.Statement
import PropertyBoard.Sql.Template
import PropertyBoard.Store.Basic

/-!
# PropertyBoard.Statement.Fields

Statements about fields.

* `FieldFilter`: which fields to list. A blank team is any team, a blank term any name. Fields
  without a team are listed with those of each team unless `ownOnly` is set.
* `Fields.list`: the page of the fields that meet a filter, by name and identifier.
* `Fields.insert`, `Fields.byId`, `Fields.update`, `Fields.delete`: a single field.
-/

namespace PropertyBoard

structure FieldFilter where
  teamId : String := ""
  ownOnly : Bool := false
  term : String := ""
  page : Page
  deriving Repr, DecidableEq

namespace Statement
namespace Fields

open Sql Store

def insert (r : FieldRow) : Insert FieldRow where
  table := FieldRow.table
  columns := FieldRow.columns
  row := r

def byId (id : String) : Select FieldRow where
  columns := FieldRow.columns
  source := quoted FieldRow.table
  conditions := [.equals FieldRow.idColumn (.text id)]

/-- The condition that a field belongs to a team, or to no team unless `ownOnly` is set. -/
def teamCondition (teamId : String) (ownOnly : Bool) : Condition FieldRow :=
  if ownOnly then .equals FieldRow.teamColumn (.text teamId)
  else .either (.equals FieldRow.teamColumn (.text teamId))
    (.equals FieldRow.teamColumn (.text ""))

/-- The pattern of the names that contain a term. -/
def pattern (term : String) : String :=
  String.ofList ('%' :: Like.escape (Text.Lowercase.full term).toList ++ ['%'])

def nameCondition (pattern : String) : Condition FieldRow :=
  .byHand (.like FieldRow.nameColumn pattern)

/-- The condition on the name by hand. -/
def nameTemplate (pattern : String) : Template :=
  ⟨"LOWER(\"name\") LIKE ? ESCAPE '!'", [.text pattern]⟩

def teamConditions (f : FieldFilter) : List (Condition FieldRow) :=
  match Text.nonBlank? f.teamId with
  | some teamId => [teamCondition teamId f.ownOnly]
  | none => []

def pattern? (f : FieldFilter) : Option String :=
  (Text.nonBlank? f.term).map pattern

def nameConditions (f : FieldFilter) : List (Condition FieldRow) :=
  match pattern? f with
  | some pattern => [nameCondition pattern]
  | none => []

/-- A pattern that is too long shows when it is tried on a name. -/
def fault (f : FieldFilter) (r : FieldRow) : Option StorageError :=
  match pattern? f with
  | some pattern =>
    if Like.maxPatternSize < pattern.utf8ByteSize && Condition.allHold (teamConditions f) r then
      some .patternTooLong
    else none
  | none => none

def list (f : FieldFilter) : Select FieldRow where
  columns := FieldRow.columns
  source := quoted FieldRow.table
  conditions := teamConditions f ++ nameConditions f
  order := [{ column := FieldRow.nameColumn }, { column := FieldRow.idColumn }]
  window := some f.page.window
  fault := fault f

/-- Gives the field of this identifier the other contents of the row. -/
def update (r : FieldRow) : Update FieldRow where
  table := FieldRow.table
  assignments := [
    .text "team_id" (fun teamId old => { old with teamId }) r.teamId,
    .text "name" (fun name old => { old with name }) r.name,
    .text "field_type" (fun type old => { old with type }) r.type,
    .text "field_values" (fun options old => { old with options }) r.options,
    .int "update_at" (fun updatedAt old => { old with updatedAt }) r.updatedAt,
    .text "update_by" (fun updatedBy old => { old with updatedBy }) r.updatedBy]
  conditions := [.equals FieldRow.idColumn (.text r.id)]

def delete (id : String) : Delete FieldRow where
  table := FieldRow.table
  conditions := [.equals FieldRow.idColumn (.text id)]

end Fields
end Statement
end PropertyBoard
