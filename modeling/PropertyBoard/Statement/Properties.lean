import PropertyBoard.Sql.Statement
import PropertyBoard.Store.Basic

/-!
# PropertyBoard.Statement.Properties

Statements about properties.

* `byId`, `ofObject`: properties beside their fields; those of an object by the name of the field.
* `valuesOfField`, `countOf`: the values of a field, and whether an object has one.
* `insert`, `updateValue`, `restamp`, `delete`, `deleteOfField`. `restamp` gives all properties of
  an object one scope, and counts those that had another.
-/

namespace PropertyBoard
namespace Statement
namespace Properties

open Sql Store

/-- A property beside the row of its field. -/
abbrev Joined := PropertyRow × FieldRow

def own (c : Column PropertyRow) : Column Joined :=
  c.within PropertyRow.table Prod.fst

def ofField (c : Column FieldRow) : Column Joined :=
  c.within FieldRow.table Prod.snd

def joinedColumns : List (Column Joined) := [
  own PropertyRow.idColumn, own PropertyRow.objectColumn, own PropertyRow.objectTypeColumn,
  own PropertyRow.fieldColumn, ofField FieldRow.nameColumn, ofField FieldRow.typeColumn,
  ofField FieldRow.optionsColumn, own PropertyRow.valueColumn, own PropertyRow.channelColumn,
  own PropertyRow.teamColumn]

def joinedSource : String :=
  propertyFields.source

def insert (r : PropertyRow) : Insert PropertyRow where
  table := PropertyRow.table
  columns := PropertyRow.columns
  row := r

def byId (id : String) : Select Joined where
  columns := joinedColumns
  source := joinedSource
  conditions := [.equals (own PropertyRow.idColumn) (.text id)]

def ofObject (objectId : String) : Select Joined where
  columns := joinedColumns
  source := joinedSource
  conditions := [.equals (own PropertyRow.objectColumn) (.text objectId)]
  order := [{ column := ofField FieldRow.nameColumn }, { column := own PropertyRow.idColumn }]

def valuesOfField (fieldId : String) : Select PropertyRow where
  columns := [PropertyRow.idColumn, PropertyRow.valueColumn]
  source := quoted PropertyRow.table
  conditions := [.equals PropertyRow.fieldColumn (.text fieldId)]
  order := [{ column := PropertyRow.idColumn }]

def countOf (objectId fieldId : String) : Count PropertyRow where
  source := quoted PropertyRow.table
  conditions := [
    .equals PropertyRow.objectColumn (.text objectId),
    .equals PropertyRow.fieldColumn (.text fieldId)]

def updateValue (id value : String) : Update PropertyRow where
  table := PropertyRow.table
  assignments := [.text "value" (fun value old => { old with value }) value]
  conditions := [.equals PropertyRow.idColumn (.text id)]

def restamp (objectId : String) (scope : Scope) : Update PropertyRow where
  table := PropertyRow.table
  assignments := [
    .text "channel_id" (fun channelId old => { old with channelId }) scope.channelId,
    .text "team_id" (fun teamId old => { old with teamId }) scope.teamId]
  conditions := [
    .equals PropertyRow.objectColumn (.text objectId),
    .either (.differs PropertyRow.channelColumn (.text scope.channelId))
      (.differs PropertyRow.teamColumn (.text scope.teamId))]

def delete (id : String) : Delete PropertyRow where
  table := PropertyRow.table
  conditions := [.equals PropertyRow.idColumn (.text id)]

def deleteOfField (fieldId : String) : Delete PropertyRow where
  table := PropertyRow.table
  conditions := [.equals PropertyRow.fieldColumn (.text fieldId)]

end Properties
end Statement
end PropertyBoard
