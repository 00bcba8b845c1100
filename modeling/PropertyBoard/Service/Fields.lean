import PropertyBoard.Board
import PropertyBoard.Request
import PropertyBoard.Statement.Fields
import PropertyBoard.Statement.Properties

/-!
# PropertyBoard.Service.Fields

Calls about fields.

* `Fields.find`, `Fields.get`, `Fields.list`, `Fields.search`: reading.
* `Fields.create`, `Fields.update`, `Fields.delete`: writing.

When a field is updated its properties are conformed in the same change: what they hold becomes what
the field, as it is now, can hold. A text that says the right thing already stays as it is.
-/

namespace PropertyBoard
namespace Fields

open Store

def find (s : Store) (id : String) : Except Refusal (Option Field) := do
  let context := "get property_field " ++ id
  let rows ← query context s.fields (Statement.Fields.byId id)
  readFirst context FieldRow.table FieldRow.id FieldRow.field? rows

def get (s : Store) (id : String) : Except Refusal Field := do
  match ← find s id with
  | some f => .ok f
  | none => .error (.notFound .field id)

def list (s : Store) (filter : FieldFilter) : Except Refusal (List Field) := do
  let context := "list property_fields"
  let rows ← query context s.fields (Statement.Fields.list filter)
  readRows context FieldRow.table FieldRow.id FieldRow.field? rows []

/-- The first fields whose name contains the term. -/
def search (s : Store) (term teamId : String) (limit : Int64) : Except Refusal (List Field) :=
  list s { teamId, term, page := .first limit }

def encodeOptions (id : String) (options : List String) : Except Refusal String :=
  StoredJson.encode "property_field values" id (Json.ofTexts options)

def encodeValue (id : String) (texts : List String) : Except Refusal String :=
  StoredJson.encode "property value" id (Json.ofTexts texts)

def rowOf (f : Field) (options : String) : FieldRow where
  id := f.id
  teamId := f.teamId
  name := f.name
  type := f.type.name
  options := options
  updatedAt := f.updatedAt
  updatedBy := f.updatedBy

def ofInput (input : FieldInput) (id : String) (updatedAt : Int64) (updatedBy : String) :
    Field where
  id := id
  teamId := input.teamId
  name := input.name
  type := input.type
  options := input.options
  updatedAt := updatedAt
  updatedBy := updatedBy

def create (r : FieldRequest) (userId : String) : Call Field := do
  if r.id ≠ "" then
    Call.check (.error .idGiven)
  else
    let input ← Call.check r.check
    let id ← Call.drawId
    let now ← Call.now
    let f := ofInput input id now userId
    let options ← Call.check (encodeOptions id f.options)
    Call.make (Change.insert ("insert property_field " ++ id) insertField
      (Statement.Fields.insert (rowOf f options)))
    pure f

/-- The text to store for a property when its field is as given, if it is not the text it has. -/
def conformed? (f : Field) (r : PropertyRow) : Except Refusal (Option String) :=
  match stored? Codec.texts r.value with
  | none =>
    .error (.storage (.undecodableRow PropertyRow.table r.id) ("decode value of property " ++ r.id))
  | some stored =>
    let texts := (Value.conform f stored).toList
    if texts = stored then .ok none else (encodeValue r.id texts).map some

/-- Conforms the properties of these rows and counts those that had to change. -/
def conformRows (f : Field) : List PropertyRow → Change Nat
  | [] => pure 0
  | r :: rest => do
    match ← Change.check (conformed? f r) with
    | none => conformRows f rest
    | some text =>
      let _ ← Change.updateProperties (Statement.Properties.updateValue r.id text)
      let n ← conformRows f rest
      pure (n + 1)

def conformAll (f : Field) : Change Nat := do
  let rows ← Change.look fun s =>
    query ("list properties of field " ++ f.id) s.properties (Statement.Properties.valuesOfField f.id)
  conformRows f rows

/-- Gives the field of the row's identifier the contents of the row. -/
def replace (row : FieldRow) : Change Nat := do
  let n ← Change.updateFields (Statement.Fields.update row)
  if n = 0 then Change.check (.error (.notFound .field row.id))
  else
    let f ← Change.look fun s => get s row.id
    conformAll f

def update (id : String) (r : FieldRequest) (userId : String) : Call Field := do
  if r.id ≠ "" ∧ r.id ≠ id then
    Call.check (.error .idMismatch)
  else
    let input ← Call.check r.check
    let now ← Call.now
    let f := ofInput input id now userId
    let options ← Call.check (encodeOptions id f.options)
    let _ ← Call.make (replace (rowOf f options))
    pure f

/-- Removes a field with its properties, and counts the properties. -/
def remove (id : String) : Change Nat := do
  let n ← Change.deleteProperties (Statement.Properties.deleteOfField id)
  let gone ← Change.deleteFields (Statement.Fields.delete id)
  if gone = 0 then Change.check (.error (.notFound .field id)) else pure n

def delete (id : String) : Call Nat :=
  Call.make (remove id)

end Fields
end PropertyBoard
