import PropertyBoard.Service.Access
import PropertyBoard.Service.Fields

/-!
# PropertyBoard.Service.Properties

Calls about properties.

* `Properties.get`, `Properties.ofObject`: reading.
* `Properties.create`: a property for a field that exists, with a value that the field can hold, on
  an object that the platform knows. It gives all properties of the object the scope of now.
* `Properties.update`, `Properties.delete`, `Properties.resync`: another value, none, the scope of
  now.
-/

namespace PropertyBoard
namespace Properties

open Store

def readJoined (r : Statement.Properties.Joined) : Option Property :=
  r.1.property? r.2

def joinedId (r : Statement.Properties.Joined) : String :=
  r.1.id

def find (s : Store) (id : String) : Except Refusal (Option Property) := do
  let context := "get property " ++ id
  let rows ← query context s.joined (Statement.Properties.byId id)
  readFirst context PropertyRow.table joinedId readJoined rows

def get (s : Store) (id : String) : Except Refusal Property := do
  match ← find s id with
  | some p => .ok p
  | none => .error (.notFound .property id)

/-- The properties of an object, by the names of their fields. -/
def ofObject (s : Store) (objectId : String) : Except Refusal (List Property) := do
  let context := "get properties for object " ++ objectId
  let rows ← query context s.joined (Statement.Properties.ofObject objectId)
  readRows context PropertyRow.table joinedId readJoined rows []

/-- The value that the field makes of what a user sends. -/
def parseValue (userId : String) (f : Field) (raw : List Json) : Except Refusal Value := do
  let value ← Refusal.ofInvalid (Value.parse f raw)
  match Access.toValue userId f value with
  | .granted => .ok value
  | .unchecked => .ok value

/-- The field that a new property is for. -/
def fieldFor (s : Store) (fieldId : String) : Except Refusal Field := do
  match ← Fields.find s fieldId with
  | some f => .ok f
  | none => .error (.unknownField fieldId)

/-- Adds a property whose object has none for the field, and gives the object's other properties
its scope. Counts these. -/
def attach (r : PropertyRow) : Change Nat := do
  let _ ← Change.look fun s => fieldFor s r.fieldId
  let held ← Change.look fun s =>
    .ok ((Statement.Properties.countOf r.objectId r.fieldId).on s.properties)
  if held > 0 then Change.check (.error (.alreadyHeld r.objectId r.fieldId))
  else
    Change.insert ("insert property " ++ r.id) insertProperty (Statement.Properties.insert r)
    Change.updateProperties (Statement.Properties.restamp r.objectId r.scope)

def create (input : PropertyInput) (userId : String) : Call Property := do
  let f ← Call.look fun s => fieldFor s input.fieldId
  let value ← Call.check (parseValue userId f input.value)
  let scope ← Call.look fun s => Platform.scopeOf s input.objectType input.objectId
  let id ← Call.drawId
  let text ← Call.check (Fields.encodeValue id value.toList)
  let _ ← Call.make (attach {
    id
    objectId := input.objectId
    objectType := input.objectType.name
    fieldId := f.id
    value := text
    channelId := scope.channelId
    teamId := scope.teamId })
  pure {
    id
    objectId := input.objectId
    objectType := input.objectType
    fieldId := f.id
    fieldName := f.name
    fieldType := f.type
    fieldOptions := f.options
    value
    scope }

/-- Gives a property another value. -/
def setValue (id : String) (raw : List Json) (userId : String) : Change Nat := do
  let p ← Change.look fun s => get s id
  let f ← Change.look fun s => Fields.get s p.fieldId
  let value ← Change.check (parseValue userId f raw)
  let text ← Change.check (Fields.encodeValue id value.toList)
  Change.updateProperties (Statement.Properties.updateValue id text)

def update (id : String) (raw : List Json) (userId : String) : Call Property := do
  let _ ← Call.make (setValue id raw userId)
  Call.look fun s => get s id

def remove (id : String) : Change Unit := do
  let n ← Change.deleteProperties (Statement.Properties.delete id)
  if n = 0 then Change.check (.error (.notFound .property id)) else pure ()

def delete (id : String) : Call Unit :=
  Call.make (remove id)

/-- Gives all properties of an object the scope that the platform has for it now, and counts those
that had another. The type of the object is that of its first property. -/
def resync (objectId : String) : Call Nat := do
  match ← Call.look fun s => ofObject s objectId with
  | [] => pure 0
  | first :: _ =>
    let scope ← Call.look fun s => Platform.scopeOf s first.objectType objectId
    Call.make (Change.updateProperties (Statement.Properties.restamp objectId scope))

end Properties
end PropertyBoard
