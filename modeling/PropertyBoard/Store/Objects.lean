import PropertyBoard.Json.Loose.Reader
import PropertyBoard.Store.Basic

/-!
# PropertyBoard.Store.Objects

What each object holds: the properties of an object in one row. Objects are told apart by their
identifier and their type.

* `ObjectRow`: an object, its scope, and for each of its properties the field and what is held.
* `Store.objects`: the row of each object that has a property. The channel and the team are the
  greatest of the object's properties.
* `Held.elements`: what a query compares with texts. What is stored is a list of texts; of any
  other list or object, the items that are texts count, and those that are lists or objects by
  their strict JSON; a lone text is itself read as JSON.
* `ObjectRow.properties`: the whole row as one object, by field.
-/

namespace PropertyBoard

namespace Loose

/-- Something that a query may compare with a text. A hexadecimal number of more than 64 bits
cannot be compared with anything. -/
inductive Element where
  | text (s : String)
  | other
  | unreadable
  deriving Repr, DecidableEq

namespace Element

def ofWide (w : Wide) : Element :=
  match Wide.text? w with
  | some s => text s
  | none => other

def readable? : Element → Option Element
  | unreadable => none
  | e => some e

/-- What is no text equals none, and stands as nothing. -/
def cell : Element → Sql.Cell
  | text s => .text s
  | _ => .null

end Element

def element : Loose → Element
  | .text raw => .ofWide (content raw)
  | .hex _ n => if n ≤ maxHex then .other else .unreadable
  | .list items => .ofWide (written (.list items))
  | .object members => .ofWide (written (.object members))
  | _ => .other

/-- The items or members; a value that has none of either is its own only part. -/
def parts : Loose → List Loose
  | .list items => items
  | .object members => members.map Prod.snd
  | v => [v]

end Loose

namespace Store

/-- A stored value as it was read. It is compared in its strict form. -/
abbrev Held := Loose

namespace Held

def elements : Held → List Loose.Element
  | .null => []
  | .text raw =>
    match Loose.read (Loose.content (Loose.strictText raw)).beforeNul with
    | some v => v.parts.map Loose.element
    | none => [.unreadable]
  | v => v.parts.map fun part => part.strict.element

end Held

structure ObjectRow where
  objectId : String
  objectType : String
  channelId : String
  teamId : String
  held : List (String × Option Held)
  deriving Repr

namespace ObjectRow

def view : String :=
  "property_query_view"

def idColumn : Sql.Column ObjectRow := .text "object_id" objectId

def typeColumn : Sql.Column ObjectRow := .text "object_type" objectType

def channelColumn : Sql.Column ObjectRow := .text "channel_id" channelId

def teamColumn : Sql.Column ObjectRow := .text "team_id" teamId

/-- Whether all that the object holds is JSON. -/
def isReadable (r : ObjectRow) : Bool :=
  r.held.all fun e => e.2.isSome

/-- What is held, by the name of its field. -/
def properties (r : ObjectRow) : Loose :=
  .object (r.held.filterMap fun e =>
    e.2.map fun h => (Wide.ofChars (e.1.toList.flatMap Json.escape), h))

/-- Whether a query can look at what is held. -/
def isSearchable (r : ObjectRow) : Bool :=
  r.properties.nesting ≤ Loose.maxNesting

end ObjectRow

def greatest (texts : List String) : String :=
  texts.foldl (fun m t => if m < t then t else m) ""

namespace PropertyRow

/-- What tells objects apart. -/
def objectKey (p : PropertyRow) : String × String :=
  (p.objectId, p.objectType)

end PropertyRow

def objectKeys (s : Store) : List (String × String) :=
  (s.properties.map PropertyRow.objectKey).eraseDups

/-- The name of a field among the properties of an object; it ends before a NUL. -/
def memberName (fieldId : String) : String :=
  String.ofList (fieldId.toList.takeWhile (· != '\x00'))

def objectRow (s : Store) (key : String × String) : ObjectRow :=
  let rows := s.properties.filter fun p => p.objectKey = key
  { objectId := key.1
    objectType := key.2
    channelId := greatest (rows.map PropertyRow.channelId)
    teamId := greatest (rows.map PropertyRow.teamId)
    held := rows.map fun p => (memberName p.fieldId, Loose.ofText? p.value) }

def objects (s : Store) : List ObjectRow :=
  s.objectKeys.map s.objectRow

end Store
end PropertyBoard
