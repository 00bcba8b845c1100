import PropertyBoard.Value

/-!
# PropertyBoard.Property

Properties: what an object holds for a field.

* `ObjectType`: posts and channels carry properties.
* `Scope`: the channel and the team of an object, as of the last time somebody looked.
* `Property`: a property with what is shown of its field.
-/

namespace PropertyBoard

inductive ObjectType where
  | post
  | channel
  deriving Repr, DecidableEq, Inhabited

namespace ObjectType

def name : ObjectType → String
  | post => "post"
  | channel => "channel"

instance : Named ObjectType where
  all := [post, channel]
  name := name
  noun := "object_type"

@[simp] theorem ofName?_name (t : ObjectType) : Named.ofName? t.name = some t := by
  cases t <;> decide

end ObjectType

structure Scope where
  channelId : String
  teamId : String
  deriving Repr, DecidableEq

structure Property where
  id : String
  objectId : String
  objectType : ObjectType
  fieldId : String
  fieldName : String
  fieldType : FieldType
  fieldOptions : List String
  value : Value
  scope : Scope
  deriving Repr, DecidableEq

namespace Property

def toJson (p : Property) : Json :=
  .obj [
    ("id", .str p.id),
    ("object_id", .str p.objectId),
    ("object_type", .str p.objectType.name),
    ("property_field_id", .str p.fieldId),
    ("property_field_name", .str p.fieldName),
    ("property_field_type", .str p.fieldType.name),
    ("property_field_values", Json.ofTexts p.fieldOptions),
    ("value", p.value.toJson),
    ("channel_id", .str p.scope.channelId),
    ("team_id", .str p.scope.teamId)]

end Property
end PropertyBoard
