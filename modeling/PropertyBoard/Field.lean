import PropertyBoard.Named

/-!
# PropertyBoard.Field

Fields: the named, typed columns that properties fill.

* `FieldType`: a text, options from a list, a user, or a post. Only `select` has options.
* `Field`: a field; one without a team is global.
-/

namespace PropertyBoard

inductive FieldType where
  | text
  | select
  | user
  | post
  deriving Repr, DecidableEq, Inhabited

namespace FieldType

def name : FieldType → String
  | text => "text"
  | select => "select"
  | user => "user"
  | post => "post"

instance : Named FieldType where
  all := [text, select, user, post]
  name := name
  noun := "type"

@[simp] theorem ofName?_name (t : FieldType) : Named.ofName? t.name = some t := by
  cases t <;> decide

def hasOptions : FieldType → Bool
  | select => true
  | _ => false

end FieldType

structure Field where
  id : String
  teamId : String
  name : String
  type : FieldType
  options : List String
  updatedAt : Int64
  updatedBy : String
  deriving Repr, DecidableEq

namespace Field

def isGlobal (f : Field) : Bool :=
  f.teamId = ""

def offers (f : Field) (option : String) : Bool :=
  f.options.contains option

def codec : Codec Field where
  shape := .record [
    ("id", .required, .text),
    ("team_id", .defaulted, .text),
    ("name", .required, .text),
    ("type", .required, (Named.codec : Codec FieldType).shape),
    ("values", .defaulted, Codec.texts.shape),
    ("update_at", .defaulted, .int64),
    ("update_by", .defaulted, .text)]
  encode f := .obj [
    ("id", .str f.id),
    ("team_id", .str f.teamId),
    ("name", .str f.name),
    ("type", Named.codec.encode f.type),
    ("values", Codec.texts.encode f.options),
    ("update_at", Codec.int64.encode f.updatedAt),
    ("update_by", .str f.updatedBy)]
  decode j := do
    let id ← Codec.text.required j "id"
    let teamId ← Codec.text.defaulted j "team_id" ""
    let name ← Codec.text.required j "name"
    let type ← Named.codec.required j "type"
    let options ← Codec.texts.defaulted j "values" []
    let updatedAt ← Codec.int64.defaulted j "update_at" 0
    let updatedBy ← Codec.text.defaulted j "update_by" ""
    some { id, teamId, name, type, options, updatedAt, updatedBy }

end Field
end PropertyBoard
