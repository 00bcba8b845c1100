import PropertyBoard.Page
import PropertyBoard.Refusal
import PropertyBoard.View

/-!
# PropertyBoard.Request

What callers send, and the checks that turn it into data of the board.

* `FieldRequest`, `PropertyRequest`, `ValueRequest`, `ViewRequest`, `ViewPatch`, `MemberRequest`:
  bodies. Types and values come as they are, so that a check can say what is wrong with them.
* `FieldInput`, `PropertyInput`, `ViewInput`: the results of `FieldRequest.check` and its like.
* `SearchParams`, `PageParams`: query strings. A page that is no number falls back to a default.
* `StoredJson.encode`: the text of a JSON column, which has a limit.
-/

namespace PropertyBoard

/-! ## Fields -/

structure FieldRequest where
  id : String := ""
  teamId : String := ""
  name : String := ""
  type : String := ""
  options : Option (List Json) := none
  deriving Repr

structure FieldInput where
  teamId : String
  name : String
  type : FieldType
  options : List String
  deriving Repr, DecidableEq

namespace FieldRequest

def codec : Codec FieldRequest where
  shape := .record [
    ("id", .defaulted, .text),
    ("team_id", .defaulted, .text),
    ("name", .defaulted, .text),
    ("type", .defaulted, .text),
    ("values", .nullable, (Codec.list .json).shape)]
  encode r := .obj [
    ("id", .str r.id),
    ("team_id", .str r.teamId),
    ("name", .str r.name),
    ("type", .str r.type),
    ("values", (Codec.list .json).encodeNullable r.options)]
  decode j := do
    let id ← Codec.text.defaulted j "id" ""
    let teamId ← Codec.text.defaulted j "team_id" ""
    let name ← Codec.text.defaulted j "name" ""
    let type ← Codec.text.defaulted j "type" ""
    let options ← (Codec.list .json).nullable j "values"
    some { id, teamId, name, type, options }

def check (r : FieldRequest) : Except Refusal FieldInput :=
  match Named.ofName? r.type with
  | none => .error (.unusable "type")
  | some type =>
    match Field.checkName r.name with
    | .error _ => .error (.unusable "name")
    | .ok name =>
      match Field.checkOptions type (r.options.getD []) with
      | .error cause => .error (.invalid cause)
      | .ok options => .ok { teamId := Text.trim r.teamId, name, type, options }

end FieldRequest

/-! ## Properties -/

structure PropertyRequest where
  id : String := ""
  objectId : String := ""
  objectType : String := ""
  fieldId : String := ""
  value : Option (List Json) := none
  deriving Repr

structure PropertyInput where
  objectId : String
  objectType : ObjectType
  fieldId : String
  value : List Json
  deriving Repr

namespace PropertyRequest

def codec : Codec PropertyRequest where
  shape := .record [
    ("id", .defaulted, .text),
    ("object_id", .defaulted, .text),
    ("object_type", .defaulted, .text),
    ("property_field_id", .defaulted, .text),
    ("value", .nullable, (Codec.list .json).shape)]
  encode r := .obj [
    ("id", .str r.id),
    ("object_id", .str r.objectId),
    ("object_type", .str r.objectType),
    ("property_field_id", .str r.fieldId),
    ("value", (Codec.list .json).encodeNullable r.value)]
  decode j := do
    let id ← Codec.text.defaulted j "id" ""
    let objectId ← Codec.text.defaulted j "object_id" ""
    let objectType ← Codec.text.defaulted j "object_type" ""
    let fieldId ← Codec.text.defaulted j "property_field_id" ""
    let value ← (Codec.list .json).nullable j "value"
    some { id, objectId, objectType, fieldId, value }

def check (r : PropertyRequest) : Except Refusal PropertyInput :=
  if r.id ≠ "" then .error .idGiven
  else
    match Named.ofName? r.objectType with
    | none => .error (.unusable "object_type")
    | some objectType =>
      match Text.nonBlank? r.objectId with
      | none => .error (.unusable "object_id")
      | some objectId =>
        match Text.nonBlank? r.fieldId with
        | none => .error (.unusable "property_field_id")
        | some fieldId => .ok { objectId, objectType, fieldId, value := r.value.getD [] }

end PropertyRequest

structure ValueRequest where
  value : Option (List Json) := none
  deriving Repr

namespace ValueRequest

def codec : Codec ValueRequest where
  shape := .record [("value", .nullable, (Codec.list .json).shape)]
  encode r := .obj [("value", (Codec.list .json).encodeNullable r.value)]
  decode j := do
    let value ← (Codec.list .json).nullable j "value"
    some { value }

end ValueRequest

/-! ## Views -/

structure ViewRequest where
  id : String := ""
  title : String := ""
  type : String := ""
  query : Query := {}
  layout : Layout := {}
  deriving Repr

structure ViewInput where
  title : String
  type : ViewType
  query : Query
  layout : Layout
  deriving Repr, DecidableEq

namespace ViewRequest

def codec : Codec ViewRequest where
  shape := .record [
    ("id", .defaulted, .text),
    ("title", .defaulted, .text),
    ("type", .defaulted, .text),
    ("query", .defaulted, Query.codec.shape),
    ("format", .defaulted, Layout.codec.shape)]
  encode r := .obj [
    ("id", .str r.id),
    ("title", .str r.title),
    ("type", .str r.type),
    ("query", Query.codec.encode r.query),
    ("format", Layout.codec.encode r.layout)]
  decode j := do
    let id ← Codec.text.defaulted j "id" ""
    let title ← Codec.text.defaulted j "title" ""
    let type ← Codec.text.defaulted j "type" ""
    let query ← Query.codec.defaulted j "query" {}
    let layout ← Layout.codec.defaulted j "format" {}
    some { id, title, type, query, layout }

/-- A view without a type is a list. -/
def checkType (type : String) : Except Invalid ViewType :=
  match Text.nonBlank? type with
  | some t => Named.parse ViewType t
  | none => .ok .list

def check (r : ViewRequest) : Except Refusal ViewInput :=
  if r.id ≠ "" then .error .idGiven
  else Refusal.ofInvalid do
    let title ← View.checkTitle r.title
    let type ← checkType r.type
    r.query.checkConstrained
    .ok { title, type, query := r.query, layout := r.layout }

end ViewRequest

/-- The parts of a view to replace. -/
structure ViewPatch where
  title : Option String := none
  query : Option Query := none
  layout : Option Layout := none
  deriving Repr, DecidableEq

namespace ViewPatch

def isEmpty (p : ViewPatch) : Bool :=
  p.title.isNone && p.query.isNone && p.layout.isNone

def codec : Codec ViewPatch where
  shape := .record [
    ("title", .nullable, .text),
    ("query", .nullable, Query.codec.shape),
    ("format", .nullable, Layout.codec.shape)]
  encode p := .obj [
    ("title", Codec.text.encodeNullable p.title),
    ("query", Query.codec.encodeNullable p.query),
    ("format", Layout.codec.encodeNullable p.layout)]
  decode j := do
    let title ← Codec.text.nullable j "title"
    let query ← Query.codec.nullable j "query"
    let layout ← Layout.codec.nullable j "format"
    some { title, query, layout }

end ViewPatch

structure MemberRequest where
  userId : String
  deriving Repr, DecidableEq

namespace MemberRequest

def codec : Codec MemberRequest where
  shape := .record [("user_id", .required, .text)]
  encode r := .obj [("user_id", .str r.userId)]
  decode j := do
    let userId ← Codec.text.required j "user_id"
    some { userId }

end MemberRequest

/-! ## Query strings -/

structure SearchParams where
  term : Option String := none
  teamId : Option String := none
  deriving Repr, DecidableEq

structure PageParams where
  number : Option String := none
  size : Option String := none
  deriving Repr, DecidableEq

namespace PageParams

def codec : Codec PageParams where
  shape := .record [
    ("page", .nullable, .text),
    ("per_page", .nullable, .text)]
  encode p := .obj [
    ("page", Codec.text.encodeNullable p.number),
    ("per_page", Codec.text.encodeNullable p.size)]
  decode j := do
    let number ← Codec.text.nullable j "page"
    let size ← Codec.text.nullable j "per_page"
    some { number, size }

def readOr (fallback : Int64) (s : Option String) : Int64 :=
  match s.bind fun s => Decimal.readWithin minInt64 maxInt64 (Text.trim s) with
  | some n => .ofInt n
  | none => fallback

def page (p : PageParams) (defaultSize : Int64) : Page where
  number := readOr 0 p.number
  size := readOr defaultSize p.size

end PageParams

/-! ## JSON columns -/

namespace StoredJson

/-- The longest text of a JSON column, in octets of UTF-8. -/
def maxSize : Nat :=
  256 * 1024

def encode (what id : String) (j : Json) : Except Refusal String :=
  let text := j.text
  if maxSize < text.utf8ByteSize then .error (.tooLong what id maxSize) else .ok text

end StoredJson
end PropertyBoard
