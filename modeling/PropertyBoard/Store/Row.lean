import PropertyBoard.Refusal
import PropertyBoard.View
import PropertyBoard.Sql.Condition

/-!
# PropertyBoard.Store.Row

The rows of the tables. Names and JSON stand in a row as the text that was written, whether or not
it can be read.

* `FieldRow`, `PropertyRow`, `ViewRow`: rows of the board; `Member` is the row of a view's member.
* `ChannelRow`, `RoleRow`: rows of the platform; `Post` is the row of a post.
* `FieldRow.field?`, `PropertyRow.property?`, `ViewRow.view?`, `ChannelRow.channel?`: what a row
  says, if it can be read.
* For each table its name and its columns.
-/

namespace PropertyBoard
namespace Store

structure FieldRow where
  id : String
  teamId : String
  name : String
  type : String
  options : String
  updatedAt : Int64
  updatedBy : String
  deriving Repr, DecidableEq

structure PropertyRow where
  id : String
  objectId : String
  objectType : String
  fieldId : String
  value : String
  channelId : String
  teamId : String
  deriving Repr, DecidableEq

structure ViewRow where
  id : String
  title : String
  type : String
  createdAt : Int64
  query : String
  layout : String
  deriving Repr, DecidableEq

structure ChannelRow where
  id : String
  teamId : String
  name : String
  type : String
  deriving Repr, DecidableEq

structure RoleRow where
  channelId : String
  userId : String
  role : String
  deriving Repr, DecidableEq

/-- What a text says in the JSON form of a type. -/
def stored? {α : Type} (c : Codec α) (text : String) : Option α :=
  match c.read text with
  | .ok a => some a
  | .error _ => none

namespace FieldRow

def table : String :=
  "property_fields"

def idColumn : Sql.Column FieldRow := .text "id" id

def teamColumn : Sql.Column FieldRow := .text "team_id" teamId

def nameColumn : Sql.Column FieldRow := .text "name" name

def typeColumn : Sql.Column FieldRow := .text "field_type" type

def optionsColumn : Sql.Column FieldRow := .text "field_values" options

def updatedAtColumn : Sql.Column FieldRow := .int "update_at" updatedAt

def updatedByColumn : Sql.Column FieldRow := .text "update_by" updatedBy

def columns : List (Sql.Column FieldRow) :=
  [idColumn, teamColumn, nameColumn, typeColumn, optionsColumn, updatedAtColumn, updatedByColumn]

def field? (r : FieldRow) : Option Field := do
  let type ← Named.ofName? r.type
  let options ← stored? Codec.texts r.options
  some {
    id := r.id
    teamId := r.teamId
    name := r.name
    type
    options
    updatedAt := r.updatedAt
    updatedBy := r.updatedBy }

end FieldRow

namespace PropertyRow

def table : String :=
  "properties"

def idColumn : Sql.Column PropertyRow := .text "id" id

def objectColumn : Sql.Column PropertyRow := .text "object_id" objectId

def objectTypeColumn : Sql.Column PropertyRow := .text "object_type" objectType

def fieldColumn : Sql.Column PropertyRow := .text "property_field_id" fieldId

def valueColumn : Sql.Column PropertyRow := .text "value" value

def channelColumn : Sql.Column PropertyRow := .text "channel_id" channelId

def teamColumn : Sql.Column PropertyRow := .text "team_id" teamId

def columns : List (Sql.Column PropertyRow) :=
  [idColumn, objectColumn, objectTypeColumn, fieldColumn, valueColumn, channelColumn, teamColumn]

def scope (r : PropertyRow) : Scope :=
  { channelId := r.channelId, teamId := r.teamId }

/-- The property of a row beside the row of its field. -/
def property? (r : PropertyRow) (f : FieldRow) : Option Property := do
  let fieldType ← Named.ofName? f.type
  let stored ← stored? Codec.texts r.value
  let objectType ← Named.ofName? r.objectType
  let fieldOptions ← stored? Codec.texts f.options
  some {
    id := r.id
    objectId := r.objectId
    objectType
    fieldId := r.fieldId
    fieldName := f.name
    fieldType
    fieldOptions
    value := .fromStored fieldType stored
    scope := r.scope }

end PropertyRow

namespace ViewRow

def table : String :=
  "views"

def idColumn : Sql.Column ViewRow := .text "id" id

def titleColumn : Sql.Column ViewRow := .text "title" title

def typeColumn : Sql.Column ViewRow := .text "view_type" type

def createdAtColumn : Sql.Column ViewRow := .int "create_at" createdAt

def queryColumn : Sql.Column ViewRow := .text "query" query

def layoutColumn : Sql.Column ViewRow := .text "format" layout

def columns : List (Sql.Column ViewRow) :=
  [idColumn, titleColumn, typeColumn, createdAtColumn, queryColumn, layoutColumn]

def view? (r : ViewRow) : Option View := do
  let type ← Named.ofName? r.type
  let query ← stored? Query.codec r.query
  let layout ← stored? Layout.codec r.layout
  some { id := r.id, title := r.title, type, createdAt := r.createdAt, query, layout }

end ViewRow

namespace MemberRow

def table : String :=
  "view_members"

def viewColumn : Sql.Column Member := .text "view_id" Member.viewId

def userColumn : Sql.Column Member := .text "user_id" Member.userId

def columns : List (Sql.Column Member) :=
  [viewColumn, userColumn]

end MemberRow

namespace ChannelRow

def table : String :=
  "channels"

def idColumn : Sql.Column ChannelRow := .text "id" id

def teamColumn : Sql.Column ChannelRow := .text "team_id" teamId

def nameColumn : Sql.Column ChannelRow := .text "name" name

def typeColumn : Sql.Column ChannelRow := .text "channel_type" type

def columns : List (Sql.Column ChannelRow) :=
  [idColumn, teamColumn, nameColumn, typeColumn]

def channel? (r : ChannelRow) : Option Channel := do
  let type ← Named.ofName? r.type
  some { id := r.id, teamId := r.teamId, name := r.name, type }

end ChannelRow

namespace RoleRow

def table : String :=
  "channel_members"

def channelColumn : Sql.Column RoleRow := .text "channel_id" channelId

def userColumn : Sql.Column RoleRow := .text "user_id" userId

def roleColumn : Sql.Column RoleRow := .text "role" role

end RoleRow

namespace PostRow

def table : String :=
  "posts"

def idColumn : Sql.Column Post := .text "id" Post.id

def channelColumn : Sql.Column Post := .text "channel_id" Post.channelId

def userColumn : Sql.Column Post := .text "user_id" Post.userId

def messageColumn : Sql.Column Post := .text "message" Post.message

def typeColumn : Sql.Column Post := .text "post_type" Post.type

def createdAtColumn : Sql.Column Post := .int "create_at" Post.createdAt

def columns : List (Sql.Column Post) :=
  [idColumn, channelColumn, userColumn, messageColumn, typeColumn, createdAtColumn]

end PostRow
end Store
end PropertyBoard
