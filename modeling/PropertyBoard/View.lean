import PropertyBoard.Property

/-!
# PropertyBoard.View

Saved views.

* `Query`: which objects a view shows. `includes` and `excludes` give texts for a field; no texts
  at all stand for the presence of the field and for its absence. A blank channel or team is none.
* `Layout`: how the objects are shown; stored with the view and not interpreted here.
* `View`: a named query with its layout.
* `Member`: a user who sees a view that not everybody sees.
-/

namespace PropertyBoard

inductive ViewType where
  | list
  | kanban
  deriving Repr, DecidableEq, Inhabited

namespace ViewType

def name : ViewType → String
  | list => "list"
  | kanban => "kanban"

instance : Named ViewType where
  all := [list, kanban]
  name := name
  noun := "view type"

@[simp] theorem ofName?_name (t : ViewType) : Named.ofName? t.name = some t := by
  cases t <;> decide

end ViewType

structure Query where
  includes : Dict (List String) := Dict.empty
  excludes : Dict (List String) := Dict.empty
  channelId : Option String := none
  teamId : Option String := none
  deriving Repr, DecidableEq, Inhabited

namespace Query

def channelScope (q : Query) : Option String :=
  q.channelId.bind Text.nonBlank?

def teamScope (q : Query) : Option String :=
  q.teamId.bind Text.nonBlank?

def hasCriteria (q : Query) : Bool :=
  !q.includes.isEmpty || !q.excludes.isEmpty

/-- Whether the timeline of a channel answers the query. -/
def isChannelOnly (q : Query) : Bool :=
  q.channelScope.isSome && !q.hasCriteria

/-- The fields that the query names, each once, in ascending order. -/
def fieldIds (q : Query) : List String :=
  (Dict.ofList ((q.includes.entries ++ q.excludes.entries).map fun e => (e.1, ()))).keys

def checkConstrained (q : Query) : Except Invalid Unit :=
  if q.hasCriteria || q.channelScope.isSome then .ok () else .error .unconstrainedQuery

def codec : Codec Query where
  shape := .record [
    ("includes", .defaulted, Codec.textLists.shape),
    ("excludes", .defaulted, Codec.textLists.shape),
    ("channel_id", .nullable, .text),
    ("team_id", .nullable, .text)]
  encode q := .obj (
    [("includes", Codec.textLists.encode q.includes),
      ("excludes", Codec.textLists.encode q.excludes)] ++
    Codec.text.encodeOptional "channel_id" q.channelId ++
    Codec.text.encodeOptional "team_id" q.teamId)
  decode j := do
    let includes ← Codec.textLists.defaulted j "includes" Dict.empty
    let excludes ← Codec.textLists.defaulted j "excludes" Dict.empty
    let channelId ← Codec.text.nullable j "channel_id"
    let teamId ← Codec.text.nullable j "team_id"
    some { includes, excludes, channelId, teamId }

end Query

inductive SortDirection where
  | asc
  | desc
  deriving Repr, DecidableEq, Inhabited

namespace SortDirection

def name : SortDirection → String
  | asc => "asc"
  | desc => "desc"

instance : Named SortDirection where
  all := [asc, desc]
  name := name
  noun := "direction"

end SortDirection

structure SortKey where
  fieldId : String
  direction : SortDirection
  deriving Repr, DecidableEq

namespace SortKey

def codec : Codec SortKey where
  shape := .record [
    ("field_id", .required, .text),
    ("direction", .defaulted, (Named.codec : Codec SortDirection).shape)]
  encode k := .obj [
    ("field_id", .str k.fieldId),
    ("direction", Named.codec.encode k.direction)]
  decode j := do
    let fieldId ← Codec.text.required j "field_id"
    let direction ← Named.codec.defaulted j "direction" SortDirection.asc
    some { fieldId, direction }

end SortKey

structure Layout where
  order : List SortKey := []
  groupBy : Option String := none
  hidden : Dict (List String) := Dict.empty
  root : ObjectType := .post
  deriving Repr, DecidableEq, Inhabited

namespace Layout

def codec : Codec Layout where
  shape := .record [
    ("order", .defaulted, (Codec.list SortKey.codec).shape),
    ("group_by_field_id", .nullable, .text),
    ("hidden_values", .defaulted, Codec.textLists.shape),
    ("root_object", .defaulted, (Named.codec : Codec ObjectType).shape)]
  encode l := .obj (
    [("order", (Codec.list SortKey.codec).encode l.order)] ++
    Codec.text.encodeOptional "group_by_field_id" l.groupBy ++
    [("hidden_values", Codec.textLists.encode l.hidden),
      ("root_object", Named.codec.encode l.root)])
  decode j := do
    let order ← (Codec.list SortKey.codec).defaulted j "order" []
    let groupBy ← Codec.text.nullable j "group_by_field_id"
    let hidden ← Codec.textLists.defaulted j "hidden_values" Dict.empty
    let root ← Named.codec.defaulted j "root_object" ObjectType.post
    some { order, groupBy, hidden, root }

end Layout

structure View where
  id : String
  title : String
  type : ViewType
  createdAt : Int64
  query : Query
  layout : Layout
  deriving Repr, DecidableEq

namespace View

def checkTitle (title : String) : Except Invalid String :=
  Text.required "title" title

def codec : Codec View where
  shape := .record [
    ("id", .required, .text),
    ("title", .required, .text),
    ("type", .required, (Named.codec : Codec ViewType).shape),
    ("create_at", .required, .int64),
    ("query", .required, Query.codec.shape),
    ("format", .defaulted, Layout.codec.shape)]
  encode v := .obj [
    ("id", .str v.id),
    ("title", .str v.title),
    ("type", Named.codec.encode v.type),
    ("create_at", Codec.int64.encode v.createdAt),
    ("query", Query.codec.encode v.query),
    ("format", Layout.codec.encode v.layout)]
  decode j := do
    let id ← Codec.text.required j "id"
    let title ← Codec.text.required j "title"
    let type ← Named.codec.required j "type"
    let createdAt ← Codec.int64.required j "create_at"
    let query ← Query.codec.required j "query"
    let layout ← Layout.codec.defaulted j "format" {}
    some { id, title, type, createdAt, query, layout }

end View

structure Member where
  viewId : String
  userId : String
  deriving Repr, DecidableEq

namespace Member

def codec : Codec Member where
  shape := .record [
    ("view_id", .required, .text),
    ("user_id", .required, .text)]
  encode m := .obj [
    ("view_id", .str m.viewId),
    ("user_id", .str m.userId)]
  decode j := do
    let viewId ← Codec.text.required j "view_id"
    let userId ← Codec.text.required j "user_id"
    some { viewId, userId }

end Member
end PropertyBoard
