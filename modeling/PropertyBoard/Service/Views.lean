import PropertyBoard.Service.Properties
import PropertyBoard.Statement.Objects
import PropertyBoard.Statement.Views

/-!
# PropertyBoard.Service.Views

Calls about views.

* `Views.get`, `Views.members`, `Views.visibleTo`: reading.
* `Views.create`, `Views.update`, `Views.addMember`: writing.
* `Views.runQuery`: a page of the objects that meet a query.
* `Views.resolve`: a page of the posts of a view, with their properties. A view of nothing but a
  channel shows the channel's timeline without notices; any other view shows what its query finds.
-/

namespace PropertyBoard
namespace Views

open Store

def find (s : Store) (id : String) : Except Refusal (Option View) := do
  let context := "get view " ++ id
  let rows ← query context s.views (Statement.Views.byId id)
  readFirst context ViewRow.table ViewRow.id ViewRow.view? rows

def get (s : Store) (id : String) : Except Refusal View := do
  match ← find s id with
  | some v => .ok v
  | none => .error (.notFound .view id)

def encodeQuery (id : String) (q : Query) : Except Refusal String :=
  StoredJson.encode "view query" id (Query.codec.encode q)

def encodeLayout (id : String) (l : Layout) : Except Refusal String :=
  StoredJson.encode "view format" id (Layout.codec.encode l)

def rowOf (v : View) (queryText layoutText : String) : ViewRow where
  id := v.id
  title := v.title
  type := v.type.name
  createdAt := v.createdAt
  query := queryText
  layout := layoutText

/-- Adds one view after the other. -/
def insertRows : List ViewRow → Change Unit
  | [] => pure ()
  | r :: rest => do
    Change.insert ("insert view " ++ r.id) insertView (Statement.Views.insert r)
    insertRows rest

def create (r : ViewRequest) : Call View := do
  let input ← Call.check r.check
  let id ← Call.drawId
  let now ← Call.now
  let v : View := {
    id
    title := input.title
    type := input.type
    createdAt := now
    query := input.query
    layout := input.layout }
  let queryText ← Call.check (encodeQuery id v.query)
  let layoutText ← Call.check (encodeLayout id v.layout)
  Call.make (insertRows [rowOf v queryText layoutText])
  pure v

def checkedTitle (p : ViewPatch) : Except Refusal (Option String) :=
  match p.title with
  | some title => (Refusal.ofInvalid (View.checkTitle title)).map some
  | none => .ok none

def checkQuery (p : ViewPatch) : Except Refusal Unit :=
  match p.query with
  | some q => Refusal.ofInvalid q.checkConstrained
  | none => .ok ()

def encodeOptional {α : Type} (encode : α → Except Refusal String) :
    Option α → Except Refusal (Option String)
  | some a => (encode a).map some
  | none => .ok none

/-- The checked parts of a patch, as they are stored. -/
def partsOf (id : String) (p : ViewPatch) : Except Refusal Statement.Views.Parts :=
  if p.isEmpty then .error (.invalid .emptyPatch)
  else do
    let title ← checkedTitle p
    checkQuery p
    let query ← encodeOptional (encodeQuery id) p.query
    let layout ← encodeOptional (encodeLayout id) p.layout
    .ok { title, query, layout }

def replace (id : String) (parts : Statement.Views.Parts) : Change View :=
  match Statement.Views.update? id parts with
  | none => Change.check (.error (.invalid .emptyPatch))
  | some q => do
    let n ← Change.updateViews q
    if n = 0 then Change.check (.error (.notFound .view id))
    else Change.look fun s => get s id

def update (id : String) (p : ViewPatch) : Call View := do
  let parts ← Call.check (partsOf id p)
  Call.make (replace id parts)

def join (m : Member) : Change Unit := do
  let _ ← Change.look fun s => get s m.viewId
  let held ← Change.look fun s =>
    .ok ((Statement.Members.countOf m.viewId m.userId).on s.members)
  if held > 0 then Change.check (.error (.alreadyMember m.userId m.viewId))
  else
    Change.insert ("insert member of view " ++ m.viewId) insertMember (Statement.Members.insert m)

def addMember (userId viewId : String) : Call Unit := do
  let userId ← Call.check (Refusal.ofInvalid (Text.required "user_id" userId))
  Call.make (join { viewId, userId })

def members (s : Store) (viewId : String) : Except Refusal (List String) := do
  let rows ← query ("list members of view " ++ viewId) s.members (Statement.Members.ofView viewId)
  .ok (rows.map Member.userId)

def visibleTo (s : Store) (userId : String) : Except Refusal (List View) := do
  let context := "get views for user " ++ userId
  let rows ← query context (Statement.Views.withMembers s) (Statement.Views.visibleTo userId)
  readRows context ViewRow.table (fun r : Statement.Views.WithMembers => r.1.id)
    (fun r => r.1.view?) rows []

/-- The identifiers of a page of the objects that meet a query. -/
def runQuery (s : Store) (q : Query) (type : Option ObjectType) (page : Page) :
    Except Refusal (List String) := do
  let statement ← Statement.Objects.compile q type page
  let rows ← query "query objects" s.objects statement
  .ok (rows.map ObjectRow.objectId)

/-- A page of a view: posts, and their properties by the identifier of the post. -/
structure Resolved where
  posts : List Post
  properties : Dict (List Property)
  deriving Repr, DecidableEq

namespace Resolved

def toJson (r : Resolved) : Json :=
  .obj [
    ("posts", (Codec.list Post.codec).encode r.posts),
    ("properties", .obj (r.properties.entries.map fun e =>
      (e.1, .arr (e.2.map Property.toJson))))]

end Resolved

def postsOf (s : Store) (q : Query) (page : Page) : Except Refusal (List Post) :=
  match q.channelScope, q.hasCriteria with
  | some channelId, false => do
    let posts ← Posts.timeline s channelId page
    .ok (posts.filter fun p => !p.isSystem)
  | _, _ => do
    let ids ← runQuery s q (some .post) page
    Posts.getAll s ids

def propertiesOf (s : Store) : List Post → Except Refusal (Dict (List Property))
  | [] => .ok Dict.empty
  | p :: rest => do
    let properties ← Properties.ofObject s p.id
    let others ← propertiesOf s rest
    .ok (others.insert p.id properties)

def resolve (s : Store) (id : String) (page : Page) : Except Refusal Resolved := do
  let v ← get s id
  let posts ← postsOf s v.query page
  let properties ← propertiesOf s posts
  .ok { posts, properties }

end Views
end PropertyBoard
