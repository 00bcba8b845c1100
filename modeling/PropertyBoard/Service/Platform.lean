import PropertyBoard.Board
import PropertyBoard.Property
import PropertyBoard.Statement.Platform

/-!
# PropertyBoard.Service.Platform

What the board asks of the platform.

* `Posts.get`, `Posts.getAll`, `Posts.timeline`: posts; `getAll` keeps the order of the identifiers
  and shows each known post once.
* `Channels.get`, `Channels.allows`: a channel, and what a user may do there.
* `Platform.scopeOf`: the channel and the team of an object.
-/

namespace PropertyBoard

open Store

namespace Posts

def find (s : Store) (id : String) : Except Refusal (Option Post) := do
  let context := "get post " ++ id
  let rows ← query context s.posts (Statement.Posts.byId id)
  readFirst context PostRow.table Post.id some rows

def get (s : Store) (id : String) : Except Refusal Post := do
  match ← find s id with
  | some p => .ok p
  | none => .error (.notFound .post id)

/-- The posts of the identifiers that are not taken yet, in the order of the identifiers. -/
def inOrder (posts : List Post) (taken : List String) : List String → List Post
  | [] => []
  | id :: ids =>
    if taken.contains id then inOrder posts taken ids
    else
      match posts.find? fun p => p.id = id with
      | some p => p :: inOrder posts (id :: taken) ids
      | none => inOrder posts taken ids

def getAll (s : Store) (ids : List String) : Except Refusal (List Post) :=
  if ids.isEmpty then .ok []
  else do
    let posts ← query "get posts by ids" s.posts (Statement.Posts.byIds ids)
    .ok (inOrder posts [] ids)

def timeline (s : Store) (channelId : String) (page : Page) : Except Refusal (List Post) :=
  query ("get posts for channel " ++ channelId) s.posts (Statement.Posts.timeline channelId page)

end Posts

namespace Channels

def find (s : Store) (id : String) : Except Refusal (Option Channel) := do
  let context := "get channel " ++ id
  let rows ← query context s.channels (Statement.Channels.byId id)
  readFirst context ChannelRow.table ChannelRow.id ChannelRow.channel? rows

def get (s : Store) (id : String) : Except Refusal Channel := do
  match ← find s id with
  | some c => .ok c
  | none => .error (.notFound .channel id)

def role? (s : Store) (channelId userId : String) : Except Refusal (Option String) := do
  let rows ← query ("get role of " ++ userId ++ " in channel " ++ channelId) s.roles
    (Statement.Channels.roleOf channelId userId)
  .ok (rows.head?.map RoleRow.role)

/-- A user who has no role in the channel may do nothing there. -/
def allows (s : Store) (userId channelId : String) (p : Permission) : Except Refusal Bool := do
  match ← role? s channelId userId with
  | some role => .ok (p.grantedTo role)
  | none => .ok false

end Channels

namespace Platform

/-- The channel that an object is in; a channel is in itself. -/
def channelOf (s : Store) (type : ObjectType) (objectId : String) : Except Refusal Channel :=
  match type with
  | .post => do
    let post ← Posts.get s objectId
    Channels.get s post.channelId
  | .channel => Channels.get s objectId

def scopeOf (s : Store) (type : ObjectType) (objectId : String) : Except Refusal Scope := do
  let channel ← channelOf s type objectId
  .ok { channelId := channel.id, teamId := channel.teamId }

end Platform
end PropertyBoard
