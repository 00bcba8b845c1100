import PropertyBoard.Named

/-!
# PropertyBoard.Platform

What belongs to the messaging platform: posts, channels and the permissions in a channel. The board
reads them and never writes them.

* `Post`: a post; the platform's own notices have a type that starts with `system_`.
* `ChannelType`, `Channel`: open, private, direct and group channels.
* `Permission`: what a member of a channel may be allowed to do.
-/

namespace PropertyBoard

structure Post where
  id : String
  channelId : String
  userId : String
  message : String
  type : String
  createdAt : Int64
  deriving Repr, DecidableEq

namespace Post

def systemMark : String :=
  "system_"

def isSystem (p : Post) : Bool :=
  systemMark.toList.isPrefixOf p.type.toList

def codec : Codec Post where
  shape := .record [
    ("id", .required, .text),
    ("channel_id", .required, .text),
    ("user_id", .required, .text),
    ("message", .required, .text),
    ("type", .defaulted, .text),
    ("create_at", .required, .int64)]
  encode p := .obj [
    ("id", .str p.id),
    ("channel_id", .str p.channelId),
    ("user_id", .str p.userId),
    ("message", .str p.message),
    ("type", .str p.type),
    ("create_at", Codec.int64.encode p.createdAt)]
  decode j := do
    let id ← Codec.text.required j "id"
    let channelId ← Codec.text.required j "channel_id"
    let userId ← Codec.text.required j "user_id"
    let message ← Codec.text.required j "message"
    let type ← Codec.text.defaulted j "type" ""
    let createdAt ← Codec.int64.required j "create_at"
    some { id, channelId, userId, message, type, createdAt }

end Post

inductive ChannelType where
  | openChannel
  | privateChannel
  | direct
  | group
  deriving Repr, DecidableEq, Inhabited

namespace ChannelType

def name : ChannelType → String
  | openChannel => "O"
  | privateChannel => "P"
  | direct => "D"
  | group => "G"

instance : Named ChannelType where
  all := [openChannel, privateChannel, direct, group]
  name := name
  noun := "channel type"

@[simp] theorem ofName?_name (t : ChannelType) : Named.ofName? t.name = some t := by
  cases t <;> decide

end ChannelType

structure Channel where
  id : String
  teamId : String
  name : String
  type : ChannelType
  deriving Repr, DecidableEq

namespace Channel

def codec : Codec Channel where
  shape := .record [
    ("id", .required, .text),
    ("team_id", .required, .text),
    ("name", .required, .text),
    ("type", .required, (Named.codec : Codec ChannelType).shape)]
  encode c := .obj [
    ("id", .str c.id),
    ("team_id", .str c.teamId),
    ("name", .str c.name),
    ("type", Named.codec.encode c.type)]
  decode j := do
    let id ← Codec.text.required j "id"
    let teamId ← Codec.text.required j "team_id"
    let name ← Codec.text.required j "name"
    let type ← Named.codec.required j "type"
    some { id, teamId, name, type }

end Channel

inductive Permission where
  | createPost
  | managePublicProperties
  | managePrivateProperties
  deriving Repr, DecidableEq

namespace Permission

def name : Permission → String
  | createPost => "create_post"
  | managePublicProperties => "manage_public_channel_properties"
  | managePrivateProperties => "manage_private_channel_properties"

/-- The role in a channel that may manage its properties. -/
def adminRole : String :=
  "admin"

/-- Whether a member with this role has the permission. -/
def grantedTo (p : Permission) (role : String) : Bool :=
  match p with
  | createPost => true
  | managePublicProperties => role = adminRole
  | managePrivateProperties => role = adminRole

end Permission
end PropertyBoard
