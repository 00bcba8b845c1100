import PropertyBoard.Service.Platform

/-!
# PropertyBoard.Service.Access

Who may change what.

* `Access`: a change that is not refused was granted, or there is no rule for it.
* `Access.toProperty`: properties of a post are for the members of its channel, properties of a
  channel for its admins; there is no rule for conversations of a few.
* `Access.toField`, `Access.toValue`: no rule.
-/

namespace PropertyBoard

inductive Access where
  | granted
  | unchecked
  deriving Repr, DecidableEq

namespace Access

def name : Access → String
  | granted => "granted"
  | unchecked => "unchecked"

/-- What a user must be allowed to do in a channel to change its properties. -/
def channelPermission (type : ChannelType) : Except Refusal Permission :=
  match type with
  | .openChannel => .ok .managePublicProperties
  | .privateChannel => .ok .managePrivateProperties
  | .direct => .error .closedConversation
  | .group => .error .closedConversation

def permissionFor (type : ObjectType) (channel : Channel) : Except Refusal Permission :=
  match type with
  | .post => .ok .createPost
  | .channel => channelPermission channel.type

def toProperty (s : Store) (userId : String) (type : ObjectType) (objectId : String) :
    Except Refusal Access := do
  let channel ← Platform.channelOf s type objectId
  let permission ← permissionFor type channel
  if ← Channels.allows s userId channel.id permission then .ok granted
  else .error (.lacksPermission userId permission channel.id)

def toField (_userId : String) (_fieldId : Option String) : Access :=
  unchecked

def toValue (_userId : String) (_field : Field) (_value : Value) : Access :=
  unchecked

end Access
end PropertyBoard
