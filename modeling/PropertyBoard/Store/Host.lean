import PropertyBoard.Store.Basic

/-!
# PropertyBoard.Store.Host

What the platform writes into its own tables, where the board only reads.

* `HostWrite`: posts, channels and roles come, posts and channels move and go.
* `HostWrite.on`: the store afterwards, with the number of rows written.
* `Store.removeView`: takes a view away with its members.
-/

namespace PropertyBoard

inductive HostWrite where
  | addChannel (row : Store.ChannelRow)
  | addRole (row : Store.RoleRow)
  | addPost (row : Post)
  | movePost (id channelId : String)
  | moveChannel (id teamId : String)
  | deletePost (id : String)
  | deleteChannel (id : String)
  deriving Repr, DecidableEq

namespace HostWrite

def added : Except StorageError Store → Except StorageError (Store × Nat)
  | .ok s => .ok (s, 1)
  | .error e => .error e

def on (w : HostWrite) (s : Store) : Except StorageError (Store × Nat) :=
  match w with
  | addChannel row => added (s.insertChannel row)
  | addRole row => added (s.insertRole row)
  | addPost row => added (s.insertPost row)
  | movePost id channelId =>
    .ok ({ s with posts := s.posts.map fun p => if p.id = id then { p with channelId } else p },
      s.posts.countP fun p => p.id = id)
  | moveChannel id teamId =>
    .ok ({ s with
        channels := s.channels.map fun c => if c.id = id then { c with teamId } else c },
      s.channels.countP fun c => c.id = id)
  | deletePost id =>
    .ok ({ s with posts := s.posts.filter fun p => p.id ≠ id },
      s.posts.countP fun p => p.id = id)
  | deleteChannel id =>
    .ok ({ s with channels := s.channels.filter fun c => c.id ≠ id },
      s.channels.countP fun c => c.id = id)

end HostWrite

namespace Store

def removeView (s : Store) (id : String) : Store × Nat :=
  (s.keepViews (s.views.filter fun v => v.id ≠ id), s.views.countP fun v => v.id = id)

end Store
end PropertyBoard
