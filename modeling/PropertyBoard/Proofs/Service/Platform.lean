import PropertyBoard.Proofs.Call
import PropertyBoard.Proofs.Statement
import PropertyBoard.Proofs.Store
import PropertyBoard.Service.Platform

/-!
# PropertyBoard.Proofs.Service.Platform

What the platform answers, told by its tables.

* `Store.post?`, `Posts.find_eq_ok_some`: a post by its identifier.
* `Store.channelRow?`, `Channels.find_eq_ok_some`: a channel by its identifier.
* `Posts.get_of_none`, `Channels.get_of_none`: what is not there is not found.
* `Store.role?`, `Channels.allows_eq`: a user may do what the user's role in the channel is granted.
* `Platform.scopeOf_post`: the scope of a post is that of its channel.
-/

namespace PropertyBoard

open Store

variable {s : Store} {id : String}

namespace Store

def post? (s : Store) (id : String) : Option Post :=
  s.posts.find? fun p => p.id = id

theorem id_of_post? {p : Post} (h : s.post? id = some p) : p.id = id := by
  simpa using List.find?_some h

/-- Of these identifiers those of posts are left. -/
theorem map_id_filterMap_post? (ids : List String) :
    (ids.filterMap s.post?).map Post.id = ids.filter fun id => (s.post? id).isSome := by
  induction ids with
  | nil => rfl
  | cons id rest ih =>
    cases hp : s.post? id with
    | none => simp [hp, ih]
    | some p => simp [hp, ih, id_of_post? hp]

def channelRow? (s : Store) (id : String) : Option ChannelRow :=
  s.channels.find? fun r => r.id = id

/-- The role of a user in a channel. -/
def role? (s : Store) (channelId userId : String) : Option String :=
  (s.roles.find? fun m => m.channelId = channelId && m.userId = userId).map RoleRow.role

theorem ChannelRow.channel?_eq_some {r : ChannelRow} {c : Channel} :
    r.channel? = some c ↔
      ∃ type, Named.ofName? r.type = some type ∧
        c = { id := r.id, teamId := r.teamId, name := r.name, type } := by
  simp only [channel?, Option.bind_eq_bind, Option.bind_eq_some_iff, Option.some.injEq,
    eq_comm (b := c)]

end Store

namespace Posts

theorem find_eq_ok_some {p : Post} : find s id = .ok (some p) ↔ s.post? id = some p := by
  simp only [find, query, Statement.Posts.on_byId, Refusal.ofStorage, Except.bind_eq_ok,
    Except.ok.injEq, exists_eq_left', readFirst_eq_ok_some, List.head?_filter, Option.some.injEq,
    exists_eq_right, post?]

theorem get_eq_ok {p : Post} : get s id = .ok p ↔ find s id = .ok (some p) :=
  Except.found_eq_ok (fun _ => rfl) rfl

theorem get_of_none (hpost : s.post? id = none) : get s id = .error (.notFound .post id) := by
  refine Except.found_of_none rfl ?_
  simpa only [find, query, Statement.Posts.on_byId, Refusal.ofStorage, Except.bind_eq_ok,
    Except.ok.injEq, exists_eq_left', readFirst_eq_ok_none, List.head?_filter, post?] using hpost

end Posts

namespace Channels

theorem find_eq_ok_some {c : Channel} :
    find s id = .ok (some c) ↔
      ∃ r, (s.channels.find? fun r => r.id = id) = some r ∧ r.channel? = some c := by
  simp only [find, query, Statement.Channels.on_byId, Refusal.ofStorage, Except.bind_eq_ok,
    Except.ok.injEq, exists_eq_left', readFirst_eq_ok_some, List.head?_filter]

theorem get_eq_ok {c : Channel} : get s id = .ok c ↔ find s id = .ok (some c) :=
  Except.found_eq_ok (fun _ => rfl) rfl

theorem get_of_none (hchannel : s.channelRow? id = none) :
    get s id = .error (.notFound .channel id) := by
  refine Except.found_of_none rfl ?_
  simpa only [find, query, Statement.Channels.on_byId, Refusal.ofStorage, Except.bind_eq_ok,
    Except.ok.injEq, exists_eq_left', readFirst_eq_ok_none, List.head?_filter, channelRow?]
    using hchannel

theorem id_of_get {c : Channel} (h : get s id = .ok c) : c.id = id := by
  obtain ⟨r, hr, hread⟩ := find_eq_ok_some.1 (get_eq_ok.1 h)
  obtain ⟨_, _, rfl⟩ := ChannelRow.channel?_eq_some.1 hread
  simpa using List.find?_some hr

theorem role?_eq (s : Store) (channelId userId : String) :
    role? s channelId userId = .ok (s.role? channelId userId) := by
  have hon : (Statement.Channels.roleOf channelId userId).on s.roles =
      .ok (s.roles.filter fun m => m.channelId = channelId && m.userId = userId) := by
    rw [Sql.Select.on_of_unordered (Nat.zero_le _) (Nat.le_of_ble_eq_true rfl) rfl (fun _ => rfl)
      rfl rfl]
    simp [Statement.Channels.roleOf, RoleRow.channelColumn, RoleRow.userColumn]
  simp [role?, query, hon, Refusal.ofStorage, bind, Except.bind, Store.role?]

/-- What a user may do in a channel is what the role there is granted. -/
theorem allows_eq (s : Store) (userId channelId : String) (p : Permission) :
    allows s userId channelId p = .ok ((s.role? channelId userId).any p.grantedTo) := by
  unfold allows
  rw [role?_eq]
  cases s.role? channelId userId <;> rfl

end Channels

namespace Platform

theorem scopeOf_post {scope : Scope} :
    scopeOf s .post id = .ok scope ↔
      ∃ p channel, s.post? id = some p ∧ Channels.get s p.channelId = .ok channel ∧
        scope = { channelId := p.channelId, teamId := channel.teamId } := by
  simp only [scopeOf, channelOf, Except.bind_eq_ok, Posts.get_eq_ok, Posts.find_eq_ok_some,
    Except.ok.injEq]
  constructor
  · rintro ⟨channel, ⟨p, hp, hchannel⟩, rfl⟩
    exact ⟨p, channel, hp, hchannel, by rw [Channels.id_of_get hchannel]⟩
  · rintro ⟨p, channel, hp, hchannel, rfl⟩
    exact ⟨channel, ⟨p, hp, hchannel⟩, by rw [Channels.id_of_get hchannel]⟩

end Platform
end PropertyBoard
