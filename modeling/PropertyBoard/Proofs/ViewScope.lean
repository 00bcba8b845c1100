import PropertyBoard.Proofs.Resolve

/-!
# PropertyBoard.Proofs.ViewScope

Which channel and which team the posts of a view are in.

A query compares the scope of the properties, and the timeline comes from the platform. The two agree
where each property has the scope that the platform has for its object (`Store.ScopesCurrent`).

* `Views.scope_of_no_criteria`, `Views.scope_of_criteria`: the posts on each of the two ways.
* `Views.posts_in_scope`: so a view shows posts of its channel, and of its team where it asks for
  fields. A view of nothing but a channel does not look at the team (`Views.channel_view_in_other_team`).
-/

namespace PropertyBoard

open Store

/-- Each property has the scope that the platform has for its object now. -/
def Store.ScopesCurrent (s : Store) : Prop :=
  ∀ p ∈ s.properties, ∀ type : ObjectType, p.objectType = type.name →
    Platform.scopeOf s type p.objectId = .ok p.scope

namespace Views

variable {s : Store}

/-- Posts on the timeline of a channel are in that channel. -/
theorem scope_of_timeline {channelId : String} {page : Page} {posts : List Post}
    (h : Posts.timeline s channelId page = .ok posts) : ∀ p ∈ posts, p.channelId = channelId := by
  intro p hp
  have hfound := (Sql.Select.sublist_found_of_on (Refusal.ofStorage_eq_ok.1 h)).subset hp
  have hall := (Sql.Select.mem_found rfl).1 hfound
  simpa [Statement.Posts.timeline, PostRow.channelColumn] using hall.2

/-- The row of a post has the scope of the post: all its properties have it. -/
theorem scope_of_found (hs : s.ScopesCurrent) {row : ObjectRow} (hrow : row ∈ s.objects)
    (htype : row.objectType = ObjectType.post.name) {p : Post}
    (hp : s.post? row.objectId = some p) :
    p.channelId = row.channelId ∧
      ∃ channel, Channels.get s p.channelId = .ok channel ∧ channel.teamId = row.teamId := by
  obtain ⟨q, hq, rfl⟩ := mem_objects.1 hrow
  have hscope : ∀ r ∈ s.properties, r.objectKey = q.objectKey → r.scope = q.scope := by
    intro r hr hkey
    obtain ⟨hid, hkeyType⟩ := Prod.mk.inj hkey
    have hrScope := hs r hr .post (hkeyType.trans htype)
    rw [hid, hs q hq .post htype] at hrScope
    exact (Except.ok.inj hrScope).symm
  obtain ⟨hchannel, hteam⟩ := scope_objectRow_of_key hq hscope
  obtain ⟨p', channel, hp', hget, hqScope⟩ := Platform.scopeOf_post.1 (hs q hq .post htype)
  cases hp.symm.trans hp'
  rw [hchannel, hteam]
  exact ⟨(congrArg Scope.channelId hqScope).symm, channel, hget,
    (congrArg Scope.teamId hqScope).symm⟩

/-- What is found meets the scope of the query and is a post. -/
theorem scope_of_conditions {q : Query} {page : Page} {row : ObjectRow}
    (h : Sql.Condition.allHold (Statement.Objects.select q (some .post) page).conditions row =
      true) :
    row.objectType = ObjectType.post.name ∧
      (∀ c, q.channelScope = some c → row.channelId = c) ∧
      ∀ t, q.teamScope = some t → row.teamId = t := by
  simp only [Statement.Objects.select, Sql.Condition.allHold_append, Bool.and_eq_true] at h
  obtain ⟨⟨_, hscope⟩, htype⟩ := h
  obtain ⟨hchannel, hteam⟩ := (Statement.Objects.allHold_scope q row).1 hscope
  exact ⟨(Statement.Objects.allHold_type (some .post) row).1 htype .post rfl, hchannel, hteam⟩

/-- Posts that a query finds meet its scope. -/
theorem scope_of_criteria (hs : s.ScopesCurrent) {q : Query} (hcriteria : q.hasCriteria = true)
    {page : Page} {posts : List Post} (h : postsOf s q page = .ok posts) :
    ∀ p ∈ posts, (∀ c, q.channelScope = some c → p.channelId = c) ∧
      ∀ t, q.teamScope = some t →
        ∃ channel, Channels.get s p.channelId = .ok channel ∧ channel.teamId = t := by
  obtain ⟨ids, hids, _⟩ := Except.bind_eq_ok.1 ((postsOf_found hcriteria).symm.trans h)
  rw [postsOf_ids hcriteria hids] at h
  split at h
  · cases h
  · cases h
    intro p hp
    obtain ⟨i, hi, hpost⟩ := List.mem_filterMap.1 hp
    obtain ⟨row, hrow, hall, rfl⟩ := (of_runQuery hids).2 i hi
    obtain ⟨htype, hchannel, hteam⟩ := scope_of_conditions hall
    obtain ⟨hpChannel, channel, hget, hpTeam⟩ := scope_of_found hs hrow htype hpost
    exact ⟨fun c hc => hpChannel.trans (hchannel c hc),
      fun t ht => ⟨channel, hget, hpTeam.trans (hteam t ht)⟩⟩

/-- A query that asks for no field shows posts of its channel, and there is nothing without one. -/
theorem scope_of_no_criteria {q : Query} (hcriteria : q.hasCriteria = false) {page : Page}
    {posts : List Post} (h : postsOf s q page = .ok posts) :
    ∃ c, q.channelScope = some c ∧ ∀ p ∈ posts, p.channelId = c := by
  cases hchannel : q.channelScope with
  | none =>
    simp [postsOf, hchannel, hcriteria, runQuery_of_no_criteria hcriteria, bind, Except.bind] at h
  | some c =>
    simp only [postsOf, hchannel, hcriteria, Except.bind_eq_ok] at h
    obtain ⟨timeline, htimeline, h⟩ := h
    cases h
    exact ⟨c, rfl, fun p hp => scope_of_timeline htimeline p (List.mem_of_mem_filter hp)⟩

/-- Where each property has the scope of its object, a view with a channel shows posts of that
channel, and a view with a team that asks for fields shows posts of channels of that team. -/
theorem posts_in_scope (hs : s.ScopesCurrent) {id : String} {v : View} (hv : get s id = .ok v)
    {page : Page} {r : Resolved} (hr : resolve s id page = .ok r) {p : Post} (hp : p ∈ r.posts) :
    (∀ c, v.query.channelScope = some c → p.channelId = c) ∧
      (v.query.isChannelOnly = false → ∀ t, v.query.teamScope = some t →
        ∃ channel, Channels.get s p.channelId = .ok channel ∧ channel.teamId = t) := by
  rw [resolve_of_get hv] at hr
  simp only [Except.bind_eq_ok] at hr
  obtain ⟨posts, hposts, _, _, hr⟩ := hr
  cases hr
  cases hcriteria : v.query.hasCriteria with
  | true =>
    obtain ⟨hchannel, hteam⟩ := scope_of_criteria hs hcriteria hposts p hp
    exact ⟨hchannel, fun _ => hteam⟩
  | false =>
    obtain ⟨c, hc, hchannel⟩ := scope_of_no_criteria hcriteria hposts
    constructor
    · intro c' hc'
      cases hc.symm.trans hc'
      exact hchannel p hp
    · intro hchannelOnly
      simp [Query.isChannelOnly, hc, hcriteria] at hchannelOnly

/-- A view of the posts of a team that still have an option after another one was removed. -/
def stillDoneInTeam : List Action :=
  optionRemoved ++ [
    .call (.createView
      { title := "still done", query := { stillDone with teamId := some " t " } })]

theorem stillDoneInTeam_current : (Board.run { now := 0 } stillDoneInTeam).store.ScopesCurrent := by
  have hposts : ∀ p ∈ (Board.run { now := 0 } stillDoneInTeam).store.properties,
      p.objectType = ObjectType.post.name ∧
        Platform.scopeOf (Board.run { now := 0 } stillDoneInTeam).store .post p.objectId =
          .ok p.scope := by
    decide +kernel
  intro p hp type htype
  obtain ⟨hpost, hscope⟩ := hposts p hp
  have hsame : type = .post := by
    rw [hpost] at htype
    cases type with
    | post => rfl
    | channel => exact absurd htype (by decide)
  rw [hsame]
  exact hscope

/-- The view shows a post, which is in its channel and its team. -/
theorem stillDoneInTeam_in_scope :
    ∃ r, resolve (Board.run { now := 0 } stillDoneInTeam).store (Identifier.nth 3) ⟨0, 10⟩ = .ok r ∧
      r.posts.map Post.id = ["p"] ∧
      ∀ p ∈ r.posts, p.channelId = "c" ∧ ∃ channel,
        Channels.get (Board.run { now := 0 } stillDoneInTeam).store p.channelId = .ok channel ∧
          channel.teamId = "t" := by
  obtain ⟨hview, hresolved⟩ :
      (get (Board.run { now := 0 } stillDoneInTeam).store (Identifier.nth 3)).map
          (fun v => (v.query.isChannelOnly, v.query.channelScope, v.query.teamScope)) =
        .ok (false, some "c", some "t") ∧
      (resolve (Board.run { now := 0 } stillDoneInTeam).store (Identifier.nth 3) ⟨0, 10⟩).map
          (fun r => r.posts.map Post.id) = .ok ["p"] := by
    decide +kernel
  obtain ⟨v, hget, hquery⟩ := Value.map_eq_ok.1 hview
  obtain ⟨r, hr, hids⟩ := Value.map_eq_ok.1 hresolved
  simp only [Prod.mk.injEq] at hquery
  obtain ⟨hchannelOnly, hchannel, hteam⟩ := hquery
  refine ⟨r, hr, hids.symm, ?_⟩
  intro p hp
  obtain ⟨hpChannel, hpTeam⟩ := posts_in_scope stillDoneInTeam_current hget hr hp
  exact ⟨hpChannel "c" hchannel.symm, hpTeam hchannelOnly.symm "t" hteam.symm⟩

/-- A view of a channel and of a team that the channel does not belong to. -/
def otherTeam : List Action := [
  .host (.addChannel { id := "c", teamId := "t", name := "town", type := "O" }),
  .host (.addPost
    { id := "p", channelId := "c", userId := "u", message := "", type := "", createdAt := 0 }),
  .call (.createView
    { title := "other team", query := { channelId := some "c", teamId := some "other" } })]

/-- The view shows a post of the channel, whose team is not the one of the view. -/
theorem channel_view_in_other_team :
    (Board.run { now := 0 } otherTeam).store.ScopesCurrent ∧
      (get (Board.run { now := 0 } otherTeam).store (Identifier.nth 1)).map
        (fun v => v.query.teamScope) = .ok (some "other") ∧
      (resolve (Board.run { now := 0 } otherTeam).store (Identifier.nth 1) ⟨0, 10⟩).map
        (fun r => r.posts.map fun p => (p.id, p.channelId)) = .ok [("p", "c")] ∧
      (Channels.get (Board.run { now := 0 } otherTeam).store "c").map Channel.teamId = .ok "t" := by
  refine ⟨?_, by decide +kernel⟩
  have hnone : (Board.run { now := 0 } otherTeam).store.properties = [] := by decide +kernel
  intro p hp
  rw [hnone] at hp
  cases hp

end Views
end PropertyBoard
