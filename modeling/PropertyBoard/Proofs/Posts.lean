import PropertyBoard.Proofs.Keys
import PropertyBoard.Proofs.Service.Platform
import PropertyBoard.Proofs.Sql.Params
import PropertyBoard.Proofs.Value

/-!
# PropertyBoard.Proofs.Posts

The posts of the platform, as the board reads them.

* `Board.Reachable.posts_nodup`: no identifier is that of two posts, whatever the platform writes.
* `Posts.timeline_eq`: a page of a channel is a window of the posts of the channel, newest first
  (`Store.IsTimeline`).
* `Posts.getAll_eq_distinct`: posts that are asked for by their identifiers come in the order in which
  these first come, and those that are not there are passed over. There may not be more identifiers
  than a statement may carry values. `Posts.getAll_eq`: where no identifier comes again, none is left
  out.
-/

namespace PropertyBoard

open Store

/-! ## Identifiers -/

theorem HostWrite.Writes.posts_nodup {w : HostWrite} {s s' : Store}
    (h : (s.posts.map Post.id).Nodup) (hw : Writes s w s') : (s'.posts.map Post.id).Nodup := by
  cases hw with
  | addPost hnew =>
    refine nodup_map_append h ?_
    rw [List.mem_map]
    rintro ⟨p, hp, hid⟩
    exact hnew p hp hid
  | @movePost id channelId =>
    have hids : (s.posts.map fun p => if p.id = id then { p with channelId } else p).map Post.id =
        s.posts.map Post.id := by
      rw [List.map_map]
      refine List.map_congr_left ?_
      intro p _
      by_cases hp : p.id = id <;> simp [hp]
    rw [hids]
    exact h
  | deletePost => exact h.sublist (List.filter_sublist.map _)
  | _ => exact h

/-- Calls leave the tables of the platform alone. -/
theorem ServiceCall.Writes.same_platform {b : Board} {c : ServiceCall} {s' : Store}
    (h : ServiceCall.Writes b c s') :
    s'.channels = b.store.channels ∧ s'.roles = b.store.roles ∧ s'.posts = b.store.posts := by
  cases h <;> exact ⟨rfl, rfl, rfl⟩

theorem Board.same_platform {b : Board} (hb : b.Reachable) (c : ServiceCall) :
    (b.after (.call c)).store.channels = b.store.channels ∧
      (b.after (.call c)).store.roles = b.store.roles ∧
      (b.after (.call c)).store.posts = b.store.posts := by
  have hatomic := c.atomic_run b
  show (c.run.on b).2.store.channels = _ ∧ (c.run.on b).2.store.roles = _ ∧
    (c.run.on b).2.store.posts = _
  rcases hc : c.run.on b with ⟨e | _, b'⟩
  · rw [hc] at hatomic
    rw [hatomic e rfl]
    exact ⟨rfl, rfl, rfl⟩
  · exact (ServiceCall.writes_of_ok hb.keyed.properties hc).same_platform

/-- So only what the platform does counts. -/
theorem Board.Reachable.posts_nodup {b : Board} (h : b.Reachable) :
    (b.store.posts.map Post.id).Nodup := by
  refine h.induct (P := fun b => (b.store.posts.map Post.id).Nodup) (by simp) ?_
  intro b a hb hnodup
  cases a with
  | call c =>
    rw [(Board.same_platform hb c).2.2]
    exact hnodup
  | host w =>
    rw [Board.after]
    rcases hw : w.on b.store with e | ⟨s', n⟩
    · exact hnodup
    · exact (HostWrite.writes_of_ok hw).posts_nodup hnodup
  | setClock now => exact hnodup

/-! ## Channels -/

/-- Posts are shown by their time, the newest first, and by their identifiers where the time is the
same. -/
def Post.NewerThan (a b : Post) : Prop :=
  b.createdAt < a.createdAt ∨ a.createdAt = b.createdAt ∧ b.id < a.id

/-- The posts of a channel, each once, newest first. -/
structure Store.IsTimeline (s : Store) (channelId : String) (posts : List Post) : Prop where
  perm : posts.Perm (s.posts.filter fun p => p.channelId = channelId)
  newestFirst : posts.Pairwise Post.NewerThan

namespace Posts

open Sql

variable {s : Store}

/-- The order of the statement for a timeline. -/
theorem newerThan_iff {a b : Post} :
    (SortBy.order { column := PostRow.createdAtColumn, descending := true } a b = .lt ∨
      SortBy.order { column := PostRow.createdAtColumn, descending := true } a b = .eq ∧
        SortBy.order { column := PostRow.idColumn, descending := true } a b = .lt) ↔
      a.NewerThan b := by
  -- Both columns descend, so each comparison is the other way round.
  show (compare a.createdAt b.createdAt).swap = .lt ∨
    (compare a.createdAt b.createdAt).swap = .eq ∧ (compare a.id b.id).swap = .lt ↔ _
  rw [← Std.OrientedCmp.eq_swap, ← Std.OrientedCmp.eq_swap, Select.compare_int64_eq_lt,
    Select.compare_eq_lt, Std.LawfulEqCmp.compare_eq_iff_eq, eq_comm (a := b.createdAt)]
  rfl

theorem timeline_eq (hids : (s.posts.map Post.id).Nodup) (channelId : String) (page : Page) :
    ∃ posts, s.IsTimeline channelId posts ∧
      timeline s channelId page = .ok (Window.apply page.window posts) := by
  refine ⟨(Statement.Posts.timeline channelId page).found s.posts, ⟨?_, ?_⟩, ?_⟩
  · refine (Select.found_perm rfl s.posts).trans (.of_eq (List.filter_congr ?_))
    intro p _
    simp [Statement.Posts.timeline, PostRow.channelColumn]
  · exact (Select.found_strict Post.id (fun _ => rfl) rfl rfl hids).imp newerThan_iff.1
  · rw [timeline, query, Select.on_of_window rfl fun _ _ => rfl]
    rfl

/-! ## Posts by their identifiers -/

/-- The walk shows what there is for each identifier where it first comes. -/
theorem inOrder_eq (posts : List Post) {taken seen : List String} (ids : List String)
    (h : ∀ id p, posts.find? (fun p => p.id = id) = some p → (id ∈ taken ↔ id ∈ seen)) :
    inOrder posts taken ids =
      (Value.distinctFrom seen ids).filterMap fun id => posts.find? fun p => p.id = id := by
  -- An identifier that is not known is seen, but never taken.
  induction ids generalizing taken seen with
  | nil => rfl
  | cons id rest ih =>
    simp only [inOrder, Value.distinctFrom, List.contains_iff_mem]
    cases hp : posts.find? fun p => p.id = id with
    | none =>
      simp only [ite_self]
      split
      · exact ih h
      · rw [List.filterMap_cons, hp]
        refine ih fun other q hq => ?_
        have hne : other ≠ id := by
          rintro rfl
          cases hp.symm.trans hq
        rw [List.mem_cons, or_iff_right hne, h other q hq]
    | some p =>
      by_cases hid : id ∈ taken
      · rw [if_pos hid, if_pos ((h id p hp).1 hid), ih h]
      · rw [if_neg hid, if_neg (mt (h id p hp).2 hid), List.filterMap_cons, hp]
        refine congrArg (p :: ·) (ih fun other q hq => ?_)
        rw [List.mem_cons, List.mem_cons, h other q hq]

/-- The posts of the identifiers as they stand, unless there are too many identifiers. -/
theorem on_byIds (ids : List String) (posts : List Post) :
    (Statement.Posts.byIds ids).on posts =
      if maxParams < ids.length then .error (.tooManyParams ids.length)
      else .ok (posts.filter fun p => p.id ∈ ids) := by
  -- Where there are no identifiers, the two values are those of a comparison that never holds.
  have hparams : (Statement.Posts.byIds ids).fragment.params.length =
      if ids = [] then 2 else ids.length := by
    by_cases hids : ids = []
    · subst hids
      rfl
    · have hvalues : (Comparison.isIn PostRow.idColumn (ids.map .text)).fragment.params =
          ids.map .text := Comparison.params_isIn _ (by simpa using hids)
      simp [Select.params_fragment, Statement.Posts.byIds, Condition.fragment, hvalues, hids]
  split
  · rename_i hmany
    have hsome : ids ≠ [] := List.ne_nil_of_length_pos (Nat.zero_lt_of_lt hmany)
    have hlimit : (Statement.Posts.byIds ids).limitFault = some (.tooManyParams ids.length) := by
      have hflat : ¬maxConditionDepth < (Statement.Posts.byIds ids).depth := Nat.not_lt_zero _
      rw [Select.limitFault, hparams, if_neg hsome, if_neg hflat, if_pos hmany]
    rw [Select.on, hlimit]
  · rename_i hfew
    have hfits : (Statement.Posts.byIds ids).fragment.params.length ≤ maxParams := by
      rw [hparams]
      split
      · decide
      · exact Nat.not_lt.1 hfew
    rw [Select.on_of_unordered (Nat.zero_le _) hfits rfl (fun _ => rfl) rfl rfl]
    have hmember (p : Post) : (Condition.isIn PostRow.idColumn (ids.map .text)).holds p =
        ids.contains p.id := Comparison.holds_isIn rfl ids
    simp [Statement.Posts.byIds, hmember]

/-- Among the posts that were found, one of these identifiers is the one of the store. -/
theorem inOrder_found (ids : List String) :
    inOrder (s.posts.filter fun p => p.id ∈ ids) [] ids =
      (Value.distinct ids).filterMap s.post? := by
  rw [inOrder_eq _ ids fun _ _ _ => Iff.rfl]
  refine List.filterMap_congr fun id hid => ?_
  rw [List.find?_filter, post?]
  congr 1
  funext p
  by_cases hp : p.id = id <;> simp [hp, Value.mem_distinct.1 hid]

/-- The posts of the identifiers, each where its identifier first comes, unless there are too many
identifiers. -/
theorem getAll_eq_distinct (ids : List String) :
    getAll s ids =
      if maxParams < ids.length then .error (.storage (.tooManyParams ids.length) "get posts by ids")
      else .ok ((Value.distinct ids).filterMap s.post?) := by
  unfold getAll
  by_cases hids : ids = []
  · subst hids
    rfl
  · rw [if_neg (by simpa using hids), query, on_byIds ids]
    split
    · rfl
    · exact congrArg Except.ok (inOrder_found ids)

theorem getAll_eq {ids : List String} (h : ids.Nodup) :
    getAll s ids =
      if maxParams < ids.length then .error (.storage (.tooManyParams ids.length) "get posts by ids")
      else .ok (ids.filterMap s.post?) := by
  rw [getAll_eq_distinct, Value.distinct_eq_self h]

end Posts
end PropertyBoard
