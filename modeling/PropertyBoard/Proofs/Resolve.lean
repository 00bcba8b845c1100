import PropertyBoard.Proofs.Lookup
import PropertyBoard.Proofs.Posts
import PropertyBoard.Proofs.Query
import PropertyBoard.Proofs.QuerySize

/-!
# PropertyBoard.Proofs.Resolve

A page of a view, in every board that can come about.

* `Views.Shows`: a page answers these posts, none of them twice, and for each its properties. Once the
  posts are there, the page is if their properties can be read (`Views.answers_of_posts`), and always on
  a board that came about (`Views.shows_of_posts`).
* `Views.postsOf_channel`, `Views.postsOf_ids`: the two ways to the posts. A query of nothing but a
  channel is answered by the timeline of the channel; any other by the objects that it finds.
* `Views.resolve_exact`: so a view shows the page of its posts, unless its query is too much for one
  statement.
* `Objects.limitFault_of_texts`: a query of very many texts is too much. `Views.refused_anyEmpty`: its
  view is stored all the same.
-/

namespace PropertyBoard

open Store

namespace Views

variable {s : Store} {id : String} {page : Page}

/-! ## Properties of the posts -/

/-- The properties of these posts can be read. -/
def Legible (s : Store) (posts : List Post) : Prop :=
  ∀ p ∈ posts, ∃ held, Properties.ofObject s p.id = .ok held

theorem legible (hk : s.Keyed) (hw : s.Written) (posts : List Post) : Legible s posts := by
  intro p _
  obtain ⟨held, hheld, _⟩ := Properties.ofObject_listed hk hw p.id
  exact ⟨held, hheld⟩

theorem propertiesOf_of_legible {posts : List Post} (h : Legible s posts) :
    ∃ d, propertiesOf s posts = .ok d ∧
      (∀ id, id ∈ d.keys ↔ id ∈ posts.map Post.id) ∧
      ∀ id ps, (id, ps) ∈ d.entries → Properties.ofObject s id = .ok ps := by
  induction posts with
  | nil => exact ⟨Dict.empty, rfl, by simp [Dict.keys, Dict.empty], by simp [Dict.empty]⟩
  | cons p rest ih =>
    obtain ⟨⟨ps, hps⟩, hrest⟩ := List.forall_mem_cons.1 h
    obtain ⟨d, hd, hkeys, hentries⟩ := ih hrest
    refine ⟨d.insert p.id ps, ?_, ?_, ?_⟩
    · simp [propertiesOf, hps, hd, bind, Except.bind]
    · intro id
      rw [Dict.mem_keys_insert, hkeys, List.map_cons, List.mem_cons]
    · intro id qs hmem
      rcases Dict.mem_insertEntry hmem with heq | hmem
      · cases heq
        exact hps
      · exact hentries id qs hmem

/-- A page of a view answers these posts, each once, and for each of them its properties. -/
structure Shows (s : Store) (id : String) (page : Page) (posts : List Post) (r : Resolved) :
    Prop where
  answered : resolve s id page = .ok r
  shown : r.posts = posts
  once : (posts.map Post.id).Nodup
  keys : ∀ postId, postId ∈ r.properties.keys ↔ postId ∈ posts.map Post.id
  entries : ∀ postId ps, (postId, ps) ∈ r.properties.entries →
    Properties.ofObject s postId = .ok ps

theorem resolve_of_get {v : View} (hv : get s id = .ok v) :
    resolve s id page = (do
      let posts ← postsOf s v.query page
      let properties ← propertiesOf s posts
      .ok { posts, properties }) := by
  simp [resolve, hv, bind, Except.bind]

theorem answers_of_posts {v : View} (hv : get s id = .ok v) {posts : List Post}
    (hposts : postsOf s v.query page = .ok posts) (hlegible : Legible s posts) :
    ∃ d, resolve s id page = .ok { posts, properties := d } ∧
      (∀ id, id ∈ d.keys ↔ id ∈ posts.map Post.id) ∧
      ∀ id ps, (id, ps) ∈ d.entries → Properties.ofObject s id = .ok ps := by
  obtain ⟨d, hd, hproperties⟩ := propertiesOf_of_legible hlegible
  refine ⟨d, ?_, hproperties⟩
  simp [resolve_of_get hv, hposts, hd, bind, Except.bind]

theorem shows_of_posts (hk : s.Keyed) (hw : s.Written) {v : View} (hv : get s id = .ok v)
    {posts : List Post} (hposts : postsOf s v.query page = .ok posts)
    (hnodup : (posts.map Post.id).Nodup) : ∃ r, Shows s id page posts r := by
  obtain ⟨d, hanswer, hkeys, hentries⟩ := answers_of_posts hv hposts (legible hk hw posts)
  exact ⟨_, hanswer, rfl, hnodup, hkeys, hentries⟩

theorem refused_of_posts {v : View} (hv : get s id = .ok v) {e : Refusal}
    (hposts : postsOf s v.query page = .error e) : resolve s id page = .error e := by
  simp [resolve_of_get hv, hposts, bind, Except.bind]

/-! ## Posts of a channel -/

theorem postsOf_channel (hids : (s.posts.map Post.id).Nodup) {q : Query} {channelId : String}
    (hchannel : q.channelScope = some channelId) (hcriteria : q.hasCriteria = false)
    (page : Page) :
    ∃ all, s.IsTimeline channelId all ∧
      postsOf s q page = .ok ((Sql.Window.apply page.window all).filter fun p => !p.isSystem) := by
  obtain ⟨all, hall, htimeline⟩ := Posts.timeline_eq hids channelId page
  refine ⟨all, hall, ?_⟩
  simp [postsOf, hchannel, hcriteria, htimeline, bind, Except.bind]

/-- A part of the timeline holds no post twice. -/
theorem nodup_timeline (hids : (s.posts.map Post.id).Nodup) {channelId : String}
    {all posts : List Post} (hall : s.IsTimeline channelId all) (hsub : posts.Sublist all) :
    (posts.map Post.id).Nodup := by
  have hnodup : (all.map Post.id).Nodup := by
    rw [(hall.perm.map _).nodup_iff]
    exact hids.sublist (List.filter_sublist.map _)
  exact hnodup.sublist (hsub.map _)

theorem window_sublist {α : Type} (w : Window) (rows : List α) :
    (Sql.Window.apply w rows).Sublist rows :=
  (List.take_sublist _ _).trans (List.drop_sublist _ _)

/-! ## Posts that a query finds -/

/-- What a query shows of the objects that it finds, unless a limit stops it. -/
theorem runQuery_window {b : Board} (hb : b.Reachable) {q : Query} (h : q.hasCriteria = true)
    (type : Option ObjectType) (page : Page) :
    runQuery b.store q type page =
      match (Statement.Objects.select q type page).limitFault with
      | some e => .error (.storage e "query objects")
      | none => .ok (Sql.Window.apply page.window
          (((Statement.Objects.select q type page).found b.store.objects).map
            ObjectRow.objectId)) := by
  have hon := Sql.Select.on_of_window (q := Statement.Objects.select q type page)
    (w := page.window) rfl (Statement.Objects.fault_eq_none hb.keyed hb.written q type)
  rw [runQuery_of_criteria h, hon]
  cases (Statement.Objects.select q type page).limitFault with
  | some e => rfl
  | none =>
    rw [← Sql.Window.map_apply]
    rfl

/-- What a query shows, it finds: identifiers of objects that meet the conditions, each once. -/
theorem of_runQuery {q : Query} {type : Option ObjectType} {ids : List String}
    (h : runQuery s q type page = .ok ids) :
    ids.Nodup ∧ ∀ i ∈ ids, ∃ row ∈ s.objects,
      Sql.Condition.allHold (Statement.Objects.select q type page).conditions row = true ∧
        row.objectId = i := by
  cases hcriteria : q.hasCriteria with
  | false =>
    rw [runQuery_of_no_criteria hcriteria] at h
    cases h
  | true =>
    rw [runQuery_of_criteria hcriteria] at h
    obtain ⟨rows, hrows, rfl⟩ := Value.map_eq_ok.1 h
    have hsub := (Sql.Select.sublist_found_of_on (Refusal.ofStorage_eq_ok.1 hrows)).map
      ObjectRow.objectId
    obtain ⟨hascending, hmem⟩ := Sql.Select.found_ascending
      (q := Statement.Objects.select q type page) ObjectRow.objectId (fun _ => rfl) rfl rfl s.objects
    exact ⟨(hascending.imp fun hlt => String.ne_of_lt hlt).sublist hsub,
      fun i hi => (hmem i).1 (hsub.subset hi)⟩

theorem postsOf_found {q : Query} (hcriteria : q.hasCriteria = true) :
    postsOf s q page = (do
      let ids ← runQuery s q (some .post) page
      Posts.getAll s ids) := by
  unfold postsOf
  rw [hcriteria]
  cases q.channelScope <;> rfl

/-- A query that is too much for one statement has no page. -/
theorem refused_of_limit {b : Board} (hb : b.Reachable) {v : View} (hv : get b.store id = .ok v)
    (hcriteria : v.query.hasCriteria = true) {e : StorageError}
    (he : (Statement.Objects.select v.query (some .post) page).limitFault = some e) :
    resolve b.store id page = .error (.storage e "query objects") := by
  have hrun := runQuery_window hb hcriteria (some .post) page
  rw [he] at hrun
  refine refused_of_posts hv ?_
  simp [postsOf_found hcriteria, hrun, bind, Except.bind]

/-- The posts of the identifiers that are found, unless there are too many to ask for. -/
theorem postsOf_ids {q : Query} (hcriteria : q.hasCriteria = true) {ids : List String}
    (hids : runQuery s q (some .post) page = .ok ids) :
    postsOf s q page =
      if Sql.maxParams < ids.length then .error (.storage (.tooManyParams ids.length) "get posts by ids")
      else .ok (ids.filterMap s.post?) := by
  rw [postsOf_found hcriteria, hids, ← Posts.getAll_eq (of_runQuery hids).1]
  rfl

theorem refused_of_many {v : View} (hv : get s id = .ok v) (hcriteria : v.query.hasCriteria = true)
    {ids : List String} (hids : runQuery s v.query (some .post) page = .ok ids)
    (hmany : Sql.maxParams < ids.length) :
    resolve s id page = .error (.storage (.tooManyParams ids.length) "get posts by ids") := by
  refine refused_of_posts hv ?_
  rw [postsOf_ids hcriteria hids, if_pos hmany]

/-- No post comes twice if no identifier does. -/
theorem nodup_filterMap_post? {ids : List String} (h : ids.Nodup) :
    ((ids.filterMap s.post?).map Post.id).Nodup := by
  rw [map_id_filterMap_post?]
  exact h.filter _

theorem shows_of_found (hk : s.Keyed) (hw : s.Written) {v : View} (hv : get s id = .ok v)
    (hcriteria : v.query.hasCriteria = true) {ids : List String}
    (hids : runQuery s v.query (some .post) page = .ok ids) (hfew : ids.length ≤ Sql.maxParams) :
    ∃ r, Shows s id page (ids.filterMap s.post?) r := by
  refine shows_of_posts hk hw hv ?_ (nodup_filterMap_post? (of_runQuery hids).1)
  rw [postsOf_ids hcriteria hids, if_neg (Nat.not_lt.2 hfew)]

/-! ## The page of a view -/

theorem hasCriteria_of_constrained {q : Query} (hconstrained : q.checkConstrained = .ok ())
    (hchannelOnly : q.isChannelOnly = false) : q.hasCriteria = true := by
  unfold Query.checkConstrained at hconstrained
  unfold Query.isChannelOnly at hchannelOnly
  cases hcriteria : q.hasCriteria with
  | true => rfl
  | false => cases hchannel : q.channelScope <;> simp_all

/-- Each view can be read, and shows a page of posts, none of them twice, with their properties. A
view of nothing but a channel shows a window of the timeline of the channel, and of that window the
posts that are no notices. Any other view shows the posts of the identifiers that its query finds, as
far as they are there, unless the query or the page is too much for one statement. -/
theorem resolve_exact {b : Board} (hb : b.Reachable) {row : ViewRow} (hrow : row ∈ b.store.views)
    (page : Page) :
    ∃ v, row.view? = some v ∧ get b.store row.id = .ok v ∧
      (∀ channelId, v.query.channelScope = some channelId → v.query.hasCriteria = false →
        ∃ all posts r,
          b.store.IsTimeline channelId all ∧
          posts = ((all.drop (min (page.number.toInt.toNat * page.size.toInt.toNat)
            maxInt64.toNat)).take page.size.toInt.toNat).filter (fun p => !p.isSystem) ∧
          (all.length < 2 ^ 63 →
            posts = ((all.drop (page.number.toInt.toNat * page.size.toInt.toNat)).take
              page.size.toInt.toNat).filter fun p => !p.isSystem) ∧
          Shows b.store row.id page posts r) ∧
      (v.query.isChannelOnly = false →
        (∀ e, (Statement.Objects.select v.query (some .post) page).limitFault = some e →
          resolve b.store row.id page = .error (.storage e "query objects")) ∧
        ((Statement.Objects.select v.query (some .post) page).limitFault = none →
          ∃ ids, runQuery b.store v.query (some .post) page = .ok ids ∧
            (Sql.maxParams < ids.length →
              resolve b.store row.id page = .error (.storage (.tooManyParams ids.length) "get posts by ids")) ∧
            (ids.length ≤ Sql.maxParams →
              ∃ r, Shows b.store row.id page (ids.filterMap b.store.post?) r))) := by
  have hk := hb.keyed
  have hw := hb.written
  obtain ⟨v, hv, hconstrained⟩ := hb.sound_views row hrow
  have hget := get_of_row hk hrow hv
  refine ⟨v, hv, hget, ?_, ?_⟩
  · intro channelId hchannel hcriteria
    obtain ⟨all, hall, hposts⟩ := postsOf_channel hb.posts_nodup hchannel hcriteria page
    have hsub : ((Sql.Window.apply page.window all).filter fun p => !p.isSystem).Sublist all :=
      List.filter_sublist.trans (window_sublist _ _)
    obtain ⟨r, hr⟩ := shows_of_posts hk hw hget hposts (nodup_timeline hb.posts_nodup hall hsub)
    refine ⟨all, _, r, hall, ?_, ?_, hr⟩
    · rw [Sql.Window.apply_page]
    · intro hlength
      rw [Sql.Window.apply_page_exact page hlength]
  · intro hchannelOnly
    have hcriteria := hasCriteria_of_constrained hconstrained hchannelOnly
    refine ⟨fun e he => refused_of_limit hb hget hcriteria he, ?_⟩
    intro hlimit
    obtain ⟨ids, hids⟩ : ∃ ids, runQuery b.store v.query (some .post) page = .ok ids := by
      rw [runQuery_window hb hcriteria, hlimit]
      exact ⟨_, rfl⟩
    exact ⟨ids, hids, refused_of_many hget hcriteria hids,
      shows_of_found hk hw hget hcriteria hids⟩

/-- A view of the posts that still have an option after another one was removed, and a view of their
channel. -/
def stillDoneViews : List Action :=
  optionRemoved ++ [
    .call (.createView { title := "still done", query := stillDone }),
    .call (.createView { title := "town", query := { channelId := some "c" } })]

/-- Both views show the only post there is. -/
theorem stillDoneViews_show_post :
    (∃ r, Shows (Board.run { now := 0 } stillDoneViews).store (Identifier.nth 3) ⟨0, 10⟩
      [⟨"p", "c", "u", "", "", 0⟩] r) ∧
    ∃ r, Shows (Board.run { now := 0 } stillDoneViews).store (Identifier.nth 4) ⟨0, 10⟩
      [⟨"p", "c", "u", "", "", 0⟩] r := by
  have hb := Board.reachable_run 0 stillDoneViews
  obtain ⟨hviews, hposts, hrun⟩ :
      (Board.run { now := 0 } stillDoneViews).store.views.map
          (fun row => (row.id, row.view?.map View.query)) =
        [(Identifier.nth 3, some stillDone),
          (Identifier.nth 4, some { channelId := some "c" })] ∧
      (Board.run { now := 0 } stillDoneViews).store.posts = [⟨"p", "c", "u", "", "", 0⟩] ∧
      runQuery (Board.run { now := 0 } stillDoneViews).store stillDone (some .post) ⟨0, 10⟩ =
        .ok ["p"] := by
    decide +kernel
  have hrow : ∀ x ∈ (Board.run { now := 0 } stillDoneViews).store.views.map
      (fun row => (row.id, row.view?.map View.query)),
      ∃ row ∈ (Board.run { now := 0 } stillDoneViews).store.views,
        (row.id, row.view?.map View.query) = x := fun x hx => List.mem_map.1 hx
  rw [hviews] at hrow
  obtain ⟨⟨done, hdone, hdoneEq⟩, town, htown, htownEq⟩ :=
    List.forall_mem_cons.1 hrow |>.imp_right List.forall_mem_singleton.1
  constructor
  · obtain ⟨v, hv, _, _, hfound⟩ := resolve_exact hb hdone ⟨0, 10⟩
    rw [hv] at hdoneEq
    obtain ⟨hid, hquery⟩ := Prod.mk.inj hdoneEq
    rw [Option.some.inj hquery, hid] at hfound
    obtain ⟨ids, hids, _, hshown⟩ := (hfound (by decide)).2 (by decide +kernel)
    cases hids.symm.trans hrun
    have hfoundPosts : ["p"].filterMap (Board.run { now := 0 } stillDoneViews).store.post? =
        [⟨"p", "c", "u", "", "", 0⟩] := by
      simp [post?, hposts]
    rw [hfoundPosts] at hshown
    exact hshown (by decide)
  · obtain ⟨v, hv, _, htimeline, _⟩ := resolve_exact hb htown ⟨0, 10⟩
    rw [hv] at htownEq
    obtain ⟨hid, hquery⟩ := Prod.mk.inj htownEq
    rw [Option.some.inj hquery, hid] at htimeline
    obtain ⟨all, posts, r, hall, hwindow, _, hr⟩ := htimeline "c" (by decide) (by decide)
    have hperm := hall.perm
    rw [hposts] at hperm
    rw [List.perm_singleton.1 hperm] at hwindow
    have hshown : posts = [⟨"p", "c", "u", "", "", 0⟩] := hwindow.trans (by decide +kernel)
    exact ⟨r, hshown ▸ hr⟩

end Views

/-! ## Views that cannot be shown -/

namespace Statement
namespace Objects

open Sql

/-- A query that wants one of very many texts is too much for one statement. -/
theorem limitFault_of_texts {q : Query} {fieldId : String} {texts : List String}
    (h : (fieldId, texts) ∈ q.includes.entries) (hmany : maxParams < texts.length)
    (type : Option ObjectType) (page : Page) : ∃ e, (select q type page).limitFault = some e := by
  have hclause : (Clause.wanted fieldId texts).condition ∈ (select q type page).conditions := by
    refine List.mem_append_left _ (List.mem_append_left _ (List.mem_map_of_mem ?_))
    exact List.mem_append_left _ (List.mem_map_of_mem (f := fun e => Clause.wanted e.1 e.2) h)
  have hle : texts.length + 1 ≤ (select q type page).fragment.params.length := by
    rw [← length_params_wanted fieldId texts]
    exact Select.params_of_condition hclause
  exact Select.limitFault_of_params (by omega)

end Objects
end Statement

namespace Views

/-- A query for one of so many empty texts. -/
def anyEmpty (n : Nat) : Query where
  includes := { entries := [("f", List.replicate n "")] }

theorem encode_anyEmpty {n : Nat} (h : n ≤ 80000) (id : String) :
    ∃ text, encodeQuery id (anyEmpty n) = .ok text := by
  refine ⟨_, StoredJson.encode_eq_ok.2 ⟨?_, rfl⟩⟩
  have hmax : StoredJson.maxSize = 262144 := by decide
  have hsize : (Query.codec.encode (anyEmpty n)).text.utf8ByteSize ≤ 3 * n + 40 := by
    cases n with
    | zero => decide
    | succ n =>
      have hquote : String.utf8Len (Json.quote "f") = 3 := by decide
      have hnothing : String.utf8Len (Codec.textLists.encode Dict.empty).render = 2 := by decide
      have htexts : String.utf8Len (Codec.texts.encode (List.replicate (n + 1) "")).render =
          3 * (n + 1) + 1 :=
        Json.size_empty_texts n
      rw [Query.size_encode, anyEmpty, Query.size_single, hquote, htexts]
      change _ + String.utf8Len (Codec.textLists.encode Dict.empty).render + 0 + 0 + 25 ≤ _
      omega
  omega

/-- A view that is created is stored as it is answered. -/
theorem stored_of_create {r : ViewRequest} {v : View} {b b' : Board}
    (h : (create r).on b = (.ok v, b')) :
    ∃ row ∈ (b.after (.call (.createView r))).store.views, row.view? = some v := by
  have hafter : b.after (.call (.createView r)) = b' :=
    congrArg Prod.snd (ServiceCall.silent_eq_ok.2 ⟨v, h⟩)
  obtain ⟨_, queryText, layoutText, _, _, hquery, hlayout, _, rfl⟩ := create_eq_ok.1 h
  rw [hafter]
  exact ⟨_, List.mem_append_right _ List.mem_cons_self, view?_rowOf hquery hlayout⟩

theorem check_anyEmpty (n : Nat) :
    ViewRequest.check { title := "wide", query := anyEmpty n } =
      .ok { title := "wide", type := .list, query := anyEmpty n, layout := {} } := by
  have htitle : View.checkTitle "wide" = .ok "wide" := by decide +kernel
  have htype : ViewRequest.checkType "" = .ok .list := by decide +kernel
  have hconstrained : (anyEmpty n).checkConstrained = .ok () := by
    simp [Query.checkConstrained, Query.hasCriteria, anyEmpty, Dict.isEmpty]
  simp [ViewRequest.check, htitle, htype, hconstrained, Refusal.ofInvalid, bind, Except.bind]

/-- The view of such a query is stored, and cannot be shown if there are very many texts. -/
theorem refused_anyEmpty {n : Nat} (hmany : Sql.maxParams < n) (hfits : n ≤ 80000) {b : Board}
    (hb : b.Reachable) (hnew : b.store.hasView b.nextId = false) (page : Page) :
    ∃ row ∈ (b.after (.call (.createView { title := "wide", query := anyEmpty n }))).store.views,
      ∃ e, resolve (b.after (.call (.createView { title := "wide", query := anyEmpty n }))).store
        row.id page = .error (.storage e "query objects") := by
  obtain ⟨queryText, hquery⟩ := encode_anyEmpty hfits b.nextId
  have hlayout : encodeLayout b.nextId {} = .ok (Layout.codec.encode {}).text :=
    StoredJson.encode_eq_ok.2 ⟨by decide +kernel, rfl⟩
  obtain ⟨row, hrow, hv⟩ := stored_of_create (create_eq_ok.2
    ⟨_, queryText, _, check_anyEmpty n, rfl, hquery, hlayout, hnew, rfl⟩)
  have hafter := hb.after (.call (.createView { title := "wide", query := anyEmpty n }))
  have hmanyTexts : Sql.maxParams < (List.replicate n "").length := by
    rw [List.length_replicate]
    exact hmany
  obtain ⟨e, he⟩ := Statement.Objects.limitFault_of_texts (q := anyEmpty n)
    (List.mem_singleton.2 rfl) hmanyTexts (some .post) page
  exact ⟨row, hrow, e, refused_of_limit hafter (get_of_row hafter.keyed hrow hv) rfl he⟩

/-- A view of 32767 texts, on a board that was empty: it is stored, and no page of it can be had. -/
theorem wide_view_refused :
    ¬∀ b : Board, b.Reachable → ∀ row ∈ b.store.views, ∀ page, ∃ r,
      resolve b.store row.id page = .ok r := by
  intro hall
  have hempty := Board.reachable_run 0 []
  obtain ⟨row, hrow, e, he⟩ := refused_anyEmpty (n := 32767) (by decide) (by decide) hempty rfl ⟨0, 10⟩
  obtain ⟨r, hr⟩ := hall _ (hempty.after _) row hrow ⟨0, 10⟩
  cases he.symm.trans hr

end Views
end PropertyBoard
