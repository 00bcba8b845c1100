import Mathlib.Data.List.Pairwise
import PropertyBoard.Proofs.Orderly
import PropertyBoard.Proofs.Resolve

/-!
# PropertyBoard.Proofs.Paging

Pages lose nothing and repeat nothing, whatever numbers they are asked for with.

* `Page.part`: the rows of a page, by exact numbers. A window shows them, although its offset is cut
  twice on the way (`Sql.Window.apply_page_exact`).
* `Store.IsListing`, `Store.IsAnswer`, `Store.IsTimeline`: all that there is to show, in order. One
  list at most is in strict order (`Sql.Select.found_eq_of_strict`).
* `Paged`: each page is its part of the whole, and the first pages together are the beginning of it.
* `pages_make_the_whole`: fields, objects and posts are paged, and so are the posts of a view of
  nothing but a channel, where notices are left out of each part and the properties of the others can be
  read (`Views.Legible`).
-/

namespace PropertyBoard

open Store

/-! ## Parts of a whole -/

/-- The rows of a page among all rows. Negative numbers count as zero. -/
def Page.part {α : Type} (p : Page) (rows : List α) : List α :=
  (rows.drop (max p.number.toInt 0 * max p.size.toInt 0).toNat).take (max p.size.toInt 0).toNat

/-- The pages of this size before the given number, one after the other. -/
def firstPages {α : Type} (read : Page → Except Refusal (List α)) (size : Int64) :
    Nat → Except Refusal (List α)
  | 0 => .ok []
  | n + 1 => do
    let before ← firstPages read size n
    let page ← read { number := .ofNat n, size }
    .ok (before ++ page)

/-- Each page shows what is kept of its part of the whole, and so do the first pages together. As
many pages as hold all rows show the whole. -/
structure Paged {α β : Type} (read : Page → Except Refusal (List β)) (keep : List α → List β)
    (whole : List α) : Prop where
  each : ∀ p, read p = .ok (keep (p.part whole))
  first : ∀ size : Int64, ∀ n ≤ 2 ^ 63,
    firstPages read size n = .ok (keep (whole.take (n * size.toInt.toNat)))
  all : ∀ size : Int64, ∀ n ≤ 2 ^ 63, whole.length ≤ n * size.toInt.toNat →
    firstPages read size n = .ok (keep whole)

theorem Page.part_eq {α : Type} (p : Page) (rows : List α) :
    p.part rows =
      (rows.drop (p.number.toInt.toNat * p.size.toInt.toNat)).take p.size.toInt.toNat := by
  have hnat (n : Int) : max n 0 = n.toNat := by omega
  rw [part, hnat, hnat, ← Int.natCast_mul, Int.toNat_natCast, Int.toNat_natCast]

theorem Sql.Window.apply_part {α : Type} (p : Page) {rows : List α} (h : rows.length < 2 ^ 63) :
    apply p.window rows = p.part rows := by
  rw [apply_page_exact p h, Page.part_eq]

/-- A page of the number `n` follows on the `n` pages before it. -/
theorem Page.take_append_part {α : Type} (rows : List α) (size : Int64) {n : Nat}
    (h : n < 2 ^ 63) :
    rows.take (n * size.toInt.toNat) ++ Page.part { number := .ofNat n, size } rows =
      rows.take ((n + 1) * size.toInt.toNat) := by
  rw [part_eq, Int64.toInt_ofNat_of_lt h, Int.toNat_natCast, Nat.succ_mul, List.take_add]

theorem Paged.of_each {α β : Type} {read : Page → Except Refusal (List β)}
    {keep : List α → List β} {whole : List α} (hnil : keep [] = [])
    (happend : ∀ xs ys, keep (xs ++ ys) = keep xs ++ keep ys)
    (heach : ∀ p, read p = .ok (keep (p.part whole))) : Paged read keep whole := by
  have hfirst : ∀ size : Int64, ∀ n ≤ 2 ^ 63,
      firstPages read size n = .ok (keep (whole.take (n * size.toInt.toNat))) := by
    intro size n
    induction n with
    | zero =>
      intro _
      rw [Nat.zero_mul, List.take_zero, hnil, firstPages]
    | succ n ih =>
      intro hn
      rw [firstPages, ih (by omega), heach, ← Page.take_append_part whole size (by omega), happend]
      rfl
  refine ⟨heach, hfirst, ?_⟩
  intro size n hn hlength
  rw [hfirst size n hn, List.take_of_length_le hlength]

/-! ## The order of a statement -/

namespace Sql

variable {ρ : Type}

/-- A row that two columns put after another one cannot stand before it. -/
theorem SortBy.le_eq_false {s t : SortBy ρ} {a b : ρ}
    (h : s.order a b = .lt ∨ s.order a b = .eq ∧ t.order a b = .lt) : le [s, t] b a = false := by
  rcases h with h | ⟨hs, ht⟩
  · simp [le, order_swap s b a, h]
  · simp [le, order_swap s b a, order_swap t b a, hs, ht]

/-- What a statement finds is the only list of its rows in which no row could stand before an earlier
one. -/
theorem Select.found_eq_of_strict {q : Select ρ} (hdistinct : q.distinct = none)
    {rows all : List ρ}
    (hperm : all.Perm (rows.filter fun r => Condition.allHold q.conditions r))
    (hstrict : all.Pairwise fun a b => SortBy.le q.order b a = false) : q.found rows = all := by
  have hsorted : (q.found rows).Pairwise fun a b => SortBy.le q.order a b = true := by
    simp only [found, hdistinct]
    exact SortBy.pairwise_sorted _ _
  have hinOrder : all.Pairwise fun a b => SortBy.le q.order a b = true := by
    refine hstrict.imp ?_
    intro a b hba
    simpa [hba] using SortBy.le_total q.order a b
  -- No two of the rows could stand before each other.
  let Apart (a b : ρ) : Prop :=
    SortBy.le q.order a b = true → SortBy.le q.order b a = true → a = b
  have hsymm : Std.Symm Apart := ⟨fun a b h hba hab => (h hab hba).symm⟩
  have hapart : ∀ a ∈ all, ∀ b ∈ all, Apart a b := by
    refine List.Pairwise.forall_of_forall (fun _ _ _ _ => rfl) (hstrict.imp ?_)
    intro a b hba _ hle
    rw [hba] at hle
    cases hle
  have hsame : (q.found rows).Perm all := (found_perm hdistinct rows).trans hperm.symm
  exact hsame.eq_of_pairwise (fun a b ha hb => hapart a (hsame.mem_iff.1 ha) b hb) hsorted hinOrder

end Sql

/-! ## Fields -/

/-- Whether a field is among those that a filter asks for. -/
def FieldFilter.admits (f : FieldFilter) (r : FieldRow) : Bool :=
  (match Text.nonBlank? f.teamId with
    | some teamId => r.teamId = teamId || !f.ownOnly && r.teamId = ""
    | none => true) &&
  match Statement.Fields.pattern? f with
  | some pattern => Sql.Like.isLike (Text.Lowercase.ascii r.name) pattern
  | none => true

theorem FieldFilter.admits_page (f : FieldFilter) (page : Page) :
    FieldFilter.admits { f with page } = f.admits := by
  funext r
  simp only [admits, Statement.Fields.pattern?]

theorem Statement.Fields.fault_page (f : FieldFilter) (page : Page) :
    fault { f with page } = fault f := by
  funext r
  simp only [fault, pattern?, teamConditions]
  rfl

/-- Fields are listed by name, and by identifier where the name is the same. -/
def Store.FieldRow.Before (a b : FieldRow) : Prop :=
  a.name < b.name ∨ a.name = b.name ∧ a.id < b.id

/-- All fields that a filter asks for, each as its row says, in order. -/
def Store.IsListing (s : Store) (f : FieldFilter) (fields : List Field) : Prop :=
  ∃ rows : List FieldRow, rows.Perm (s.fields.filter f.admits) ∧ rows.Pairwise FieldRow.Before ∧
    rows.map FieldRow.field? = fields.map some

namespace Fields

open Sql

variable {s : Store}

theorem allHold_list (f : FieldFilter) (r : FieldRow) :
    Condition.allHold (Statement.Fields.list f).conditions r = f.admits r := by
  simp only [Statement.Fields.list, Condition.allHold_append, FieldFilter.admits]
  refine congrArg₂ and ?_ ?_
  · unfold Statement.Fields.teamConditions
    cases Text.nonBlank? f.teamId with
    | none => rfl
    | some teamId =>
      cases h : f.ownOnly <;>
        simp [Statement.Fields.teamCondition, FieldRow.teamColumn]
  · unfold Statement.Fields.nameConditions
    cases Statement.Fields.pattern? f with
    | none => rfl
    | some pattern => simp

theorem before_iff {a b : FieldRow} :
    (SortBy.order { column := FieldRow.nameColumn } a b = .lt ∨
      SortBy.order { column := FieldRow.nameColumn } a b = .eq ∧
        SortBy.order { column := FieldRow.idColumn } a b = .lt) ↔ a.Before b := by
  show compare a.name b.name = .lt ∨ compare a.name b.name = .eq ∧ compare a.id b.id = .lt ↔ _
  rw [Select.compare_eq_lt, Select.compare_eq_lt, Std.LawfulEqCmp.compare_eq_iff_eq]
  rfl

theorem found_of_listing {f : FieldFilter} {rows : List FieldRow}
    (hperm : rows.Perm (s.fields.filter f.admits)) (horder : rows.Pairwise FieldRow.Before) :
    (Statement.Fields.list f).found s.fields = rows := by
  refine Select.found_eq_of_strict rfl ?_ (horder.imp fun h => SortBy.le_eq_false (before_iff.2 h))
  simpa only [allHold_list] using hperm

/-- A listing shows its page of the whole. -/
theorem list_eq {f : FieldFilter} {fields : List Field} (h : s.IsListing f fields)
    (hlength : fields.length < 2 ^ 63)
    (htest : ∀ r ∈ s.fields, Statement.Fields.fault f r = none) :
    list s f = .ok (f.page.part fields) := by
  obtain ⟨rows, hperm, horder, hreads⟩ := h
  have hrows : rows.length < 2 ^ 63 := by
    rwa [← List.length_map (f := FieldRow.field?), hreads, List.length_map]
  have hquiet : ∀ r ∈ s.fields, (Statement.Fields.list f).fault r = none := by
    simp only [Statement.Fields.list]
    exact htest
  have hon := Select.on_of_window (q := Statement.Fields.list f) rfl hquiet
  rw [limitFault_list, found_of_listing hperm horder, Window.apply_part f.page hrows] at hon
  have hpart : (f.page.part rows).map FieldRow.field? = (f.page.part fields).map some := by
    rw [Page.part, Page.part, List.map_take, List.map_drop, hreads, List.map_take, List.map_drop]
  rw [list, query, hon]
  exact readRows_eq_ok.2 ⟨_, hpart, rfl⟩

theorem list_paged {f : FieldFilter} {fields : List Field} (h : s.IsListing f fields)
    (hlength : fields.length < 2 ^ 63)
    (htest : ∀ r ∈ s.fields, Statement.Fields.fault f r = none) :
    Paged (fun page => list s { f with page }) id fields := by
  refine .of_each rfl (fun _ _ => rfl) ?_
  intro page
  have hpage : s.IsListing { f with page } fields := by
    rw [IsListing, FieldFilter.admits_page]
    exact h
  refine list_eq hpage hlength ?_
  rw [Statement.Fields.fault_page]
  exact htest

/-- In every board that can come about there is a whole to list. -/
theorem exists_listing {b : Board} (hb : b.Reachable) (f : FieldFilter) :
    ∃ fields, b.store.IsListing f fields := by
  have hfound : ∀ r ∈ (Statement.Fields.list f).found b.store.fields, ∃ field, r.field? = some field :=
    fun r hr => (hb.written.fields r ((Select.mem_found rfl).1 hr).1).reads
  obtain ⟨fields, hfields⟩ := exists_map_some hfound
  refine ⟨fields, _, ?_, ?_, hfields⟩
  · refine (Select.found_perm rfl b.store.fields).trans (.of_eq (List.filter_congr ?_))
    intro r _
    exact allHold_list f r
  · exact (Select.found_strict FieldRow.id (fun _ => rfl) rfl rfl hb.keyed.fields).imp before_iff.1

end Fields

/-! ## Objects -/

/-- The identifiers of all objects that a query finds, in order. A row is found if all conditions of
the query hold of it. -/
structure Store.IsAnswer (s : Store) (q : Query) (type : Option ObjectType) (ids : List String) :
    Prop where
  ascending : ids.Pairwise (· < ·)
  mem_iff : ∀ i, i ∈ ids ↔ ∃ row ∈ s.objects,
    Sql.Condition.allHold ((Statement.Objects.clauses q).map Statement.Objects.Clause.condition ++
      Statement.Objects.scopeConditions q ++ Statement.Objects.typeConditions type) row = true ∧
    row.objectId = i

/-- The limits of a statement are met by what is asked for, and not by the page. -/
theorem Statement.Objects.limitFault_page (q : Query) (type : Option ObjectType)
    (page page' : Page) :
    (select q type page).limitFault = (select q type page').limitFault := by
  have hparams : (select q type page).fragment.params.length =
      (select q type page').fragment.params.length := by
    rw [Sql.Select.params_fragment, Sql.Select.params_fragment]
    simp only [select, List.length_append, List.length_cons]
  unfold Sql.Select.limitFault
  rw [hparams]
  rfl

namespace Views

open Sql

variable {s : Store} {q : Query} {type : Option ObjectType} {ids : List String} {page₀ : Page}

theorem exists_answer (s : Store) (q : Query) (type : Option ObjectType) :
    ∃ ids, s.IsAnswer q type ids := by
  obtain ⟨hascending, hmem⟩ := Select.found_ascending
    (q := Statement.Objects.select q type (.first 0)) ObjectRow.objectId (fun _ => rfl) rfl rfl
    s.objects
  exact ⟨_, hascending, hmem⟩

theorem found_of_answer (h : s.IsAnswer q type ids) (page : Page) :
    ((Statement.Objects.select q type page).found s.objects).map ObjectRow.objectId = ids := by
  obtain ⟨hascending, hmem⟩ := Select.found_ascending
    (q := Statement.Objects.select q type page) ObjectRow.objectId (fun _ => rfl) rfl rfl s.objects
  refine Select.ascending_ext hascending h.ascending ?_
  intro i
  rw [hmem, h.mem_iff]
  rfl

theorem runQuery_paged (h : s.IsAnswer q type ids) (hlength : ids.length < 2 ^ 63)
    (hcriteria : q.hasCriteria = true)
    (hlimit : (Statement.Objects.select q type page₀).limitFault = none)
    (htest : ∀ row ∈ s.objects, Statement.Objects.fault q type row = none) :
    Paged (fun page => runQuery s q type page) id ids := by
  refine .of_each rfl (fun _ _ => rfl) ?_
  intro page
  have hon := Select.on_of_window (q := Statement.Objects.select q type page) rfl htest
  rw [Statement.Objects.limitFault_page q type page page₀, hlimit] at hon
  rw [runQuery_of_criteria hcriteria, hon]
  show Except.ok ((Window.apply page.window _).map ObjectRow.objectId) = _
  rw [Window.map_apply, found_of_answer h page, Window.apply_part page hlength]
  rfl

end Views

/-! ## Posts -/

namespace Posts

open Sql

variable {s : Store} {channelId : String} {posts : List Post}

theorem timeline_paged (h : s.IsTimeline channelId posts) (hlength : posts.length < 2 ^ 63) :
    Paged (fun page => timeline s channelId page) id posts := by
  have hfound (page : Page) : (Statement.Posts.timeline channelId page).found s.posts = posts := by
    refine Select.found_eq_of_strict rfl (h.perm.trans (.of_eq (List.filter_congr ?_)))
      (h.newestFirst.imp fun h => SortBy.le_eq_false (newerThan_iff.2 h))
    intro p _
    simp [Statement.Posts.timeline, PostRow.channelColumn]
  refine .of_each rfl (fun _ _ => rfl) ?_
  intro page
  rw [timeline, query, Select.on_of_window rfl fun _ _ => rfl, hfound, Window.apply_part page hlength]
  rfl

end Posts

namespace Views

open Sql

/-- A view of nothing but a channel leaves the notices out of each part of the timeline. -/
theorem resolve_paged {s : Store} {id : String} {v : View} (hv : get s id = .ok v)
    {channelId : String} (hchannel : v.query.channelScope = some channelId)
    (hcriteria : v.query.hasCriteria = false) {posts : List Post}
    (h : s.IsTimeline channelId posts) (hlength : posts.length < 2 ^ 63)
    (hlegible : Legible s (posts.filter fun p => !p.isSystem)) :
    Paged (fun page => (resolve s id page).map Resolved.posts)
      (List.filter fun p => !p.isSystem) posts := by
  refine .of_each rfl (fun xs ys => List.filter_append xs ys) ?_
  intro page
  have hpage := (Posts.timeline_paged h hlength).each page
  have hposts : postsOf s v.query page = .ok ((page.part posts).filter fun p => !p.isSystem) := by
    simp [postsOf, hchannel, hcriteria, hpage, bind, Except.bind]
  have hsub : ((page.part posts).filter fun p => !p.isSystem).Sublist
      (posts.filter fun p => !p.isSystem) :=
    ((List.take_sublist _ _).trans (List.drop_sublist _ _)).filter _
  obtain ⟨d, hanswer, _⟩ := answers_of_posts hv hposts fun p hp => hlegible p (hsub.subset hp)
  rw [hanswer, Except.map]

end Views

/-- For any numbers of a page, a read shows the rows of that page among all that there are. So pages
that show anything make up the whole, with nothing missing and nothing twice. In every board that can
come about there is a whole to show. -/
theorem pages_make_the_whole :
    (∀ s : Store,
      (∀ f fields, s.IsListing f fields → fields.length < 2 ^ 63 →
        (∀ r ∈ s.fields, Statement.Fields.fault f r = none) →
        Paged (fun page => Fields.list s { f with page }) id fields) ∧
      (∀ q type ids, s.IsAnswer q type ids → ids.length < 2 ^ 63 → q.hasCriteria = true →
        (∃ page, (Statement.Objects.select q type page).limitFault = none) →
        (∀ row ∈ s.objects, Statement.Objects.fault q type row = none) →
        Paged (fun page => Views.runQuery s q type page) id ids) ∧
      (∀ channelId posts, s.IsTimeline channelId posts → posts.length < 2 ^ 63 →
        Paged (fun page => Posts.timeline s channelId page) id posts) ∧
      ∀ viewId v channelId posts, Views.get s viewId = .ok v →
        v.query.channelScope = some channelId → v.query.hasCriteria = false →
        s.IsTimeline channelId posts → posts.length < 2 ^ 63 →
        Views.Legible s (posts.filter fun p => !p.isSystem) →
        Paged (fun page => (Views.resolve s viewId page).map Views.Resolved.posts)
          (List.filter fun p => !p.isSystem) posts) ∧
    ∀ b : Board, b.Reachable →
      (∀ f, ∃ fields, b.store.IsListing f fields) ∧
      (∀ q type, ∃ ids, b.store.IsAnswer q type ids ∧
        ∀ row ∈ b.store.objects, Statement.Objects.fault q type row = none) ∧
      (∀ channelId, ∃ posts, b.store.IsTimeline channelId posts) ∧
      ∀ row ∈ b.store.views, ∀ v channelId posts, row.view? = some v →
        v.query.channelScope = some channelId → v.query.hasCriteria = false →
        b.store.IsTimeline channelId posts → posts.length < 2 ^ 63 →
        Paged (fun page => (Views.resolve b.store row.id page).map Views.Resolved.posts)
          (List.filter fun p => !p.isSystem) posts := by
  refine ⟨fun s => ⟨?_, ?_, ?_, ?_⟩, fun b hb => ⟨?_, ?_, ?_, ?_⟩⟩
  · intro f fields h hlength htest
    exact Fields.list_paged h hlength htest
  · rintro q type ids h hlength hcriteria ⟨page, hlimit⟩ htest
    exact Views.runQuery_paged h hlength hcriteria hlimit htest
  · intro channelId posts h hlength
    exact Posts.timeline_paged h hlength
  · intro viewId v channelId posts hv hchannel hcriteria h hlength hlegible
    exact Views.resolve_paged hv hchannel hcriteria h hlength hlegible
  · exact Fields.exists_listing hb
  · intro q type
    obtain ⟨ids, hids⟩ := Views.exists_answer b.store q type
    exact ⟨ids, hids, Statement.Objects.fault_eq_none hb.keyed hb.written q type⟩
  · intro channelId
    obtain ⟨posts, hposts, _⟩ := Posts.timeline_eq hb.posts_nodup channelId (.first 0)
    exact ⟨posts, hposts⟩
  · intro row hrow v channelId posts hv hchannel hcriteria h hlength
    exact Views.resolve_paged (Views.get_of_row hb.keyed hrow hv) hchannel hcriteria h hlength
      (Views.legible hb.keyed hb.written _)

/-- A channel with two posts and a notice between them, a view of the channel, and two fields, one of
which the newest post has. -/
def town : List Action := [
  .host (.addChannel { id := "c", teamId := "t", name := "town", type := "O" }),
  .host (.addPost
    { id := "p", channelId := "c", userId := "u", message := "", type := "", createdAt := 1 }),
  .host (.addPost
    { id := "n", channelId := "c", userId := "u", message := "", type := "system_join"
      createdAt := 2 }),
  .host (.addPost
    { id := "q", channelId := "c", userId := "u", message := "", type := "", createdAt := 3 }),
  .call (.createField { name := "topic", type := "text" } "u"),
  .call (.createField { name := "owner", type := "user" } "u"),
  .call (.createProperty
    { objectId := "q", objectType := .post, fieldId := Identifier.nth 1, value := [.str "x"] }
    "u"),
  .call (.createView { title := "town", query := { channelId := some "c" } })]

theorem town_pages :
    (∃ fields, fields.length = 2 ∧
      Fields.list (Board.run { now := 0 } town).store { page := ⟨1, 1⟩ } =
        .ok (Page.part ⟨1, 1⟩ fields)) ∧
    Views.runQuery (Board.run { now := 0 } town).store
      { includes := .ofList [(Identifier.nth 1, [])] } none ⟨-5, 7⟩ = .ok ["q"] ∧
    firstPages (fun page => Posts.timeline (Board.run { now := 0 } town).store "c" page) 2 2 =
      .ok [⟨"q", "c", "u", "", "", 3⟩, ⟨"n", "c", "u", "", "system_join", 2⟩,
        ⟨"p", "c", "u", "", "", 1⟩] ∧
    firstPages (fun page => (Views.resolve (Board.run { now := 0 } town).store
        (Identifier.nth 4) page).map Views.Resolved.posts) 2 2 =
      .ok [⟨"q", "c", "u", "", "", 3⟩, ⟨"p", "c", "u", "", "", 1⟩] := by
  have hb := Board.reachable_run 0 town
  obtain ⟨hreads, hboards⟩ := pages_make_the_whole
  obtain ⟨hlist, hquery, htimeline, _⟩ := hreads (Board.run { now := 0 } town).store
  obtain ⟨hlistings, hanswers, _, hviews⟩ := hboards _ hb
  have hposts : (Board.run { now := 0 } town).store.IsTimeline "c"
      [⟨"q", "c", "u", "", "", 3⟩, ⟨"n", "c", "u", "", "system_join", 2⟩,
        ⟨"p", "c", "u", "", "", 1⟩] := by
    refine ⟨by decide +kernel, ?_⟩
    simp [Post.NewerThan]
  refine ⟨?_, ?_, ?_, ?_⟩
  · obtain ⟨fields, hfields⟩ := hlistings { page := .first 0 }
    have hlength : fields.length = 2 := by
      obtain ⟨rows, hperm, _, hrows⟩ := hfields
      rw [← List.length_map (f := some), ← hrows, List.length_map, hperm.length_eq]
      decide +kernel
    have hpages := hlist _ fields hfields (by omega) (fun _ _ => rfl)
    exact ⟨fields, hlength, hpages.each ⟨1, 1⟩⟩
  · obtain ⟨ids, hids, hfault⟩ := hanswers { includes := .ofList [(Identifier.nth 1, [])] } none
    obtain rfl : ids = ["q"] := by
      rw [← Views.found_of_answer hids (.first 0)]
      decide +kernel
    exact (hquery _ _ _ hids (by decide) (by decide +kernel) ⟨.first 0, by decide +kernel⟩ hfault).each
      ⟨-5, 7⟩
  · exact (htimeline "c" _ hposts (by decide)).all 2 2 (by decide) (by decide)
  · have hrow : ∃ row ∈ (Board.run { now := 0 } town).store.views, row.id = Identifier.nth 4 ∧
        row.view?.map View.query = some { channelId := some "c" } := by
      decide +kernel
    obtain ⟨row, hrow, hid, hquery⟩ := hrow
    obtain ⟨v, hv, hscope⟩ := Option.map_eq_some_iff.1 hquery
    have hpages := hviews row hrow v "c" _ hv (by rw [hscope]; decide) (by rw [hscope]; decide)
      hposts (by decide)
    rw [hid] at hpages
    exact (hpages.all 2 2 (by decide) (by decide)).trans (by decide +kernel)

end PropertyBoard
