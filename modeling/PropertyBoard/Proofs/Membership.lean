import Mathlib.Data.List.Induction
import PropertyBoard.Proofs.Lookup

/-!
# PropertyBoard.Proofs.Membership

Who sees a view, told by what happened in a run.

* `Board.Met`: whether a run came to an action of some kind, before its last action or with it
  (`Board.met_concat`).
* `Board.Creates`, `Board.Joins`: calls that succeed in creating a view, and in making a user a member
  of a view. Nothing else adds views or members, and nothing takes them away
  (`ServiceCall.Writes.views_cases`, `ServiceCall.Writes.members_cases`), so the tables tell what a
  run came to (`Board.hasView_run`, `Board.mem_members_run`).
* `Views.visibleTo_exact`: the views that a user sees. `Views.addMember_of_blank` and its siblings:
  what adding a member answers, and `Board.Reachable.addMember_ok_iff`: when it succeeds, in every board
  that can come about.
* `Board.views_over_run`: both of these, told by what happened in a run.
-/

namespace PropertyBoard

open Store

/-- Views are listed by their time, and by their identifiers where the time is the same. -/
def View.OlderThan (a b : View) : Prop :=
  a.createdAt < b.createdAt ∨ a.createdAt = b.createdAt ∧ a.id < b.id

/-! ## What a call does to views and their members -/

namespace ServiceCall
namespace Writes

variable {b : Board} {c : ServiceCall} {s' : Store}

/-- Views stay, and only their creation adds one. -/
theorem views_cases (h : Writes b c s') :
    s'.views.map ViewRow.id = b.store.views.map ViewRow.id ∨
      ∃ r v, c = .createView r ∧ ((Views.create r).on b).1 = .ok v ∧
        s'.views.map ViewRow.id = b.store.views.map ViewRow.id ++ [v.id] := by
  cases h with
  | @createView r input v queryText layoutText hinput hv hquery hlayout hnew =>
    have hcreate := Views.create_eq_ok.2
      ⟨input, queryText, layoutText, hinput, hv, hquery, hlayout, hnew, rfl⟩
    refine .inr ⟨r, v, rfl, by rw [hcreate], ?_⟩
    rw [List.map_append]
    rfl
  | updateView _ hq _ => exact .inl (viewIds_updated hq _)
  | _ => exact .inl rfl

/-- Members stay, and only a call for it adds one. -/
theorem members_cases (h : Writes b c s') :
    s'.members = b.store.members ∨
      ∃ w viewId, c = .addMember w viewId ∧ ((Views.addMember w viewId).on b).1 = .ok () ∧
        s'.members = b.store.members ++ [{ viewId, userId := Text.trim w }] := by
  cases h with
  | @addMember w user viewId v huser hview hnew =>
    have hadd := Views.addMember_eq_ok.2 ⟨user, v, huser, hview, hnew, rfl⟩
    refine .inr ⟨w, viewId, rfl, by rw [hadd], ?_⟩
    rw [(Text.required_eq_ok.1 huser).1]
  | _ => exact .inl rfl

end Writes
end ServiceCall

/-! ## What a run came to -/

namespace Board

/-- Whether a run came to an action like that. -/
def Met (P : Board → Action → Prop) (b : Board) (actions : List Action) : Prop :=
  ∃ before a after, actions = before ++ a :: after ∧ P (b.run before) a

/-- A call that succeeds in creating a view. -/
def Creates (viewId : String) (b : Board) (a : Action) : Prop :=
  ∃ r v, a = .call (.createView r) ∧ ((Views.create r).on b).1 = .ok v ∧ v.id = viewId

/-- A call that succeeds in making a user a member of a view. -/
def Joins (viewId user : String) (b : Board) (a : Action) : Prop :=
  ∃ w, a = .call (.addMember w viewId) ∧ ((Views.addMember w viewId).on b).1 = .ok () ∧
    Text.trim w = user

variable {P : Board → Action → Prop} {b : Board} {a : Action} {actions : List Action}

theorem not_met_nil : ¬Met P b [] := by
  rintro ⟨before, a, after, h, _⟩
  simp at h

theorem met_concat : Met P b (actions ++ [a]) ↔ Met P b actions ∨ P (b.run actions) a := by
  constructor
  · rintro ⟨before, a', after, h, hP⟩
    rcases List.eq_nil_or_concat after with rfl | ⟨init, last, rfl⟩
    · obtain ⟨rfl, hlast⟩ := List.append_inj' h rfl
      cases hlast
      exact .inr hP
    · rw [List.concat_eq_append, ← List.cons_append, ← List.append_assoc] at h
      obtain ⟨rfl, _⟩ := List.append_inj' h rfl
      exact .inl ⟨before, a', init, rfl, hP⟩
  · rintro (⟨before, a', after, rfl, hP⟩ | hP)
    · exact ⟨before, a', after ++ [a], by simp, hP⟩
    · exact ⟨actions, a, [], rfl, hP⟩

/-- What an action leaves as it is, or changes as a call that succeeds does. -/
theorem after_writes (hb : b.Reachable) (a : Action) :
    ((b.after a).store.views = b.store.views ∧ (b.after a).store.members = b.store.members) ∨
      ∃ c, a = .call c ∧ ServiceCall.Writes b c (b.after a).store := by
  rcases b.after_cases a with ⟨_, _, hviews, hmembers⟩ | ⟨c, rfl, hok⟩
  · exact .inl ⟨hviews, hmembers⟩
  · exact .inr ⟨c, rfl, ServiceCall.writes_of_ok hb.keyed.properties hok⟩

/-- What is in a list that has grown. -/
theorem mem_of_grown {κ : Type} {old new : List κ} {P : κ → Prop}
    (h : new = old ∨ ∃ k, P k ∧ new = old ++ [k]) (hnew : ∀ k, P k → k ∈ new) {k : κ} :
    k ∈ new ↔ k ∈ old ∨ P k := by
  constructor
  · intro hk
    rcases h with rfl | ⟨k', hk', rfl⟩
    · exact .inl hk
    · refine (List.mem_append.1 hk).imp_right ?_
      intro hlast
      exact List.mem_singleton.1 hlast ▸ hk'
  · rintro (hk | hk)
    · rcases h with rfl | ⟨k', _, rfl⟩
      · exact hk
      · exact List.mem_append_left _ hk
    · exact hnew k hk

theorem hasView_after (hb : b.Reachable) (a : Action) (id : String) :
    (b.after a).store.hasView id = true ↔ b.store.hasView id = true ∨ b.Creates id a := by
  rw [hasView_iff_mem, hasView_iff_mem]
  refine mem_of_grown (P := fun id => b.Creates id a) ?_ ?_
  · rcases after_writes hb a with ⟨hviews, _⟩ | ⟨c, rfl, hw⟩
    · exact .inl (hviews ▸ rfl)
    · refine hw.views_cases.imp_right ?_
      rintro ⟨r, v, rfl, hok, hadded⟩
      exact ⟨v.id, ⟨r, v, rfl, hok, rfl⟩, hadded⟩
  · rintro _ ⟨r, v, rfl, hok, rfl⟩
    have hon : (Views.create r).on b = (.ok v, b.after (.call (.createView r))) :=
      Prod.ext hok (after_silent rfl b).symm
    obtain ⟨_, _, _, _, _, _, _, _, hb'⟩ := Views.create_eq_ok.1 hon
    rw [hb', List.map_append]
    exact List.mem_append_right _ (List.mem_singleton_self v.id)

theorem mem_members_after (hb : b.Reachable) (a : Action) (m : Member) :
    m ∈ (b.after a).store.members ↔ m ∈ b.store.members ∨ b.Joins m.viewId m.userId a := by
  refine mem_of_grown (P := fun m : Member => b.Joins m.viewId m.userId a) ?_ ?_
  · rcases after_writes hb a with ⟨_, hmembers⟩ | ⟨c, rfl, hw⟩
    · exact .inl hmembers
    · refine hw.members_cases.imp_right ?_
      rintro ⟨w, viewId, rfl, hok, hadded⟩
      exact ⟨{ viewId, userId := Text.trim w }, ⟨w, rfl, hok, rfl⟩, hadded⟩
  · rintro m ⟨w, rfl, hok, htrim⟩
    have hon : (Views.addMember w m.viewId).on b =
        (.ok (), b.after (.call (.addMember w m.viewId))) := Prod.ext hok rfl
    obtain ⟨user, _, huser, _, _, hb'⟩ := Views.addMember_eq_ok.1 hon
    have hm : m = { viewId := m.viewId, userId := user } := by
      rw [(Text.required_eq_ok.1 huser).1, htrim]
    rw [hb']
    exact List.mem_append_right _ (List.mem_singleton.2 hm)

/-- The views that there are, are those that a run came to create. -/
theorem hasView_run (source : Identifier.Source) (now : Int64) (actions : List Action) (id : String) :
    (run { now, source } actions).store.hasView id = true ↔ Met (Creates id) { now, source } actions := by
  induction actions using List.reverseRecOn with
  | nil => simp [not_met_nil, hasView]
  | append_singleton actions a ih =>
    rw [run_append, run_cons, run_nil, hasView_after (reachable_run now actions source), ih, met_concat]

/-- The members that there are, are those whom a run came to add. -/
theorem mem_members_run (source : Identifier.Source) (now : Int64) (actions : List Action)
    (m : Member) :
    m ∈ (run { now, source } actions).store.members ↔
      Met (Joins m.viewId m.userId) { now, source } actions := by
  induction actions using List.reverseRecOn with
  | nil => simp [not_met_nil]
  | append_singleton actions a ih =>
    rw [run_append, run_cons, run_nil, mem_members_after (reachable_run now actions source), ih,
      met_concat]

end Board

/-! ## Views that a user sees -/

namespace Statement

open Sql

/-- Who sees a view: everybody if it has no members, and else its members. -/
def Views.IsSeen (r : Views.WithMembers) (u : String) : Prop :=
  (∀ w, { viewId := r.1.id, userId := w } ∉ r.2) ∨ { viewId := r.1.id, userId := u } ∈ r.2

theorem Views.holds_isOfView (r : Views.WithMembers) (m : Member) :
    Views.isOfView.holds (r, m) = decide (m.viewId = r.1.id) :=
  Cell.equals_text m.viewId r.1.id

theorem Views.rows_members (r : Views.WithMembers) :
    Views.members.rows r = r.2.map fun m => some m := rfl

theorem Views.holds_listsAnybody {r : Views.WithMembers} :
    Views.listsAnybody.holds r = true ↔ ∃ w, { viewId := r.1.id, userId := w } ∈ r.2 := by
  rw [Views.listsAnybody, Condition.holds_hasRow (Views.rows_members r)]
  simp only [Comparison.allHold, List.all_cons, List.all_nil, Bool.and_true, Views.holds_isOfView,
    decide_eq_true_eq]
  constructor
  · rintro ⟨⟨viewId, w⟩, hw, rfl⟩
    exact ⟨w, hw⟩
  · rintro ⟨w, hw⟩
    exact ⟨_, hw, rfl⟩

theorem Views.holds_listsUser {u : String} {r : Views.WithMembers} :
    (Views.listsUser u).holds r = true ↔ { viewId := r.1.id, userId := u } ∈ r.2 := by
  have huser (m : Member) : (Comparison.equals (Views.ofMember MemberRow.userColumn)
      (.text u)).holds (r, m) = decide (m.userId = u) := Cell.equals_text m.userId u
  rw [Views.listsUser, Condition.holds_hasRow (Views.rows_members r)]
  simp only [Comparison.allHold, List.all_cons, List.all_nil, Bool.and_true, Views.holds_isOfView,
    huser, Bool.and_eq_true, decide_eq_true_eq]
  constructor
  · rintro ⟨⟨viewId, w⟩, hw, rfl, rfl⟩
    exact hw
  · intro hw
    exact ⟨_, hw, rfl, rfl⟩

theorem Views.allHold_visibleTo (u : String) (r : Views.WithMembers) :
    Condition.allHold (Views.visibleTo u).conditions r = true ↔ Views.IsSeen r u := by
  have hanybody : (Condition.not Views.listsAnybody).holds r = true ↔
      ∀ w, { viewId := r.1.id, userId := w } ∉ r.2 := by
    show (!Views.listsAnybody.holds r) = true ↔ _
    rw [Bool.not_eq_true', ← Bool.not_eq_true, Views.holds_listsAnybody, not_exists]
  show ((_ || _) && true) = true ↔ _
  rw [Bool.and_true, Bool.or_eq_true, Views.holds_listsUser, hanybody, Views.IsSeen, or_comm]

/-- The views that a user sees, beside all members and in order. -/
theorem Views.on_visibleTo (u : String) {rows : List Views.WithMembers}
    (hids : (rows.map fun r => r.1.id).Nodup) :
    ∃ found, (Views.visibleTo u).on rows = .ok found ∧
      (∀ r, r ∈ found ↔ r ∈ rows ∧ Views.IsSeen r u) ∧
      found.Pairwise fun a b =>
        a.1.createdAt < b.1.createdAt ∨ a.1.createdAt = b.1.createdAt ∧ a.1.id < b.1.id := by
  refine ⟨(Views.visibleTo u).found rows,
    Select.on_of_open (Nat.zero_le _) (Nat.le_of_ble_eq_true rfl) rfl (fun _ => rfl), ?_, ?_⟩
  · intro r
    rw [Select.mem_found rfl, allHold_visibleTo]
  · refine (Select.found_strict (fun r => r.1.id) (fun _ => rfl) rfl rfl hids).imp ?_
    intro a b h
    have h' : compare a.1.createdAt b.1.createdAt = .lt ∨
        compare a.1.createdAt b.1.createdAt = .eq ∧ compare a.1.id b.1.id = .lt := h
    rwa [Select.compare_int64_eq_lt, Std.LawfulEqCmp.compare_eq_iff_eq, Select.compare_eq_lt] at h'

theorem Views.mem_withMembers {s : Store} {row : ViewRow} {members : List Member} :
    (row, members) ∈ Views.withMembers s ↔ row ∈ s.views ∧ members = s.members := by
  rw [Views.withMembers, List.mem_map]
  constructor
  · rintro ⟨_, hrow, heq⟩
    cases heq
    exact ⟨hrow, rfl⟩
  · rintro ⟨hrow, rfl⟩
    exact ⟨row, hrow, rfl⟩

end Statement

namespace Views

variable {s : Store}

/-- A user sees the views that have no members, and those of which the user is a member; each of them
once, and older ones first. -/
theorem visibleTo_exact (hk : s.Keyed) (hsound : ∀ r ∈ s.views, r.Sound) (u : String) :
    ∃ vs, visibleTo s u = .ok vs ∧ vs.Pairwise View.OlderThan ∧
      ∀ v, v ∈ vs ↔ get s v.id = .ok v ∧
        ((∀ w, { viewId := v.id, userId := w } ∉ s.members) ∨
          { viewId := v.id, userId := u } ∈ s.members) := by
  have hids : ((Statement.Views.withMembers s).map fun r => r.1.id).Nodup := by
    rw [Statement.Views.withMembers, List.map_map]
    exact hk.views
  obtain ⟨rows, hrows, hmem, hsorted⟩ := Statement.Views.on_visibleTo u hids
  have hreads : ∀ r ∈ rows, ∃ v, r.1.view? = some v := by
    rintro ⟨row, members⟩ hr
    obtain ⟨v, hv, _⟩ := hsound row (Statement.Views.mem_withMembers.1 ((hmem _).1 hr).1).1
    exact ⟨v, hv⟩
  obtain ⟨vs, hvs, hmap⟩ := readRows_of_reads ("get views for user " ++ u) ViewRow.table
    (fun r => r.1.id) hreads
  refine ⟨vs, ?_, ?_, ?_⟩
  · rw [visibleTo, query, hrows]
    exact hvs
  · refine pairwise_of_reads hmap hsorted ?_
    intro r r' v v' hlt hv hv'
    obtain ⟨_, _, _, _, _, _, rfl⟩ := ViewRow.view?_eq_some.1 hv
    obtain ⟨_, _, _, _, _, _, rfl⟩ := ViewRow.view?_eq_some.1 hv'
    exact hlt
  · intro v
    rw [mem_iff_of_reads hmap]
    constructor
    · rintro ⟨⟨row, members⟩, hr, hv⟩
      obtain ⟨hbeside, hseen⟩ := (hmem _).1 hr
      obtain ⟨hrow, rfl⟩ := Statement.Views.mem_withMembers.1 hbeside
      obtain ⟨_, _, _, _, _, _, rfl⟩ := ViewRow.view?_eq_some.1 hv
      exact ⟨get_of_row hk hrow hv, hseen⟩
    · rintro ⟨hget, hseen⟩
      obtain ⟨row, hrow, hid, hv⟩ := row_of_get hget
      refine ⟨(row, _), (hmem _).2 ⟨Statement.Views.mem_withMembers.2 ⟨hrow, rfl⟩, ?_⟩, hv⟩
      rw [Statement.Views.IsSeen, hid]
      exact hseen

/-! ## Adding a member -/

variable {b : Board} {w viewId : String}

theorem addMember_of_blank (hblank : Text.trim w = "") :
    ((addMember w viewId).on b).1 = .error (.invalid (.missing "user_id")) := by
  have hrequired : Text.required "user_id" w = .error (.missing "user_id") := by
    simp [Text.required, Text.nonBlank?, hblank]
  unfold addMember
  rw [hrequired]
  rfl

/-- Where a user is named, the view and its members decide. -/
theorem addMember_of_named (hnamed : Text.trim w ≠ "") :
    (addMember w viewId).on b =
      (Call.make (join { viewId, userId := Text.trim w })).on b := by
  have hrequired : Text.required "user_id" w = .ok (Text.trim w) :=
    Text.required_eq_ok.2 ⟨rfl, hnamed⟩
  unfold addMember
  rw [hrequired]
  rfl

theorem addMember_of_missing (hnamed : Text.trim w ≠ "") (hview : find b.store viewId = .ok none) :
    ((addMember w viewId).on b).1 = .error (.notFound .view viewId) := by
  have hjoin : join { viewId, userId := Text.trim w } b.store =
      .error (.notFound .view viewId) := by
    have hlook : Change.look (fun s => get s viewId) b.store = .error (.notFound .view viewId) := by
      rw [Change.look, get_of_missing hview]
      rfl
    exact Change.bind_of_error hlook
  rw [addMember_of_named hnamed, Call.on, Call.make_of_error hjoin]

theorem addMember_of_member (hnamed : Text.trim w ≠ "") {v : View}
    (hview : find b.store viewId = .ok (some v))
    (hmember : { viewId, userId := Text.trim w } ∈ b.store.members) :
    ((addMember w viewId).on b).1 = .error (.alreadyMember (Text.trim w) viewId) := by
  have hheld : (Statement.Members.countOf viewId (Text.trim w)).on b.store.members > 0 := by
    rw [Statement.Members.on_countOf, gt_iff_lt, List.countP_pos_iff]
    exact ⟨_, hmember, by simp⟩
  have hjoin : join { viewId, userId := Text.trim w } b.store =
      .error (.alreadyMember (Text.trim w) viewId) := by
    refine (Change.bind_of_ok (Change.look_eq_ok.2 ⟨get_eq_ok.2 hview, rfl⟩)).trans ?_
    have hcount : Change.look (fun s => .ok
        ((Statement.Members.countOf viewId (Text.trim w)).on s.members)) b.store =
          .ok ((Statement.Members.countOf viewId (Text.trim w)).on b.store.members, b.store) := rfl
    refine (Change.bind_of_ok hcount).trans ?_
    rw [if_pos hheld]
    rfl
  rw [addMember_of_named hnamed, Call.on, Call.make_of_error hjoin]

theorem addMember_of_new (hnamed : Text.trim w ≠ "") {v : View}
    (hview : find b.store viewId = .ok (some v))
    (hmember : { viewId, userId := Text.trim w } ∉ b.store.members) :
    ((addMember w viewId).on b).1 = .ok () := by
  have hadd := addMember_eq_ok.2
    ⟨Text.trim w, v, Text.required_eq_ok.2 ⟨rfl, hnamed⟩, hview, hmember, rfl⟩
  rw [hadd]

end Views

namespace Board
namespace Reachable

variable {b : Board} {w id : String}

theorem hasView_iff_get (hb : b.Reachable) :
    b.store.hasView id = true ↔ ∃ v, Views.get b.store id = .ok v := by
  rcases Views.get_cases hb.sound_views id with ⟨hview, hv⟩ | ⟨hview, hv⟩
  · exact iff_of_true hview hv
  · simp [hview, hv]

theorem addMember_without_view (hb : b.Reachable) (hnamed : Text.trim w ≠ "")
    (hview : ¬b.store.hasView id = true) :
    ((Views.addMember w id).on b).1 = .error (.notFound .view id) := by
  rcases Views.find_cases hb.sound_views id with ⟨hthere, _⟩ | ⟨_, hnone⟩
  · exact absurd hthere hview
  · exact Views.addMember_of_missing hnamed hnone

/-- Members are named and their views are there, so nothing else can be wrong with a second time. -/
theorem addMember_again (hb : b.Reachable)
    (hmember : { viewId := id, userId := Text.trim w } ∈ b.store.members) :
    ((Views.addMember w id).on b).1 = .error (.alreadyMember (Text.trim w) id) := by
  have hnamed : Text.trim w ≠ "" := (hb.signed _ hmember).2
  obtain ⟨v, hv⟩ := hb.hasView_iff_get.1 (hb.keyed.viewOf _ hmember)
  exact Views.addMember_of_member hnamed (Views.get_eq_ok.1 hv) hmember

theorem addMember_ok_iff (hb : b.Reachable) :
    ((Views.addMember w id).on b).1 = .ok () ↔
      Text.trim w ≠ "" ∧ b.store.hasView id = true ∧
        { viewId := id, userId := Text.trim w } ∉ b.store.members := by
  constructor
  · intro hok
    obtain ⟨user, v, huser, hv, hnew, _⟩ := Views.addMember_eq_ok.1 (Prod.ext hok rfl)
    obtain ⟨rfl, hnamed⟩ := Text.required_eq_ok.1 huser
    exact ⟨hnamed, hb.hasView_iff_get.2 ⟨v, Views.get_eq_ok.2 hv⟩, hnew⟩
  · rintro ⟨hnamed, hview, hnew⟩
    obtain ⟨v, hv⟩ := hb.hasView_iff_get.1 hview
    exact Views.addMember_of_new hnamed (Views.get_eq_ok.1 hv) hnew

end Reachable

/-! ## Views over a run -/

/-- After any run, a user sees the views that were created and to which nobody was added, and those to
which the user was added; each of them once, as it is now, and older ones first. A user is added to a
view that was created, unless the user was added before; blanks around the name make no difference. -/
theorem views_over_run (source : Identifier.Source) (now : Int64) (actions : List Action) :
    (∀ id, Met (Creates id) { now, source } actions ↔
        ∃ v, Views.get (run { now, source } actions).store id = .ok v) ∧
      (∀ u, ∃ vs, Views.visibleTo (run { now, source } actions).store u = .ok vs ∧
        vs.Pairwise View.OlderThan ∧
        ∀ v, v ∈ vs ↔
          Met (Creates v.id) { now, source } actions ∧ Views.get (run { now, source } actions).store v.id = .ok v ∧
          ((∀ w, ¬Met (Joins v.id w) { now, source } actions) ∨ Met (Joins v.id u) { now, source } actions)) ∧
      (∀ w id, ((Views.addMember w id).on (run { now, source } actions)).1 = .ok () ↔
        Text.trim w ≠ "" ∧ Met (Creates id) { now, source } actions ∧
          ¬Met (Joins id (Text.trim w)) { now, source } actions) ∧
      (∀ w id, Text.trim w = "" →
        ((Views.addMember w id).on (run { now, source } actions)).1 =
          .error (.invalid (.missing "user_id"))) ∧
      (∀ w id, Text.trim w ≠ "" → ¬Met (Creates id) { now, source } actions →
        ((Views.addMember w id).on (run { now, source } actions)).1 = .error (.notFound .view id)) ∧
      ∀ w id, Met (Joins id (Text.trim w)) { now, source } actions →
        ((Views.addMember w id).on (run { now, source } actions)).1 =
          .error (.alreadyMember (Text.trim w) id) := by
  have hb := reachable_run now actions source
  have hcreated : ∀ id, Met (Creates id) { now, source } actions ↔
      (run { now, source } actions).store.hasView id = true :=
    fun id => (hasView_run source now actions id).symm
  have hjoined : ∀ id w, Met (Joins id w) { now, source } actions ↔
      { viewId := id, userId := w } ∈ (run { now, source } actions).store.members :=
    fun id w => (mem_members_run source now actions ⟨id, w⟩).symm
  simp only [hcreated, hjoined]
  refine ⟨fun id => hb.hasView_iff_get, ?_, fun w id => hb.addMember_ok_iff,
    fun w id => Views.addMember_of_blank, fun w id => hb.addMember_without_view,
    fun w id => hb.addMember_again⟩
  intro u
  obtain ⟨vs, hvs, hordered, hmem⟩ := Views.visibleTo_exact hb.keyed hb.sound_views u
  refine ⟨vs, hvs, hordered, ?_⟩
  intro v
  rw [hmem, hb.hasView_iff_get]
  exact ⟨fun h => ⟨⟨v, h.1⟩, h⟩, fun h => h.2⟩

end Board
end PropertyBoard
