import PropertyBoard.Proofs.Call
import PropertyBoard.Proofs.Statement
import PropertyBoard.Proofs.Store
import PropertyBoard.Service.Views

/-!
# PropertyBoard.Proofs.Service.Views

What each call about views does, when it succeeds.

* `Views.create_eq_ok`, `Views.update_eq_ok`, `Views.addMember_eq_ok`: the exact conditions, and the
  store afterwards. Only views and their members change.
* `Views.atomic_create`, `Views.atomic_update`, `Views.atomic_addMember`: a call that is refused
  leaves the store as it was.
-/

namespace PropertyBoard
namespace Views

open Store

variable {s s' : Store} {b b' : Board} {id : String}

theorem find_eq_ok_some {v : View} :
    find s id = .ok (some v) ↔
      ∃ r, (s.views.find? fun r => r.id = id) = some r ∧ r.view? = some v := by
  simp only [find, query, Statement.Views.on_byId, Refusal.ofStorage, Except.bind_eq_ok,
    Except.ok.injEq, exists_eq_left', readFirst_eq_ok_some, List.head?_filter]

theorem mem_of_find {v : View} (h : find s id = .ok (some v)) : ∃ r ∈ s.views, r.id = id := by
  obtain ⟨r, hr, _⟩ := find_eq_ok_some.1 h
  exact ⟨r, List.mem_of_find?_eq_some hr, by simpa using List.find?_some hr⟩

theorem get_eq_ok {v : View} : get s id = .ok v ↔ find s id = .ok (some v) :=
  Except.found_eq_ok (fun _ => rfl) rfl

/-- A new view as it is answered. -/
def created (input : ViewInput) (id : String) (createdAt : Int64) : View where
  id := id
  title := input.title
  type := input.type
  createdAt := createdAt
  query := input.query
  layout := input.layout

theorem create_eq_ok {r : ViewRequest} {v : View} :
    (create r).on b = (.ok v, b') ↔
      ∃ input queryText layoutText,
        r.check = .ok input ∧
        v = created input b.nextId b.now ∧
        encodeQuery v.id v.query = .ok queryText ∧ encodeLayout v.id v.layout = .ok layoutText ∧
        b.store.hasView v.id = false ∧
        b' = { b with
          store := { b.store with views := b.store.views ++ [rowOf v queryText layoutText] }
          drawn := b.drawn + 1 } := by
  unfold create
  simp only [Call.bind_eq_ok, Call.check_eq_ok, Call.drawId_eq_ok, Call.now_eq_ok,
    Call.make_eq_ok, Call.pure_eq_ok, insertRows, Change.bind_eq_ok, Change.insert_eq_ok,
    Change.pure_eq_ok, insertView_eq_ok]
  constructor
  · rintro ⟨input, _, ⟨hin, rfl⟩, _, _, ⟨rfl, rfl⟩, _, _, ⟨rfl, rfl⟩, queryText, _, ⟨hquery, rfl⟩,
      layoutText, _, ⟨hlayout, rfl⟩, _, _, ⟨_, ⟨_, _, ⟨hnew, rfl⟩, _, rfl⟩, rfl⟩, rfl, rfl⟩
    exact ⟨input, queryText, layoutText, hin, rfl, hquery, hlayout, hnew, rfl⟩
  · rintro ⟨input, queryText, layoutText, hin, rfl, hquery, hlayout, hnew, rfl⟩
    exact ⟨input, _, ⟨hin, rfl⟩, _, _, ⟨rfl, rfl⟩, _, _, ⟨rfl, rfl⟩, queryText, _, ⟨hquery, rfl⟩,
      layoutText, _, ⟨hlayout, rfl⟩, (), _, ⟨_, ⟨(), _, ⟨hnew, rfl⟩, trivial, rfl⟩, rfl⟩, rfl, rfl⟩

theorem update_eq_ok {p : ViewPatch} {v : View} :
    (update id p).on b = (.ok v, b') ↔
      ∃ parts q s',
        partsOf id p = .ok parts ∧ Statement.Views.update? id parts = some q ∧
        (q.on b.store.views).2 ≠ 0 ∧ s' = { b.store with views := (q.on b.store.views).1 } ∧
        get s' id = .ok v ∧ b' = { b with store := s' } := by
  unfold update
  simp only [Call.bind_eq_ok, Call.check_eq_ok, Call.make_eq_ok]
  constructor
  · rintro ⟨parts, _, ⟨hparts, rfl⟩, s', hreplace, rfl⟩
    unfold replace at hreplace
    cases hq : Statement.Views.update? id parts with
    | none => simp [hq] at hreplace
    | some q =>
      simp only [hq, Change.bind_eq_ok, Change.updateViews_eq_ok] at hreplace
      obtain ⟨n, _, ⟨rfl, rfl⟩, hlook⟩ := hreplace
      split at hlook
      · simp at hlook
      · rename_i hn
        obtain ⟨hget, rfl⟩ := Change.look_eq_ok.1 hlook
        exact ⟨parts, q, _, hparts, hq, hn, rfl, hget, rfl⟩
  · rintro ⟨parts, q, _, hparts, hq, hn, rfl, hget, rfl⟩
    refine ⟨parts, _, ⟨hparts, rfl⟩, _, ?_, rfl⟩
    simp only [replace, hq, Change.bind_eq_ok, Change.updateViews_eq_ok]
    exact ⟨_, _, ⟨rfl, rfl⟩, by rw [if_neg hn]; exact Change.look_eq_ok.2 ⟨hget, rfl⟩⟩

theorem join_eq_ok {m : Member} :
    join m s = .ok ((), s') ↔
      (∃ v, find s m.viewId = .ok (some v)) ∧ m ∉ s.members ∧
        s' = { s with members := s.members ++ [m] } := by
  have hview : ∀ v, find s m.viewId = .ok (some v) → s.hasView m.viewId = true := by
    intro v hv
    obtain ⟨row, hrow, hid⟩ := mem_of_find hv
    exact hasView_iff.2 ⟨row, hrow, hid⟩
  have hcount : (Statement.Members.countOf m.viewId m.userId).on s.members > 0 ↔
      m ∈ s.members := by
    rw [Statement.Members.on_countOf, gt_iff_lt, List.countP_pos_iff]
    constructor
    · rintro ⟨m', hm', heq⟩
      simp only [Bool.and_eq_true, decide_eq_true_eq] at heq
      cases m
      cases m'
      obtain ⟨rfl, rfl⟩ := heq
      exact hm'
    · intro hm
      exact ⟨m, hm, by simp⟩
  unfold join
  simp only [Change.bind_eq_ok, Change.look_eq_ok, get_eq_ok]
  constructor
  · rintro ⟨v, _, ⟨hv, rfl⟩, held, _, ⟨hheld, rfl⟩, h⟩
    cases hheld
    split at h
    · simp at h
    · obtain ⟨hnew, _, rfl⟩ := insertMember_eq_ok.1 (Change.insert_eq_ok.1 h)
      exact ⟨⟨v, hv⟩, hnew, rfl⟩
  · rintro ⟨⟨v, hv⟩, hnew, rfl⟩
    refine ⟨v, _, ⟨hv, rfl⟩, _, _, ⟨rfl, rfl⟩, ?_⟩
    rw [if_neg (mt hcount.1 hnew)]
    exact Change.insert_eq_ok.2 (insertMember_eq_ok.2 ⟨hnew, hview v hv, rfl⟩)

theorem addMember_eq_ok {userId viewId : String} :
    (addMember userId viewId).on b = (.ok (), b') ↔
      ∃ user v, Text.required "user_id" userId = .ok user ∧
        find b.store viewId = .ok (some v) ∧ { viewId, userId := user } ∉ b.store.members ∧
        b' = { b with
          store := { b.store with
            members := b.store.members ++ [{ viewId, userId := user }] } } := by
  unfold addMember
  simp only [Call.bind_eq_ok, Call.check_eq_ok, Refusal.ofInvalid_eq_ok, Call.make_eq_ok,
    join_eq_ok]
  constructor
  · rintro ⟨user, _, ⟨huser, rfl⟩, _, ⟨⟨v, hv⟩, hnew, rfl⟩, rfl⟩
    exact ⟨user, v, huser, hv, hnew, rfl⟩
  · rintro ⟨user, v, huser, hv, hnew, rfl⟩
    exact ⟨user, _, ⟨huser, rfl⟩, _, ⟨⟨v, hv⟩, hnew, rfl⟩, rfl⟩

/-! ## Refused calls -/

theorem atomic_create (r : ViewRequest) : (create r).Atomic := by
  refine .after_quiet (Call.quiet_check _) fun input => ?_
  refine .after_quiet Call.quiet_drawId fun id => ?_
  refine .after_quiet Call.quiet_now fun now => ?_
  refine .after_quiet (Call.quiet_check _) fun queryText => ?_
  refine .after_quiet (Call.quiet_check _) fun layoutText => ?_
  exact (Call.atomic_make _).then_pure _

theorem atomic_update (id : String) (p : ViewPatch) : (update id p).Atomic := by
  exact .after_quiet (Call.quiet_check _) fun parts => Call.atomic_make _

theorem atomic_addMember (userId viewId : String) : (addMember userId viewId).Atomic := by
  exact .after_quiet (Call.quiet_check _) fun user => Call.atomic_make _

end Views
end PropertyBoard
