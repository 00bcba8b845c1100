import PropertyBoard.Proofs.Json.Records
import PropertyBoard.Proofs.Keys
import PropertyBoard.Proofs.Value

/-!
# PropertyBoard.Proofs.Views

What the rows of views say, in every board that can come about.

* `Views.view?_rowOf`: the row of a view says that view.
* `ViewRow.Written`: the row was made of parts that passed their checks. A new view has such a row, and
  so has a view with new parts (`ViewRow.Written.with_parts`), so all views have, always
  (`Board.Reachable.written_views`).
* `ViewRow.Sound`: the row says a view whose query asks for something.
  `Board.Reachable.sound_views`: so all views can be read.
-/

namespace PropertyBoard

namespace Store
namespace ViewRow

theorem view?_eq_some {r : ViewRow} {v : View} :
    r.view? = some v ↔
      ∃ type query layout,
        Named.ofName? r.type = some type ∧ stored? Query.codec r.query = some query ∧
        stored? Layout.codec r.layout = some layout ∧
        v = { id := r.id, title := r.title, type, createdAt := r.createdAt, query, layout } := by
  simp only [view?, Option.bind_eq_bind, Option.bind_eq_some_iff, Option.some.injEq,
    eq_comm (b := v)]
  constructor
  · rintro ⟨type, htype, query, hquery, layout, hlayout, hv⟩
    exact ⟨type, query, layout, htype, hquery, hlayout, hv⟩
  · rintro ⟨type, query, layout, htype, hquery, hlayout, hv⟩
    exact ⟨type, htype, query, hquery, layout, hlayout, hv⟩

/-- The row says a view, whose query asks for something. -/
def Sound (r : ViewRow) : Prop :=
  ∃ v, r.view? = some v ∧ v.query.checkConstrained = .ok ()

/-- A row of parts that passed their checks, in compact texts that are not too long. -/
structure Written (r : ViewRow) : Prop where
  title : View.checkTitle r.title = .ok r.title
  type : ∃ type : ViewType, r.type = type.name
  query : ∃ q : Query, Views.encodeQuery r.id q = .ok r.query ∧ q.checkConstrained = .ok ()
  layout : ∃ l : Layout, Views.encodeLayout r.id l = .ok r.layout

end ViewRow
end Store

namespace Views

open Store

variable {id : String}

theorem stored?_query {q : Query} {text : String} (h : encodeQuery id q = .ok text) :
    stored? Query.codec text = some q := by
  obtain ⟨_, rfl⟩ := StoredJson.encode_eq_ok.1 h
  exact stored?_of_keeps q.keeps

theorem stored?_layout {l : Layout} {text : String} (h : encodeLayout id l = .ok text) :
    stored? Layout.codec text = some l := by
  obtain ⟨_, rfl⟩ := StoredJson.encode_eq_ok.1 h
  exact stored?_of_keeps l.keeps

/-- The row of a view says that view. -/
theorem view?_rowOf {v : View} {queryText layoutText : String}
    (hquery : encodeQuery v.id v.query = .ok queryText)
    (hlayout : encodeLayout v.id v.layout = .ok layoutText) :
    (rowOf v queryText layoutText).view? = some v := by
  exact ViewRow.view?_eq_some.2 ⟨v.type, v.query, v.layout, ViewType.ofName?_name v.type,
    stored?_query hquery, stored?_layout hlayout, rfl⟩

theorem checkTitle_again {s title : String} (h : View.checkTitle s = .ok title) :
    View.checkTitle title = .ok title := by
  obtain ⟨rfl, hne⟩ := Text.required_eq_ok.1 h
  exact Text.required_eq_ok.2 ⟨(Text.trim_trim s).symm, hne⟩

/-- The row of a new view is made of parts that passed their checks. -/
theorem written_rowOf {r : ViewRequest} {input : ViewInput} {v : View} {createdAt : Int64}
    {queryText layoutText : String} (h : r.check = .ok input) (hv : v = created input id createdAt)
    (hquery : encodeQuery v.id v.query = .ok queryText)
    (hlayout : encodeLayout v.id v.layout = .ok layoutText) :
    (rowOf v queryText layoutText).Written := by
  unfold ViewRequest.check at h
  split at h
  · cases h
  · simp only [Refusal.ofInvalid_eq_ok, Except.bind_eq_ok] at h
    obtain ⟨title, htitle, type, _, _, hconstrained, hinput⟩ := h
    cases hinput
    subst hv
    exact ⟨checkTitle_again htitle, ⟨type, rfl⟩, ⟨_, hquery, hconstrained⟩, ⟨_, hlayout⟩⟩

theorem encodeOptional_eq_ok_some {α : Type} {encode : α → Except Refusal String} {a? : Option α}
    {text : String} (h : encodeOptional encode a? = .ok (some text)) :
    ∃ a, a? = some a ∧ encode a = .ok text := by
  cases a? with
  | none => cases h
  | some a =>
    obtain ⟨_, htext, heq⟩ := Value.map_eq_ok.1 h
    cases heq
    exact ⟨a, rfl, htext⟩

/-- The parts of a patch pass the checks that those of a new view do. -/
theorem parts_of_ok {p : ViewPatch} {parts : Statement.Views.Parts}
    (h : partsOf id p = .ok parts) :
    (∀ title, parts.title = some title → View.checkTitle title = .ok title) ∧
      (∀ text, parts.query = some text →
        ∃ q : Query, encodeQuery id q = .ok text ∧ q.checkConstrained = .ok ()) ∧
      ∀ text, parts.layout = some text → ∃ l, encodeLayout id l = .ok text := by
  unfold partsOf at h
  split at h
  · cases h
  · simp only [Except.bind_eq_ok] at h
    obtain ⟨title, htitle, _, hcheck, query, hquery, layout, hlayout, hparts⟩ := h
    cases hparts
    refine ⟨?_, ?_, ?_⟩
    · rintro title rfl
      unfold checkedTitle at htitle
      split at htitle
      · obtain ⟨_, htitle, heq⟩ := Value.map_eq_ok.1 htitle
        cases heq
        exact checkTitle_again (Refusal.ofInvalid_eq_ok.1 htitle)
      · cases htitle
    · rintro text rfl
      obtain ⟨q, hq, htext⟩ := encodeOptional_eq_ok_some hquery
      simp only [checkQuery, hq, Refusal.ofInvalid_eq_ok] at hcheck
      exact ⟨q, htext, hcheck⟩
    · rintro text rfl
      obtain ⟨l, _, htext⟩ := encodeOptional_eq_ok_some hlayout
      exact ⟨l, htext⟩

end Views

namespace Store

/-- New parts leave a row written: each of them is one that passed its check, or the part as it
was. -/
theorem ViewRow.Written.with_parts {r : ViewRow} (h : r.Written) {p : ViewPatch}
    {parts : Statement.Views.Parts} (hparts : Views.partsOf r.id p = .ok parts) :
    ViewRow.Written { r with
      title := parts.title.getD r.title
      query := parts.query.getD r.query
      layout := parts.layout.getD r.layout } := by
  obtain ⟨hnewTitle, hnewQuery, hnewLayout⟩ := Views.parts_of_ok hparts
  refine ⟨?_, h.type, ?_, ?_⟩
  · cases hpart : parts.title with
    | none => exact h.title
    | some title => exact hnewTitle title hpart
  · cases hpart : parts.query with
    | none => exact h.query
    | some text => exact hnewQuery text hpart
  · cases hpart : parts.layout with
    | none => exact h.layout
    | some text => exact hnewLayout text hpart

/-- A row that was written says a view. -/
theorem ViewRow.Written.sound {r : ViewRow} (h : r.Written) : r.Sound := by
  obtain ⟨type, htype⟩ := h.type
  obtain ⟨q, hquery, hconstrained⟩ := h.query
  obtain ⟨l, hlayout⟩ := h.layout
  have hname : (Named.ofName? r.type : Option ViewType) = some type := by
    rw [htype, ViewType.ofName?_name]
  exact ⟨_, ViewRow.view?_eq_some.2 ⟨type, q, l, hname, Views.stored?_query hquery,
    Views.stored?_layout hlayout, rfl⟩, hconstrained⟩

/-- What a call writes leaves the rows of views written. -/
theorem written_views_of_writes {b : Board} {c : ServiceCall} {s' : Store}
    (h : ∀ r ∈ b.store.views, r.Written) (hw : ServiceCall.Writes b c s') :
    ∀ r ∈ s'.views, r.Written := by
  cases hw with
  | createView hinput hv hquery hlayout _ =>
    intro row hrow
    rcases List.mem_append.1 hrow with hrow | hrow
    · exact h row hrow
    · rw [List.mem_singleton.1 hrow]
      exact Views.written_rowOf hinput hv hquery hlayout
  | updateView hparts hq _ =>
    intro row hrow
    obtain ⟨old, hold, rfl⟩ := Sql.Update.mem_on.1 hrow
    split
    · rename_i hid
      rw [Statement.Views.change_eq hq]
      rw [← (Statement.Views.allHold_update hq).1 hid] at hparts
      exact (h old hold).with_parts hparts
    · exact h old hold
  | _ => exact h

end Store

theorem Board.Reachable.written_views {b : Board} (h : b.Reachable) :
    ∀ r ∈ b.store.views, r.Written := by
  refine h.induct_writes (P := fun s => ∀ r ∈ s.views, r.Written) (by simp) ?_
    fun b c s' _ hs hw => Store.written_views_of_writes hs hw
  intro s s' hs _ _ hviews _ r hr
  exact hs r (hviews ▸ hr)

theorem Board.Reachable.sound_views {b : Board} (h : b.Reachable) :
    ∀ r ∈ b.store.views, r.Sound :=
  fun r hr => (h.written_views r hr).sound

end PropertyBoard
