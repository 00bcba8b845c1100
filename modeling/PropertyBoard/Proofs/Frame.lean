import PropertyBoard.Proofs.Resolve

/-!
# PropertyBoard.Proofs.Frame

A call that succeeds changes what it names, and nothing else.

* `Store.Edited`, `Store.Removed`: a table some rows of which were changed where they stand, and one
  that lost a row.
* `ServiceCall.Frame`: what each call may make of the store. What it does not mention stays as it is.
* `ServiceCall.frame_of_ok`: a call that succeeds keeps to this.
* `Views.runQuery_of_same`: what is asked of the presence of fields only does not depend on values.
* `calls_change_what_they_name`: all of this for every board that can come about.
-/

namespace PropertyBoard

open Store

namespace Store

variable {ρ : Type}

/-- Rows of which some were changed where they stand. -/
def Edited (change : ρ → ρ → Prop) (rows rows' : List ρ) : Prop :=
  List.Forall₂ (fun r r' => r' = r ∨ change r r') rows rows'

/-- Rows without one of them, of which this holds. -/
def Removed (gone : ρ → Prop) (rows rows' : List ρ) : Prop :=
  ∃ before r after, rows = before ++ r :: after ∧ gone r ∧ rows' = before ++ after

theorem edited_map {change : ρ → ρ → Prop} {f : ρ → ρ} (h : ∀ r, f r = r ∨ change r (f r))
    (rows : List ρ) : Edited change rows (rows.map f) := by
  induction rows with
  | nil => exact .nil
  | cons r rest ih => exact .cons (h r) ih

theorem edited_refl {change : ρ → ρ → Prop} (rows : List ρ) : Edited change rows rows :=
  List.forall₂_same.2 fun _ _ => .inl rfl

/-- What no change touches stays as it is. -/
theorem Edited.map_eq {κ : Type} {change : ρ → ρ → Prop} {rows rows' : List ρ} {get : ρ → κ}
    (h : Edited change rows rows') (hget : ∀ r r', change r r' → get r' = get r) :
    rows'.map get = rows.map get := by
  induction h with
  | nil => rfl
  | @cons r r' rest rest' hr _ ih =>
    rw [List.map_cons, List.map_cons, ih]
    rcases hr with rfl | hr
    · rfl
    · rw [hget r r' hr]

/-- Of distinct keys one is removed. -/
theorem removed_filter {key : ρ → String} {k : String} {rows : List ρ}
    (hkeys : (rows.map key).Nodup) (h : ∃ r ∈ rows, key r = k) :
    Removed (fun r => key r = k) rows (rows.filter fun r => key r ≠ k) := by
  obtain ⟨r, hr, hk⟩ := h
  obtain ⟨before, after, rfl⟩ := List.append_of_mem hr
  refine ⟨before, r, after, rfl, hk, ?_⟩
  have hothers : ∀ r' ∈ before ++ after, key r' ≠ k := by
    rw [List.map_append, List.map_cons, List.nodup_middle, List.nodup_cons, ← List.map_append] at hkeys
    intro r' hr' hk'
    exact hkeys.1 (List.mem_map.2 ⟨r', hr', hk'.trans hk.symm⟩)
  have hb : before.filter (fun r => key r ≠ k) = before :=
    List.filter_eq_self.2 fun r' hr' => decide_eq_true (hothers r' (List.mem_append_left _ hr'))
  have ha : after.filter (fun r => key r ≠ k) = after :=
    List.filter_eq_self.2 fun r' hr' => decide_eq_true (hothers r' (List.mem_append_right _ hr'))
  rw [List.filter_append, List.filter_cons_of_neg (by simp [hk]), hb, ha]

namespace PropertyRow

def SameButValue (p p' : PropertyRow) : Prop :=
  ∃ value, p' = { p with value }

def SameButScope (p p' : PropertyRow) : Prop :=
  ∃ channelId teamId, p' = { p with channelId, teamId }

end PropertyRow

theorem edited_stamped (objectId : String) (scope : Scope) (rows : List PropertyRow) :
    Edited (fun p p' => p.objectId = objectId ∧ p.SameButScope p') rows
      (stamped objectId scope rows) := by
  refine edited_map ?_ rows
  intro p
  by_cases hp : p.objectId = objectId
  · rw [if_pos hp]
    exact .inr ⟨hp, scope.channelId, scope.teamId, rfl⟩
  · exact .inl (if_neg hp)

theorem edited_withValue (id value : String) (rows : List PropertyRow) :
    Edited (fun p p' => p.id = id ∧ p.SameButValue p') rows (withValue id value rows) := by
  refine edited_map ?_ rows
  intro p
  by_cases hp : p.id = id
  · rw [if_pos hp]
    exact .inr ⟨hp, value, rfl⟩
  · exact .inl (if_neg hp)

/-- A new property has the scope that its object gets. -/
theorem stamped_append_newRow (input : PropertyInput) (f : Field) (scope : Scope)
    (id text : String) (rows : List PropertyRow) :
    stamped input.objectId scope (rows ++ [Properties.newRow input f scope id text]) =
      stamped input.objectId scope rows ++ [Properties.newRow input f scope id text] := by
  simp [stamped, Properties.newRow, PropertyRow.stamp]

/-- A view that was changed in the parts that a patch has. -/
def ViewRow.Patched (patch : ViewPatch) (r r' : ViewRow) : Prop :=
  ∃ title query layout, r' = { r with title, query, layout } ∧
    (patch.title = none → title = r.title) ∧ (patch.query = none → query = r.query) ∧
    (patch.layout = none → layout = r.layout)

end Store

namespace Fields

theorem edited_replaced (f : Field) (text : String) (rows : List FieldRow) :
    Edited (fun r r' => r.id = f.id ∧ r'.id = f.id) rows
      (rows.map fun r => if r.id = f.id then rowOf f text else r) := by
  refine edited_map ?_ rows
  intro r
  by_cases hr : r.id = f.id
  · rw [if_pos hr]
    exact .inr ⟨hr, rfl⟩
  · exact .inl (if_neg hr)

theorem edited_conformedTo (f : Field) (rows : List PropertyRow) :
    Edited (fun p p' => p.fieldId = f.id ∧ p.SameButValue p') rows (conformedTo f rows) := by
  refine edited_map ?_ rows
  intro p
  by_cases hp : p.fieldId = f.id
  · rw [if_pos hp]
    refine .inr ⟨hp, ?_⟩
    unfold conformRow
    split
    · exact ⟨_, rfl⟩
    · exact ⟨p.value, rfl⟩
  · exact .inl (if_neg hp)

/-- With a field go its properties, and as each property has a field, no others. -/
theorem withoutField_eq {s : Store} (hk : s.Keyed) (id : String) :
    withoutField id s = { s with
      fields := s.fields.filter fun r => r.id ≠ id
      properties := s.properties.filter fun p => p.fieldId ≠ id } := by
  have hkept : (s.properties.filter fun p => p.fieldId ≠ id).filter (fun p =>
      (s.fields.filter fun r => r.id ≠ id).any fun f => f.id = p.fieldId) =
        s.properties.filter fun p => p.fieldId ≠ id := by
    refine List.filter_eq_self.2 ?_
    intro p hp
    obtain ⟨hp, hne⟩ := List.mem_filter.1 hp
    obtain ⟨r, hr, hid⟩ := hasField_iff.1 (hk.fieldOf p hp)
    have hother : r.id ≠ id := hid ▸ of_decide_eq_true hne
    exact List.any_eq_true.2 ⟨r, List.mem_filter.2 ⟨hr, decide_eq_true hother⟩, decide_eq_true hid⟩
  rw [withoutField, keepFields, hkept]

end Fields

namespace Views

/-- The parts that a patch lacks are left as they are. -/
theorem patched_change {id : String} {patch : ViewPatch} {parts : Statement.Views.Parts}
    {q : Sql.Update ViewRow} (hparts : partsOf id patch = .ok parts)
    (hq : Statement.Views.update? id parts = some q) (r : ViewRow) :
    r.Patched patch (q.change r) := by
  unfold partsOf at hparts
  split at hparts
  · cases hparts
  · simp only [Except.bind_eq_ok] at hparts
    obtain ⟨title, htitle, _, _, query, hquery, layout, hlayout, hparts⟩ := hparts
    cases hparts
    refine ⟨_, _, _, Statement.Views.change_eq hq r, ?_, ?_, ?_⟩
    · intro hnone
      rw [checkedTitle, hnone] at htitle
      cases htitle
      rfl
    · intro hnone
      rw [hnone] at hquery
      cases hquery
      rfl
    · intro hnone
      rw [hnone] at hlayout
      cases hlayout
      rfl

end Views

namespace ServiceCall

/-- What a call that succeeds may make of a store. -/
def Frame (s s' : Store) : ServiceCall → Prop
  | createField _ _ => ∃ r, s' = { s with fields := s.fields ++ [r] }
  | updateField id _ _ => ∃ fields properties, s' = { s with fields, properties } ∧
      Edited (fun r r' => r.id = id ∧ r'.id = id) s.fields fields ∧
      Edited (fun p p' => p.fieldId = id ∧ p.SameButValue p') s.properties properties
  | deleteField id => ∃ fields,
      s' = { s with fields, properties := s.properties.filter fun p => p.fieldId ≠ id } ∧
      Removed (fun r => r.id = id) s.fields fields
  | createProperty input _ => ∃ properties r,
      s' = { s with properties := properties ++ [r] } ∧ r.objectId = input.objectId ∧
      r.objectType = input.objectType.name ∧ r.fieldId = input.fieldId ∧
      Edited (fun p p' => p.objectId = input.objectId ∧ p.SameButScope p') s.properties properties
  | updateProperty id _ _ => ∃ properties, s' = { s with properties } ∧
      Edited (fun p p' => p.id = id ∧ p.SameButValue p') s.properties properties
  | deleteProperty id => ∃ properties, s' = { s with properties } ∧
      Removed (fun p => p.id = id) s.properties properties
  | resyncObject objectId => ∃ properties, s' = { s with properties } ∧
      Edited (fun p p' => p.objectId = objectId ∧ p.SameButScope p') s.properties properties
  | createView _ => ∃ r, s' = { s with views := s.views ++ [r] }
  | updateView id patch => ∃ views, s' = { s with views } ∧
      Edited (fun r r' => r.id = id ∧ r.Patched patch r') s.views views
  | addMember _ viewId => ∃ userId, s' = { s with members := s.members ++ [{ viewId, userId }] }
  | _ => s' = s

theorem frame_of_ok {c : ServiceCall} {b b' : Board} (hk : b.store.Keyed)
    (h : c.run.on b = (.ok (), b')) : c.Frame b.store b'.store := by
  cases c <;> rw [run] at h
  case createField r userId =>
    obtain ⟨f, hok⟩ := silent_eq_ok.1 h
    obtain ⟨_, input, _, _, text, _, _, rfl⟩ := Fields.create_eq_ok.1 hok
    exact ⟨_, rfl⟩
  case updateField id r userId =>
    obtain ⟨f, hok⟩ := silent_eq_ok.1 h
    obtain ⟨_, input, _, rfl, text, _, _, _, rfl⟩ := (Fields.update_eq_ok hk.properties).1 hok
    exact ⟨_, _, rfl, Fields.edited_replaced (Fields.ofInput input id b.now userId) text _,
      Fields.edited_conformedTo (Fields.ofInput input id b.now userId) _⟩
  case deleteField id =>
    obtain ⟨n, hok⟩ := silent_eq_ok.1 h
    obtain ⟨hfield, _, rfl⟩ := Fields.delete_eq_ok.1 hok
    refine ⟨_, ?_, removed_filter hk.fields (hasField_iff.1 hfield)⟩
    rw [Fields.withoutField_eq hk]
  case createProperty input userId =>
    obtain ⟨p, hok⟩ := silent_eq_ok.1 h
    obtain ⟨f, value, scope, text, hfield, _, _, _, _, _, rfl⟩ := Properties.create_eq_ok.1 hok
    refine ⟨stamped input.objectId scope b.store.properties,
      Properties.newRow input f scope b.nextId text, ?_, rfl, rfl,
      Fields.id_of_find hfield, edited_stamped _ _ _⟩
    rw [stamped_append_newRow]
  case updateProperty id raw userId =>
    obtain ⟨p, hok⟩ := silent_eq_ok.1 h
    obtain ⟨n, s', hset, _, rfl⟩ := Properties.update_eq_ok.1 hok
    obtain ⟨p, f, value, text, _, _, _, _, _, rfl⟩ := Properties.setValue_eq_ok.1 hset
    exact ⟨_, rfl, edited_withValue _ _ _⟩
  case deleteProperty id =>
    obtain ⟨hrow, rfl⟩ := Properties.delete_eq_ok.1 h
    exact ⟨_, rfl, removed_filter hk.properties hrow⟩
  case resyncObject objectId =>
    obtain ⟨n, hok⟩ := silent_eq_ok.1 h
    obtain ⟨_, _, rfl⟩ | ⟨first, rest, scope, _, _, _, rfl⟩ := Properties.resync_eq_ok.1 hok
    · exact ⟨_, rfl, edited_refl _⟩
    · exact ⟨_, rfl, edited_stamped _ _ _⟩
  case createView r =>
    obtain ⟨v, hok⟩ := silent_eq_ok.1 h
    obtain ⟨input, queryText, layoutText, _, _, _, _, _, rfl⟩ := Views.create_eq_ok.1 hok
    exact ⟨_, rfl⟩
  case updateView id patch =>
    obtain ⟨v, hok⟩ := silent_eq_ok.1 h
    obtain ⟨parts, q, s', hparts, hq, _, rfl, _, rfl⟩ := Views.update_eq_ok.1 hok
    refine ⟨_, rfl, edited_map ?_ _⟩
    intro r
    by_cases hr : Sql.Condition.allHold q.conditions r = true
    · rw [if_pos hr]
      exact .inr ⟨(Statement.Views.allHold_update hq).1 hr, Views.patched_change hparts hq r⟩
    · exact .inl (if_neg hr)
  case addMember userId viewId =>
    obtain ⟨user, v, _, _, _, rfl⟩ := Views.addMember_eq_ok.1 h
    exact ⟨user, rfl⟩
  all_goals
    obtain ⟨a, hok⟩ := silent_eq_ok.1 h
    obtain ⟨_, rfl⟩ := Call.look_eq_ok.1 hok
    rfl

end ServiceCall

/-! ## Queries for fields that are there -/

/-- A query that asks only which fields are there. -/
def Query.AsksPresence (q : Query) : Prop :=
  ∀ e ∈ q.includes.entries ++ q.excludes.entries, e.2 = []

instance (q : Query) : Decidable q.AsksPresence :=
  inferInstanceAs (Decidable (∀ e ∈ q.includes.entries ++ q.excludes.entries, e.2 = []))

/-- All of a property but what it holds. -/
def Store.PropertyRow.place (p : PropertyRow) : (String × String) × String × Scope :=
  (p.objectKey, p.fieldId, p.scope)

/-- Whether an object meets a query for fields does not depend on what they hold. -/
theorem Store.Meets.of_same {s s' : Store} {q : Query} {type : Option ObjectType}
    {key : String × String} (hq : q.AsksPresence)
    (hsame : s'.properties.map PropertyRow.place = s.properties.map PropertyRow.place)
    (h : s.Meets q type key) : s'.Meets q type key := by
  have hthere : ∀ p ∈ s.properties, ∃ p' ∈ s'.properties, p'.place = p.place := by
    intro p hp
    exact List.mem_map.1 (hsame ▸ List.mem_map_of_mem hp)
  have hback : ∀ p' ∈ s'.properties, ∃ p ∈ s.properties, p'.place = p.place := by
    intro p' hp'
    obtain ⟨p, hp, heq⟩ := List.mem_map.1 (hsame ▸ List.mem_map_of_mem (f := PropertyRow.place) hp')
    exact ⟨p, hp, heq.symm⟩
  refine ⟨?_, h.ofType, ?_, ?_, ?_, ?_⟩
  · obtain ⟨p, hp, hkey⟩ := h.present
    obtain ⟨p', hp', heq⟩ := hthere p hp
    exact ⟨p', hp', (congrArg Prod.fst heq).trans hkey⟩
  · intro fieldId texts hmem
    obtain ⟨p, hp, hkey, hfield, _⟩ := h.wanted fieldId texts hmem
    obtain ⟨p', hp', heq⟩ := hthere p hp
    exact ⟨p', hp', (congrArg Prod.fst heq).trans hkey,
      (congrArg (fun x => x.2.1) heq).trans hfield, .inl (hq _ (List.mem_append_left _ hmem))⟩
  · intro fieldId texts hmem
    obtain rfl : texts = [] := hq _ (List.mem_append_right _ hmem)
    have hnone := h.unwanted fieldId [] hmem
    rw [if_pos rfl] at hnone ⊢
    intro p' hp' hkey
    obtain ⟨p, hp, heq⟩ := hback p' hp'
    have := hnone p hp ((congrArg Prod.fst heq).symm.trans hkey)
    exact fun hfield => this ((congrArg (fun x => x.2.1) heq).symm.trans hfield)
  · intro c hc p' hp' hkey
    obtain ⟨p, hp, heq⟩ := hback p' hp'
    have := h.inChannel c hc p hp ((congrArg Prod.fst heq).symm.trans hkey)
    exact (congrArg (fun x => x.2.2.channelId) heq).trans this
  · intro t ht p' hp' hkey
    obtain ⟨p, hp, heq⟩ := hback p' hp'
    have := h.inTeam t ht p hp ((congrArg Prod.fst heq).symm.trans hkey)
    exact (congrArg (fun x => x.2.2.teamId) heq).trans this

namespace Views

theorem runQuery_of_same {b b' : Board} (hb : b.Reachable) (hb' : b'.Reachable) {q : Query}
    (hq : q.AsksPresence)
    (hsame : b'.store.properties.map PropertyRow.place = b.store.properties.map PropertyRow.place)
    (type : Option ObjectType) (page : Page) :
    runQuery b'.store q type page = runQuery b.store q type page := by
  cases hcriteria : q.hasCriteria with
  | false => rw [runQuery_of_no_criteria hcriteria, runQuery_of_no_criteria hcriteria]
  | true =>
    obtain ⟨hascending, hmem⟩ := Statement.Objects.found_exact hb q type page
    obtain ⟨hascending', hmem'⟩ := Statement.Objects.found_exact hb' q type page
    have hfound : ((Statement.Objects.select q type page).found b'.store.objects).map
          ObjectRow.objectId =
        ((Statement.Objects.select q type page).found b.store.objects).map ObjectRow.objectId := by
      refine Sql.Select.ascending_ext hascending' hascending ?_
      intro i
      rw [hmem, hmem']
      exact exists_congr fun t => ⟨.of_same hq hsame.symm, .of_same hq hsame⟩
    rw [runQuery_window hb' hcriteria, runQuery_window hb hcriteria, hfound]

end Views

/-- A call that succeeds changes what it names, and nothing else. The deletion of a field answers how
many properties went with it, and a new field definition leaves the objects where they are that have
a property for it. -/
theorem calls_change_what_they_name {b : Board} (hb : b.Reachable) :
    (∀ (c : ServiceCall) b', c.run.on b = (.ok (), b') → c.Frame b.store b'.store) ∧
    (∀ id n b', (Fields.delete id).on b = (.ok n, b') →
      n = (b.store.properties.filter fun p => p.fieldId = id).length ∧
      b.store.properties.length = b'.store.properties.length + n) ∧
    ∀ id r userId f b', (Fields.update id r userId).on b = (.ok f, b') →
      ∀ q : Query, q.AsksPresence → ∀ type page,
        Views.runQuery b'.store q type page = Views.runQuery b.store q type page := by
  have hk := hb.keyed
  refine ⟨fun c b' h => ServiceCall.frame_of_ok hk h, ?_, ?_⟩
  · intro id n b' h
    obtain ⟨_, rfl, rfl⟩ := Fields.delete_eq_ok.1 h
    rw [Fields.withoutField_eq hk, List.countP_eq_length_filter]
    refine ⟨rfl, ?_⟩
    have hboth := List.length_eq_length_filter_add (l := b.store.properties)
      fun p => decide (p.fieldId = id)
    simp only [ne_eq, decide_not]
    omega
  · intro id r userId f b' h q hq type page
    have hrun : (ServiceCall.updateField id r userId).run.on b = (.ok (), b') :=
      ServiceCall.silent_eq_ok.2 ⟨f, h⟩
    have hb' : b'.Reachable := by
      have := hb.after (.call (.updateField id r userId))
      rwa [show b.after (.call (.updateField id r userId)) = b' from congrArg Prod.snd hrun] at this
    obtain ⟨fields, properties, hstore, _, hproperties⟩ := ServiceCall.frame_of_ok hk hrun
    refine Views.runQuery_of_same hb hb' hq ?_ type page
    rw [hstore]
    refine hproperties.map_eq ?_
    rintro p _ ⟨_, value, rfl⟩
    rfl

/-- A field loses an option that a post holds: the post is found by the field as before. Then the
field goes, and one property with it. -/
theorem option_removed_in_place :
    ∃ f b', (Fields.update (Identifier.nth 1)
          { name := "state", type := "select", options := some [.str "done"] } "u").on
        (Board.run { now := 0 } (optionRemoved.take 4)) = (.ok f, b') ∧
      b'.store.properties ≠ (Board.run { now := 0 } (optionRemoved.take 4)).store.properties ∧
      Views.runQuery b'.store { includes := .ofList [(Identifier.nth 1, [])] } none ⟨0, 10⟩ =
        .ok ["p"] ∧
      ∃ b'', (Fields.delete (Identifier.nth 1)).on b' = (.ok 1, b'') ∧
        b'.store.properties.length = b''.store.properties.length + 1 ∧
        (ServiceCall.deleteField (Identifier.nth 1)).Frame b'.store b''.store := by
  have hupdate : (Fields.update (Identifier.nth 1)
        { name := "state", type := "select", options := some [.str "done"] } "u").on
      (Board.run { now := 0 } (optionRemoved.take 4)) =
        (.ok ⟨Identifier.nth 1, "", "state", .select, ["done"], 0, "u"⟩,
          Board.run { now := 0 } optionRemoved) :=
    Prod.ext (by decide +kernel) (Board.after_silent rfl _).symm
  have hchanged : (Board.run { now := 0 } optionRemoved).store.properties ≠
      (Board.run { now := 0 } (optionRemoved.take 4)).store.properties := by
    decide +kernel
  have hdelete : ((Fields.delete (Identifier.nth 1)).on
      (Board.run { now := 0 } optionRemoved)).1 = .ok 1 := by
    decide +kernel
  obtain ⟨_, _, hpresence⟩ :=
    calls_change_what_they_name (Board.reachable_run 0 (optionRemoved.take 4))
  obtain ⟨hframe, hgone, _⟩ := calls_change_what_they_name (Board.reachable_run 0 optionRemoved)
  have hon : (Fields.delete (Identifier.nth 1)).on (Board.run { now := 0 } optionRemoved) =
      (.ok 1, ((Fields.delete (Identifier.nth 1)).on (Board.run { now := 0 } optionRemoved)).2) :=
    Prod.ext hdelete rfl
  refine ⟨_, _, hupdate, hchanged, ?_, _, hon, (hgone _ _ _ hon).2, ?_⟩
  · refine (hpresence _ _ _ _ _ hupdate _ ?_ none ⟨0, 10⟩).trans (by decide +kernel)
    decide +kernel
  · exact hframe _ _ (ServiceCall.silent_eq_ok.2 ⟨1, hon⟩)

end PropertyBoard
