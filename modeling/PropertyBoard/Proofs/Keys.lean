import PropertyBoard.Proofs.Run

/-!
# PropertyBoard.Proofs.Keys

Keys and references in every board that can come about.

* `Store.Keyed`: identifiers are distinct, an object has one property for a field, a property has its
  field and a member its view.
* `Keyed.of_writes`: what a call writes keeps this. `Board.Reachable.keyed`: it always holds.
* `Board.Reachable.induct_writes`: induction over what calls write.
-/

namespace PropertyBoard

open Store

namespace Store

structure Keyed (s : Store) : Prop where
  fields : (s.fields.map FieldRow.id).Nodup
  properties : (s.properties.map PropertyRow.id).Nodup
  pairs : (s.properties.map fun p => (p.objectId, p.fieldId)).Nodup
  fieldOf : ∀ p ∈ s.properties, s.hasField p.fieldId = true
  views : (s.views.map ViewRow.id).Nodup
  members : s.members.Nodup
  viewOf : ∀ m ∈ s.members, s.hasView m.viewId = true

theorem nodup_map_append {ρ κ : Type} {key : ρ → κ} {rows : List ρ} {r : ρ}
    (h : (rows.map key).Nodup) (hr : key r ∉ rows.map key) : ((rows ++ [r]).map key).Nodup := by
  rw [List.map_append, List.map_singleton, ← List.concat_eq_append, List.nodup_concat]
  exact ⟨hr, h⟩

/-- What tells the properties of the board apart, and what they refer to. -/
def PropertyRow.keys (p : PropertyRow) : String × String × String :=
  (p.id, p.objectId, p.fieldId)

theorem keys_stamped (objectId : String) (scope : Scope) (rows : List PropertyRow) :
    (stamped objectId scope rows).map PropertyRow.keys = rows.map PropertyRow.keys := by
  unfold stamped
  rw [List.map_map]
  refine List.map_congr_left ?_
  intro p _
  by_cases hp : p.objectId = objectId <;> simp [PropertyRow.keys, PropertyRow.stamp, hp]

theorem keys_withValue (id value : String) (rows : List PropertyRow) :
    (withValue id value rows).map PropertyRow.keys = rows.map PropertyRow.keys := by
  unfold withValue
  rw [List.map_map]
  refine List.map_congr_left ?_
  intro p _
  by_cases hp : p.id = id <;> simp [PropertyRow.keys, hp]

theorem keys_conformedTo (f : Field) (rows : List PropertyRow) :
    (Fields.conformedTo f rows).map PropertyRow.keys = rows.map PropertyRow.keys := by
  unfold Fields.conformedTo
  rw [List.map_map]
  refine List.map_congr_left ?_
  intro p _
  by_cases hp : p.fieldId = f.id <;> simp [PropertyRow.keys, hp]

theorem fieldIds_replaced (f : Field) (text : String) (rows : List FieldRow) :
    (rows.map fun r => if r.id = f.id then Fields.rowOf f text else r).map FieldRow.id =
      rows.map FieldRow.id := by
  rw [List.map_map]
  refine List.map_congr_left ?_
  intro r _
  by_cases hr : r.id = f.id <;> simp [Fields.rowOf, hr]

theorem viewIds_updated {id : String} {parts : Statement.Views.Parts} {q : Sql.Update ViewRow}
    (hq : Statement.Views.update? id parts = some q) (rows : List ViewRow) :
    (q.on rows).1.map ViewRow.id = rows.map ViewRow.id := by
  rw [Sql.Update.on_eq, List.map_map]
  refine List.map_congr_left ?_
  intro r _
  simp only [Function.comp]
  split
  · exact Statement.Views.id_change hq r
  · rfl

/-- Which fields there are is told by their identifiers. -/
theorem hasField_iff_mem {s : Store} {id : String} :
    s.hasField id = true ↔ id ∈ s.fields.map FieldRow.id := by
  rw [hasField_iff, List.mem_map]

theorem hasView_iff_mem {s : Store} {id : String} :
    s.hasView id = true ↔ id ∈ s.views.map ViewRow.id := by
  rw [hasView_iff, List.mem_map]

namespace Keyed

variable {s s' : Store}

theorem empty : Keyed {} := by
  constructor <;> simp

theorem of_same (h : s.Keyed) (hfields : s'.fields = s.fields)
    (hproperties : s'.properties = s.properties) (hviews : s'.views = s.views)
    (hmembers : s'.members = s.members) : s'.Keyed where
  fields := hfields ▸ h.fields
  properties := hproperties ▸ h.properties
  pairs := hproperties ▸ h.pairs
  fieldOf := by
    intro p hp
    rw [hproperties] at hp
    rw [hasField, hfields]
    exact h.fieldOf p hp
  views := hviews ▸ h.views
  members := hmembers ▸ h.members
  viewOf := by
    intro m hm
    rw [hmembers] at hm
    rw [hasView, hviews]
    exact h.viewOf m hm

/-- Properties may lose rows and change in all but their keys. -/
theorem with_properties (h : s.Keyed) {rows : List PropertyRow}
    (hkeys : (rows.map PropertyRow.keys).Sublist (s.properties.map PropertyRow.keys)) :
    { s with properties := rows }.Keyed where
  fields := h.fields
  properties := by
    have hsub := hkeys.map Prod.fst
    simp only [List.map_map] at hsub
    exact h.properties.sublist hsub
  pairs := by
    have hsub := hkeys.map Prod.snd
    simp only [List.map_map] at hsub
    exact h.pairs.sublist hsub
  fieldOf := by
    intro p hp
    obtain ⟨p', hp', heq⟩ := List.mem_map.1 (hkeys.subset (List.mem_map_of_mem hp))
    simp only [PropertyRow.keys, Prod.mk.injEq] at heq
    rw [← heq.2.2]
    exact h.fieldOf p' hp'
  views := h.views
  members := h.members
  viewOf := h.viewOf

theorem with_fields (h : s.Keyed) {rows : List FieldRow}
    (hids : rows.map FieldRow.id = s.fields.map FieldRow.id) : { s with fields := rows }.Keyed where
  fields := hids ▸ h.fields
  properties := h.properties
  pairs := h.pairs
  fieldOf := by
    intro p hp
    rw [hasField_iff_mem]
    show p.fieldId ∈ rows.map FieldRow.id
    rw [hids, ← hasField_iff_mem]
    exact h.fieldOf p hp
  views := h.views
  members := h.members
  viewOf := h.viewOf

theorem add_field (h : s.Keyed) {r : FieldRow} (hnew : s.hasField r.id = false) :
    { s with fields := s.fields ++ [r] }.Keyed where
  fields := by
    have hnot : r.id ∉ s.fields.map FieldRow.id := by
      rw [← hasField_iff_mem, hnew]
      simp
    exact nodup_map_append h.fields hnot
  properties := h.properties
  pairs := h.pairs
  fieldOf := by
    intro p hp
    obtain ⟨r', hr', hid⟩ := hasField_iff.1 (h.fieldOf p hp)
    exact hasField_iff.2 ⟨r', List.mem_append_left _ hr', hid⟩
  views := h.views
  members := h.members
  viewOf := h.viewOf

theorem add_property (h : s.Keyed) {r : PropertyRow} (hclash : s.properties.any r.clashes = false)
    (hfield : s.hasField r.fieldId = true) :
    { s with properties := s.properties ++ [r] }.Keyed where
  fields := h.fields
  properties := by
    refine nodup_map_append h.properties ?_
    intro hid
    obtain ⟨p, hp, heq⟩ := List.mem_map.1 hid
    have := List.any_eq_false.1 hclash p hp
    simp [PropertyRow.clashes, heq] at this
  pairs := by
    refine nodup_map_append h.pairs ?_
    intro hpair
    obtain ⟨p, hp, heq⟩ := List.mem_map.1 hpair
    obtain ⟨hobject, hfield⟩ := Prod.mk.inj heq
    have := List.any_eq_false.1 hclash p hp
    simp [PropertyRow.clashes, hobject, hfield] at this
  fieldOf := by
    intro p hp
    rcases List.mem_append.1 hp with hp | hp
    · exact h.fieldOf p hp
    · rw [List.mem_singleton.1 hp]
      exact hfield
  views := h.views
  members := h.members
  viewOf := h.viewOf

theorem without_field (h : s.Keyed) (id : String) : (Fields.withoutField id s).Keyed where
  fields := h.fields.sublist (List.filter_sublist.map _)
  properties :=
    h.properties.sublist ((List.filter_sublist.trans List.filter_sublist).map _)
  pairs := h.pairs.sublist ((List.filter_sublist.trans List.filter_sublist).map _)
  fieldOf := by
    intro p hp
    exact (List.mem_filter.1 hp).2
  views := h.views
  members := h.members
  viewOf := h.viewOf

theorem add_view (h : s.Keyed) {r : ViewRow} (hnew : s.hasView r.id = false) :
    { s with views := s.views ++ [r] }.Keyed where
  fields := h.fields
  properties := h.properties
  pairs := h.pairs
  fieldOf := h.fieldOf
  views := by
    refine nodup_map_append h.views ?_
    rw [← hasView_iff_mem, hnew]
    simp
  members := h.members
  viewOf := by
    intro m hm
    obtain ⟨r', hr', hid⟩ := hasView_iff.1 (h.viewOf m hm)
    exact hasView_iff.2 ⟨r', List.mem_append_left _ hr', hid⟩

theorem with_views (h : s.Keyed) {rows : List ViewRow}
    (hids : rows.map ViewRow.id = s.views.map ViewRow.id) : { s with views := rows }.Keyed where
  fields := h.fields
  properties := h.properties
  pairs := h.pairs
  fieldOf := h.fieldOf
  views := hids ▸ h.views
  members := h.members
  viewOf := by
    intro m hm
    rw [hasView_iff_mem]
    show m.viewId ∈ rows.map ViewRow.id
    rw [hids, ← hasView_iff_mem]
    exact h.viewOf m hm

theorem add_member (h : s.Keyed) {m : Member} (hnew : m ∉ s.members)
    (hview : s.hasView m.viewId = true) : { s with members := s.members ++ [m] }.Keyed where
  fields := h.fields
  properties := h.properties
  pairs := h.pairs
  fieldOf := h.fieldOf
  views := h.views
  members := by
    rw [← List.concat_eq_append, List.nodup_concat]
    exact ⟨hnew, h.members⟩
  viewOf := by
    intro m' hm
    rcases List.mem_append.1 hm with hm | hm
    · exact h.viewOf m' hm
    · rw [List.mem_singleton.1 hm]
      exact hview

/-- What a call writes keeps keys distinct and references good. -/
theorem of_writes {b : Board} {c : ServiceCall} (h : b.store.Keyed)
    (hw : ServiceCall.Writes b c s') : s'.Keyed := by
  cases hw with
  | nothing => exact h
  | createField _ _ _ hnew => exact h.add_field hnew
  | @updateField id r userId text input f _ _ _ _ _ =>
    have hfields := h.with_fields (fieldIds_replaced f text b.store.fields)
    refine hfields.with_properties ?_
    rw [keys_conformedTo]
  | @deleteField id _ => exact h.without_field id
  | @createProperty input userId text f value scope r hfield _ _ _ hr hclash =>
    have hhas : b.store.hasField r.fieldId = true := by
      obtain ⟨row, hrow, hid, hf⟩ := Fields.mem_of_find hfield
      rw [hr, hasField_iff]
      exact ⟨row, hrow, (FieldRow.id_of_field? hf).symm⟩
    refine (h.add_property hclash hhas).with_properties ?_
    rw [keys_stamped]
  | @updateProperty id raw userId text p f value _ _ _ _ =>
    refine h.with_properties ?_
    rw [keys_withValue]
  | @deleteProperty id => exact h.with_properties (List.filter_sublist.map _)
  | resyncObject _ _ =>
    refine h.with_properties ?_
    rw [keys_stamped]
  | createView _ _ _ _ hnew => exact h.add_view hnew
  | updateView _ hq _ => exact h.with_views (viewIds_updated hq _)
  | addMember _ hview hnew =>
    obtain ⟨row, hrow, hid⟩ := Views.mem_of_find hview
    exact h.add_member hnew (hasView_iff.2 ⟨row, hrow, hid⟩)

end Keyed
end Store

namespace Fields

/-- Identifiers are distinct, so a field that was found is what the row of its identifier says. -/
theorem field?_of_find {s : Store} (hs : s.Keyed) {id : String} {f : Field} {r : FieldRow}
    (h : find s id = .ok (some f)) (hr : r ∈ s.fields) (hid : r.id = id) : r.field? = some f := by
  obtain ⟨row, hrow, hrowId, hread⟩ := mem_of_find h
  have hsame : row = r := List.inj_on_of_nodup_map hs.fields hrow hr (hrowId.trans hid.symm)
  rw [← hsame]
  exact hread

end Fields

namespace Properties

/-- Identifiers are distinct, so a property that was found is the row of its identifier. -/
theorem fieldId_of_find {s : Store} (hs : s.Keyed) {id : String} {p : Property} {r : PropertyRow}
    (h : find s id = .ok (some p)) (hr : r ∈ s.properties) (hid : r.id = id) :
    p.fieldId = r.fieldId := by
  obtain ⟨row, hrow, hrowId, field, hread⟩ := mem_of_find h
  have hsame : row = r := List.inj_on_of_nodup_map hs.properties hrow hr (hrowId.trans hid.symm)
  obtain ⟨_, _, _, _, _, _, _, _, rfl⟩ := PropertyRow.property?_eq_some.1 hread
  rw [← hsame]

end Properties

namespace Board

theorem keyed_after {b : Board} (h : b.store.Keyed) (a : Action) : (b.after a).store.Keyed := by
  rcases b.after_cases a with ⟨hfields, hproperties, hviews, hmembers⟩ | ⟨c, rfl, hok⟩
  · exact h.of_same hfields hproperties hviews hmembers
  · exact h.of_writes (ServiceCall.writes_of_ok h.properties hok)

theorem keyed_run {b : Board} (h : b.store.Keyed) (actions : List Action) :
    (b.run actions).store.Keyed :=
  run_induct (P := fun b => b.store.Keyed) (fun _ a hb => keyed_after hb a) h actions

theorem Reachable.keyed {b : Board} (h : b.Reachable) : b.store.Keyed :=
  h.induct (P := fun b => b.store.Keyed) (fun _ _ => Store.Keyed.empty) fun _ a _ hb =>
    keyed_after hb a

/-- What holds of the empty store, does not look beyond the tables of the board and is kept by what
calls write, always holds. -/
theorem Reachable.induct_writes {P : Store → Prop} (hempty : P {})
    (hsame : ∀ s s', P s → s'.fields = s.fields → s'.properties = s.properties →
      s'.views = s.views → s'.members = s.members → P s')
    (hwrites : ∀ b c s', b.Reachable → P b.store → ServiceCall.Writes b c s' → P s')
    {b : Board} (h : b.Reachable) : P b.store := by
  refine h.induct (P := fun b => P b.store) (fun _ _ => hempty) ?_
  intro b a hb hP
  rcases b.after_cases a with ⟨hfields, hproperties, hviews, hmembers⟩ | ⟨c, rfl, hok⟩
  · exact hsame _ _ hP hfields hproperties hviews hmembers
  · exact hwrites b c _ hb hP (ServiceCall.writes_of_ok hb.keyed.properties hok)

end Board
end PropertyBoard
