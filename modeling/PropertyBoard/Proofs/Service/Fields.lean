import Mathlib.Data.List.Nodup
import PropertyBoard.Proofs.Call
import PropertyBoard.Proofs.Json.Texts
import PropertyBoard.Proofs.Statement
import PropertyBoard.Proofs.Store
import PropertyBoard.Service.Fields

/-!
# PropertyBoard.Proofs.Service.Fields

What each call about fields does, when it succeeds.

* `Fields.create_eq_ok`, `Fields.update_eq_ok`, `Fields.delete_eq_ok`: the exact conditions, and the
  store afterwards.
* `Fields.conformRow`: a property after its field has changed. `Fields.conformAll_eq_ok`: conforming
  changes every property of the field in this way, and nothing else. It goes by the identifiers of
  properties, so these have to be distinct.
* `Fields.atomic_create`, `Fields.atomic_update`: a call that is refused leaves the store as it was.
-/

namespace PropertyBoard

namespace Store

theorem FieldRow.field?_eq_some {r : FieldRow} {f : Field} :
    r.field? = some f ↔
      ∃ type options,
        Named.ofName? r.type = some type ∧ stored? Codec.texts r.options = some options ∧
        f = { id := r.id, teamId := r.teamId, name := r.name, type, options
              updatedAt := r.updatedAt, updatedBy := r.updatedBy } := by
  simp only [field?, Option.bind_eq_bind, Option.bind_eq_some_iff, Option.some.injEq,
    eq_comm (b := f)]
  constructor
  · rintro ⟨type, htype, options, hoptions, hf⟩
    exact ⟨type, options, htype, hoptions, hf⟩
  · rintro ⟨type, options, htype, hoptions, hf⟩
    exact ⟨type, htype, options, hoptions, hf⟩

theorem FieldRow.id_of_field? {r : FieldRow} {f : Field} (h : r.field? = some f) : f.id = r.id := by
  obtain ⟨_, _, _, _, rfl⟩ := field?_eq_some.1 h
  rfl

theorem FieldRow.name_of_field? {r : FieldRow} {f : Field} (h : r.field? = some f) :
    f.name = r.name := by
  obtain ⟨_, _, _, _, rfl⟩ := field?_eq_some.1 h
  rfl

/-- What is read of a row that was written for a field. -/
theorem field?_rowOf {f : Field} {text : String} (h : Fields.encodeOptions f.id f.options = .ok text) :
    (Fields.rowOf f text).field? = some f := by
  obtain ⟨_, rfl⟩ := StoredJson.encode_eq_ok.1 h
  simp [FieldRow.field?, Fields.rowOf]

end Store

namespace Fields

open Store

variable {s s' : Store} {b b' : Board} {f : Field} {id userId : String}

theorem find_eq_ok_some :
    find s id = .ok (some f) ↔
      ∃ r, (s.fields.find? fun r => r.id = id) = some r ∧ r.field? = some f := by
  simp only [find, query, Statement.Fields.on_byId, Refusal.ofStorage, Except.bind_eq_ok,
    Except.ok.injEq, exists_eq_left', readFirst_eq_ok_some, List.head?_filter]

/-- A field that was found is the one that was looked for, and its row is there. -/
theorem mem_of_find (h : find s id = .ok (some f)) :
    ∃ r ∈ s.fields, r.id = id ∧ r.field? = some f := by
  obtain ⟨r, hr, hf⟩ := find_eq_ok_some.1 h
  exact ⟨r, List.mem_of_find?_eq_some hr, by simpa using List.find?_some hr, hf⟩

theorem id_of_find (h : find s id = .ok (some f)) : f.id = id := by
  obtain ⟨r, _, hid, hf⟩ := mem_of_find h
  rw [← hid, FieldRow.id_of_field? hf]

theorem get_eq_ok : get s id = .ok f ↔ find s id = .ok (some f) :=
  Except.found_eq_ok (fun _ => rfl) rfl

theorem create_eq_ok {r : FieldRequest} :
    (create r userId).on b = (.ok f, b') ↔
      r.id = "" ∧ ∃ input, r.check = .ok input ∧
        f = ofInput input b.nextId b.now userId ∧
        ∃ text, encodeOptions f.id f.options = .ok text ∧ b.store.hasField f.id = false ∧
          b' = { b with
            store := { b.store with fields := b.store.fields ++ [rowOf f text] }
            drawn := b.drawn + 1 } := by
  unfold create
  by_cases hid : r.id = ""
  · simp only [hid, ne_eq, not_true_eq_false, if_false, true_and, Call.bind_eq_ok, Call.check_eq_ok,
      Call.drawId_eq_ok, Call.now_eq_ok, Call.make_eq_ok, Change.insert_eq_ok, insertField_eq_ok,
      Call.pure_eq_ok]
    constructor
    · rintro ⟨input, _, ⟨hin, rfl⟩, _, _, ⟨rfl, rfl⟩, _, _, ⟨rfl, rfl⟩, text, _, ⟨htext, rfl⟩, _, _,
        ⟨_, ⟨hnew, rfl⟩, rfl⟩, rfl, rfl⟩
      exact ⟨input, hin, rfl, text, htext, hnew, rfl⟩
    · rintro ⟨input, hin, rfl, text, htext, hnew, rfl⟩
      exact ⟨input, _, ⟨hin, rfl⟩, _, _, ⟨rfl, rfl⟩, _, _, ⟨rfl, rfl⟩, text, _, ⟨htext, rfl⟩, (), _,
        ⟨_, ⟨hnew, rfl⟩, rfl⟩, rfl, rfl⟩
  · simp [hid, Call.on, Call.check]

/-! ## Conforming -/

/-- A property after its field has changed. -/
def conformRow (f : Field) (r : PropertyRow) : PropertyRow :=
  match conformed? f r with
  | .ok (some text) => { r with value := text }
  | _ => r

@[simp] theorem conformRow_id (f : Field) (r : PropertyRow) : (conformRow f r).id = r.id := by
  unfold conformRow
  split <;> rfl

@[simp] theorem conformRow_objectId (f : Field) (r : PropertyRow) :
    (conformRow f r).objectId = r.objectId := by
  unfold conformRow
  split <;> rfl

@[simp] theorem conformRow_fieldId (f : Field) (r : PropertyRow) :
    (conformRow f r).fieldId = r.fieldId := by
  unfold conformRow
  split <;> rfl

theorem conformRow_of_none {f : Field} {r : PropertyRow} (h : conformed? f r = .ok none) :
    conformRow f r = r := by
  unfold conformRow
  rw [h]

theorem conformRow_of_some {f : Field} {r : PropertyRow} {text : String}
    (h : conformed? f r = .ok (some text)) : conformRow f r = { r with value := text } := by
  unfold conformRow
  rw [h]

/-- Rows of which some are conformed, told by their identifiers. -/
def conformThose (f : Field) (ids : List String) (rows : List PropertyRow) : List PropertyRow :=
  rows.map fun p => if p.id ∈ ids then conformRow f p else p

/-- The text for one row goes where the row is. -/
theorem conformThose_cons {rows : List PropertyRow} {r : PropertyRow} {text : String}
    {ids : List String} (hids : (rows.map PropertyRow.id).Nodup) (hr : r ∈ rows)
    (hrest : r.id ∉ ids) (h : conformed? f r = .ok (some text)) :
    conformThose f (r.id :: ids) rows = conformThose f ids (withValue r.id text rows) := by
  unfold conformThose withValue
  rw [List.map_map]
  refine List.map_congr_left ?_
  intro p hp
  by_cases hpr : p.id = r.id
  · have : p = r := List.inj_on_of_nodup_map hids hp hr hpr
    subst this
    simp [hrest, conformRow_of_some h]
  · simp [hpr]

/-- A row that stays as it is may count as conformed. -/
theorem conformThose_cons_of_none {rows : List PropertyRow} {r : PropertyRow} {ids : List String}
    (hids : (rows.map PropertyRow.id).Nodup) (hr : r ∈ rows) (h : conformed? f r = .ok none) :
    conformThose f (r.id :: ids) rows = conformThose f ids rows := by
  refine List.map_congr_left ?_
  intro p hp
  by_cases hpr : p.id = r.id
  · have : p = r := List.inj_on_of_nodup_map hids hp hr hpr
    subst this
    simp [conformRow_of_none h]
  · simp [hpr]

theorem conformRows_eq_ok {rows : List PropertyRow} (hsub : ∀ r ∈ rows, r ∈ s.properties)
    (hrows : (rows.map PropertyRow.id).Nodup) (hids : (s.properties.map PropertyRow.id).Nodup) :
    (∃ n, conformRows f rows s = .ok (n, s')) ↔
      (∀ r ∈ rows, ∃ text?, conformed? f r = .ok text?) ∧
        s' = { s with
          properties := conformThose f (rows.map PropertyRow.id) s.properties } := by
  induction rows generalizing s with
  | nil =>
    have hthose : conformThose f [] s.properties = s.properties := by
      simp [conformThose]
    rw [List.map_nil, hthose]
    simp [conformRows, eq_comm (a := s')]
  | cons r rest ih =>
    obtain ⟨hr, hrest⟩ := List.nodup_cons.1 hrows
    obtain ⟨hmem, hsub⟩ := List.forall_mem_cons.1 hsub
    rw [List.forall_mem_cons, List.map_cons]
    cases h : conformed? f r with
    | error e => simp [conformRows, h, Change.bind_eq_ok]
    | ok text? =>
      cases text? with
      | none =>
        have hstep : ∀ n, conformRows f (r :: rest) s = .ok (n, s') ↔
            conformRows f rest s = .ok (n, s') := by
          intro n
          simp [conformRows, h, Change.bind_eq_ok]
        simp only [hstep, ih hsub hrest hids, conformThose_cons_of_none hids hmem h,
          Except.ok.injEq, exists_eq', true_and]
      | some text =>
        have hstep : (∃ n, conformRows f (r :: rest) s = .ok (n, s')) ↔ ∃ n, conformRows f rest
            { s with properties := withValue r.id text s.properties } = .ok (n, s') := by
          simp [conformRows, h, Change.bind_eq_ok]
        have hsub' : ∀ x ∈ rest, x ∈ withValue r.id text s.properties := by
          intro x hx
          refine mem_withValue_of_ne (hsub x hx) ?_
          intro hxr
          exact hr (hxr ▸ List.mem_map_of_mem hx)
        rw [hstep, ih hsub' hrest (by rwa [map_id_withValue]),
          conformThose_cons hids hmem hr h]
        simp

/-- The properties after their field has become the given one. -/
def conformedTo (f : Field) (rows : List PropertyRow) : List PropertyRow :=
  rows.map fun p => if p.fieldId = f.id then conformRow f p else p

/-- All properties of the field are conformed, and no other property. -/
theorem conformAll_eq_ok (hids : (s.properties.map PropertyRow.id).Nodup) :
    (∃ n, conformAll f s = .ok (n, s')) ↔
      (∀ r ∈ s.properties, r.fieldId = f.id → ∃ text?, conformed? f r = .ok text?) ∧
        s' = { s with properties := conformedTo f s.properties } := by
  obtain ⟨found, hfound, hperm, _⟩ := Statement.Properties.on_valuesOfField f.id s.properties
  have hmem : ∀ r, r ∈ found ↔ r ∈ s.properties ∧ r.fieldId = f.id := by
    intro r
    rw [hperm.mem_iff, List.mem_filter, decide_eq_true_eq]
  have hnodup : (found.map PropertyRow.id).Nodup := by
    rw [(hperm.map PropertyRow.id).nodup_iff]
    exact hids.sublist (List.filter_sublist.map _)
  have hthose : conformThose f (found.map PropertyRow.id) s.properties =
      conformedTo f s.properties := by
    refine List.map_congr_left ?_
    intro p hp
    have hiff : p.id ∈ found.map PropertyRow.id ↔ p.fieldId = f.id := by
      rw [List.mem_map]
      constructor
      · rintro ⟨r, hr, hrp⟩
        obtain ⟨hr, hrf⟩ := (hmem r).1 hr
        rwa [← List.inj_on_of_nodup_map hids hr hp hrp]
      · intro hpf
        exact ⟨p, (hmem p).2 ⟨hp, hpf⟩, rfl⟩
    simp only [hiff]
  have hstep : (∃ n, conformAll f s = .ok (n, s')) ↔
      ∃ n, conformRows f found s = .ok (n, s') := by
    simp [conformAll, Change.bind_eq_ok, query, hfound]
  rw [hstep, conformRows_eq_ok (fun r hr => ((hmem r).1 hr).1) hnodup hids, hthose]
  simp only [hmem, and_imp]

/-! ## Updating and deleting -/

/-- The store after a field was replaced by the given one. -/
def replaced (f : Field) (text : String) (s : Store) : Store :=
  { s with
    fields := s.fields.map fun r => if r.id = f.id then rowOf f text else r
    properties := conformedTo f s.properties }

theorem find?_replaced {f : Field} {text : String} {rows : List FieldRow}
    (h : rows.any (fun r => r.id = f.id) = true) :
    (rows.map fun r => if r.id = f.id then rowOf f text else r).find? (fun r => r.id = f.id) =
      some (rowOf f text) := by
  induction rows with
  | nil => simp at h
  | cons r rest ih =>
    by_cases hr : r.id = f.id
    · simp [hr, rowOf]
    · have hrest : rest.any (fun r => r.id = f.id) = true := by
        simpa [hr] using h
      simpa [hr] using ih hrest

theorem replace_of_missing {text : String} (h : s.hasField f.id = false) :
    replace (rowOf f text) s = .error (.notFound .field f.id) := by
  have hnone : (s.fields.countP fun r => r.id = f.id) = 0 := by
    simpa [hasField] using h
  refine (Change.bind_of_ok (Change.updateFields_eq_ok.2 ⟨rfl, rfl⟩)).trans ?_
  rw [Statement.Fields.on_update]
  exact congrFun (if_pos hnone) _

/-- A field that is there becomes the given one, and then its properties are conformed. -/
theorem replace_of_hasField {text : String} (htext : encodeOptions f.id f.options = .ok text)
    (h : s.hasField f.id = true) :
    replace (rowOf f text) s = conformAll f { s with
      fields := s.fields.map fun r => if r.id = f.id then rowOf f text else r } := by
  have hsome : (s.fields.countP fun r => r.id = f.id) ≠ 0 := by
    simpa [hasField] using h
  have hget : get { s with
      fields := s.fields.map fun r => if r.id = f.id then rowOf f text else r } f.id = .ok f := by
    rw [get_eq_ok, find_eq_ok_some]
    exact ⟨rowOf f text, find?_replaced h, field?_rowOf htext⟩
  refine (Change.bind_of_ok (Change.updateFields_eq_ok.2 ⟨rfl, rfl⟩)).trans ?_
  rw [Statement.Fields.on_update]
  refine (congrFun (if_neg hsome) _).trans ?_
  exact Change.bind_of_ok (Change.look_eq_ok.2 ⟨hget, rfl⟩)

theorem replace_eq_ok {text : String} (htext : encodeOptions f.id f.options = .ok text)
    (hids : (s.properties.map PropertyRow.id).Nodup) :
    (∃ n, replace (rowOf f text) s = .ok (n, s')) ↔
      s.hasField f.id = true ∧
        (∀ r ∈ s.properties, r.fieldId = f.id → ∃ text?, conformed? f r = .ok text?) ∧
        s' = replaced f text s := by
  cases hfield : s.hasField f.id with
  | false => simp [replace_of_missing hfield]
  | true =>
    simp only [replace_of_hasField htext hfield, true_and]
    rw [conformAll_eq_ok (by exact hids)]
    simp [replaced]

theorem update_eq_ok {r : FieldRequest} (hids : (b.store.properties.map PropertyRow.id).Nodup) :
    (update id r userId).on b = (.ok f, b') ↔
      (r.id = "" ∨ r.id = id) ∧ ∃ input, r.check = .ok input ∧
        f = ofInput input id b.now userId ∧
        ∃ text, encodeOptions id f.options = .ok text ∧ b.store.hasField id = true ∧
          (∀ p ∈ b.store.properties, p.fieldId = id → ∃ text?, conformed? f p = .ok text?) ∧
          b' = { b with store := replaced f text b.store } := by
  unfold update
  by_cases hid : r.id ≠ "" ∧ r.id ≠ id
  · have hnot : ¬(r.id = "" ∨ r.id = id) := by
      rintro (h | h)
      · exact hid.1 h
      · exact hid.2 h
    simp [if_pos hid, hnot]
  · have hor : r.id = "" ∨ r.id = id := by
      by_cases h : r.id = ""
      · exact .inl h
      · exact .inr (Classical.not_not.1 fun h' => hid ⟨h, h'⟩)
    simp only [if_neg hid, hor, true_and, Call.bind_eq_ok, Call.check_eq_ok, Call.now_eq_ok,
      Call.make_eq_ok, Call.pure_eq_ok]
    constructor
    · rintro ⟨input, _, ⟨hin, rfl⟩, _, _, ⟨rfl, rfl⟩, text, _, ⟨htext, rfl⟩, n, _,
        ⟨s₁, hreplace, rfl⟩, rfl, rfl⟩
      obtain ⟨hfield, hall, rfl⟩ := (replace_eq_ok htext hids).1 ⟨n, hreplace⟩
      exact ⟨input, hin, rfl, text, htext, hfield, hall, rfl⟩
    · rintro ⟨input, hin, rfl, text, htext, hfield, hall, rfl⟩
      obtain ⟨n, hreplace⟩ := (replace_eq_ok htext hids).2 ⟨hfield, hall, rfl⟩
      exact ⟨input, _, ⟨hin, rfl⟩, _, _, ⟨rfl, rfl⟩, text, _, ⟨htext, rfl⟩, n, _,
        ⟨_, hreplace, rfl⟩, rfl, rfl⟩

/-- The store without a field and its properties. -/
def withoutField (id : String) (s : Store) : Store :=
  { s with properties := s.properties.filter fun r => r.fieldId ≠ id }.keepFields
    (s.fields.filter fun r => r.id ≠ id)

theorem delete_eq_ok {n : Nat} :
    (delete id).on b = (.ok n, b') ↔
      b.store.hasField id = true ∧ n = (b.store.properties.countP fun r => r.fieldId = id) ∧
        b' = { b with store := withoutField id b.store } := by
  by_cases hnone : ∀ r ∈ b.store.fields, ¬r.id = id
  · have hfield : b.store.hasField id = false := by
      simpa [hasField] using hnone
    simp [delete, remove, Change.bind_eq_ok, if_pos hnone, hfield]
  · have hfield : b.store.hasField id = true := by
      simpa [hasField] using hnone
    simp [delete, remove, Change.bind_eq_ok, if_neg hnone, hfield, withoutField, eq_comm (a := n),
      eq_comm (a := b')]

/-! ## Refused calls -/

theorem atomic_create (r : FieldRequest) (userId : String) : (create r userId).Atomic := by
  unfold create
  split
  · exact (Call.quiet_check _).atomic
  · refine .after_quiet (Call.quiet_check _) fun input => ?_
    refine .after_quiet Call.quiet_drawId fun id => ?_
    refine .after_quiet Call.quiet_now fun now => ?_
    refine .after_quiet (Call.quiet_check _) fun options => ?_
    exact (Call.atomic_make _).then_pure _

theorem atomic_update (id : String) (r : FieldRequest) (userId : String) :
    (update id r userId).Atomic := by
  unfold update
  split
  · exact (Call.quiet_check _).atomic
  · refine .after_quiet (Call.quiet_check _) fun input => ?_
    refine .after_quiet Call.quiet_now fun now => ?_
    refine .after_quiet (Call.quiet_check _) fun options => ?_
    exact (Call.atomic_make _).then_pure _

end Fields
end PropertyBoard
