import PropertyBoard.Proofs.Keys
import PropertyBoard.Proofs.Value

/-!
# PropertyBoard.Proofs.Rows

What the rows of the board say, in every board that can come about.

* `Store.Written`: each row of a field and of a property is one that was written for such a thing, so
  it can be read. `Board.Reachable.written`: it always holds.
* `Store.Fitting`: each property holds a list of texts that its field accepts as it stands.
  `Board.Reachable.fitting`: it always holds.
* `Board.Reachable.fits_own_field`: what this means for a property and its field.
-/

namespace PropertyBoard

open Store

namespace Store

/-- A row that was written for a field, whose identifier was drawn. -/
def FieldRow.Written (r : FieldRow) : Prop :=
  ∃ f text, (∀ c ∈ f.id.toList, Identifier.IsDigit c) ∧
    Fields.encodeOptions f.id f.options = .ok text ∧ r = Fields.rowOf f text

def PropertyRow.Written (p : PropertyRow) : Prop :=
  (∃ type : ObjectType, p.objectType = type.name) ∧
    ∃ texts, Fields.encodeValue p.id texts = .ok p.value

structure Written (s : Store) : Prop where
  fields : ∀ r ∈ s.fields, r.Written
  properties : ∀ p ∈ s.properties, p.Written

theorem FieldRow.Written.reads {r : FieldRow} (h : r.Written) : ∃ f, r.field? = some f := by
  obtain ⟨f, text, _, htext, rfl⟩ := h
  exact ⟨f, field?_rowOf htext⟩

theorem FieldRow.Written.digits {r : FieldRow} (h : r.Written) :
    ∀ c ∈ r.id.toList, Identifier.IsDigit c := by
  obtain ⟨f, text, hdigits, _, rfl⟩ := h
  exact hdigits

theorem PropertyRow.Written.reads {p : PropertyRow} (h : p.Written) :
    ∃ texts, p.value = (Json.ofTexts texts).text ∧ stored? Codec.texts p.value = some texts := by
  obtain ⟨_, texts, htexts⟩ := h
  obtain ⟨_, hvalue⟩ := StoredJson.encode_eq_ok.1 htexts
  refine ⟨texts, hvalue.symm, ?_⟩
  rw [← hvalue, stored?_texts]

/-! ## Rows that are changed -/

theorem PropertyRow.Written.stamp {p : PropertyRow} (h : p.Written) (scope : Scope) :
    (p.stamp scope).Written := h

theorem mem_stamped {objectId : String} {scope : Scope} {rows : List PropertyRow}
    {p : PropertyRow} :
    p ∈ stamped objectId scope rows ↔
      ∃ old ∈ rows, p = if old.objectId = objectId then old.stamp scope else old := by
  simp only [stamped, List.mem_map, eq_comm]

/-- A row that got another scope is still of its object. -/
theorem old_of_mem_stamped {objectId : String} {scope : Scope} {rows : List PropertyRow}
    {p : PropertyRow} (hp : p ∈ stamped objectId scope rows) :
    ∃ old ∈ rows, old.objectKey = p.objectKey := by
  obtain ⟨old, hold, rfl⟩ := mem_stamped.1 hp
  refine ⟨old, hold, ?_⟩
  split <;> rfl

/-- Properties of other objects keep their scope. -/
theorem mem_stamped_iff_of_ne {objectId : String} {scope : Scope} {rows : List PropertyRow}
    {row : PropertyRow} (hne : row.objectId ≠ objectId) :
    row ∈ stamped objectId scope rows ↔ row ∈ rows := by
  constructor
  · intro hrow
    obtain ⟨old, hold, rfl⟩ := mem_stamped.1 hrow
    by_cases hid : old.objectId = objectId
    · rw [if_pos hid] at hne
      exact absurd hid hne
    · rw [if_neg hid]
      exact hold
  · intro hrow
    refine mem_stamped.2 ⟨row, hrow, ?_⟩
    rw [if_neg hne]

theorem mem_withValue {id value : String} {rows : List PropertyRow} {p : PropertyRow} :
    p ∈ withValue id value rows ↔
      ∃ old ∈ rows, p = if old.id = id then { old with value } else old := by
  simp only [withValue, List.mem_map, eq_comm]

theorem mem_conformedTo {f : Field} {rows : List PropertyRow} {p : PropertyRow} :
    p ∈ Fields.conformedTo f rows ↔
      ∃ old ∈ rows, p = if old.fieldId = f.id then Fields.conformRow f old else old := by
  simp only [Fields.conformedTo, List.mem_map, eq_comm]

theorem mem_fields_replaced {f : Field} {text : String} {rows : List FieldRow} {r : FieldRow} :
    r ∈ (rows.map fun r => if r.id = f.id then Fields.rowOf f text else r) ↔
      ∃ old ∈ rows, r = if old.id = f.id then Fields.rowOf f text else old := by
  simp only [List.mem_map, eq_comm]

/-- A row that got another value has nothing else changed. -/
theorem old_of_mem_withValue {id value : String} {rows : List PropertyRow} {p : PropertyRow}
    (hp : p ∈ withValue id value rows) : ∃ old ∈ rows, ∃ value, p = { old with value } := by
  obtain ⟨old, hold, rfl⟩ := mem_withValue.1 hp
  refine ⟨old, hold, ?_⟩
  split
  · exact ⟨value, rfl⟩
  · exact ⟨old.value, rfl⟩

theorem old_of_mem_conformedTo {f : Field} {rows : List PropertyRow} {p : PropertyRow}
    (hp : p ∈ Fields.conformedTo f rows) : ∃ old ∈ rows, ∃ value, p = { old with value } := by
  obtain ⟨old, hold, rfl⟩ := mem_conformedTo.1 hp
  refine ⟨old, hold, ?_⟩
  split
  · unfold Fields.conformRow
    split
    · exact ⟨_, rfl⟩
    · exact ⟨old.value, rfl⟩
  · exact ⟨old.value, rfl⟩

/-- Conforming either leaves a row as it is, whose list the field accepts already, or writes what is
left of the list. -/
theorem conformRow_cases {f : Field} {p : PropertyRow}
    (h : ∃ text?, Fields.conformed? f p = .ok text?) :
    (∃ stored, stored? Codec.texts p.value = some stored ∧
        (Value.conform f stored).toList = stored ∧ Fields.conformRow f p = p) ∨
      ∃ stored text, stored? Codec.texts p.value = some stored ∧
        (Value.conform f stored).toList ≠ stored ∧
        Fields.encodeValue p.id (Value.conform f stored).toList = .ok text ∧
        Fields.conformRow f p = { p with value := text } := by
  obtain ⟨text?, htext⟩ := h
  have hconformed := htext
  unfold Fields.conformed? at hconformed
  cases hstored : stored? Codec.texts p.value with
  | none => simp [hstored] at hconformed
  | some stored =>
    simp only [hstored] at hconformed
    split at hconformed
    · rename_i hsame
      cases hconformed
      exact .inl ⟨stored, rfl, hsame, Fields.conformRow_of_none htext⟩
    · rename_i hchanged
      obtain ⟨text, hencode, rfl⟩ := Value.map_eq_ok.1 hconformed
      exact .inr ⟨stored, text, rfl, hchanged, hencode, Fields.conformRow_of_some htext⟩

/-! ## Rows can be read -/

namespace Written

variable {s s' : Store}

theorem empty : Written {} := by
  constructor <;> simp

theorem conformRow {f : Field} {p : PropertyRow} (h : p.Written)
    (hok : ∃ text?, Fields.conformed? f p = .ok text?) : (Fields.conformRow f p).Written := by
  rcases conformRow_cases hok with ⟨_, _, _, hsame⟩ | ⟨stored, text, _, _, htext, hrow⟩
  · rw [hsame]
    exact h
  · rw [hrow]
    exact ⟨h.1, _, htext⟩

theorem add_field (h : s.Written) {r : FieldRow} (hr : r.Written) :
    { s with fields := s.fields ++ [r] }.Written := by
  refine ⟨?_, h.properties⟩
  intro row hrow
  rcases List.mem_append.1 hrow with hrow | hrow
  · exact h.fields row hrow
  · rw [List.mem_singleton.1 hrow]
    exact hr

theorem replace_field (h : s.Written) {f : Field} {text : String}
    (htext : Fields.encodeOptions f.id f.options = .ok text)
    (hall : ∀ p ∈ s.properties, p.fieldId = f.id → ∃ text?, Fields.conformed? f p = .ok text?) :
    (Fields.replaced f text s).Written := by
  constructor
  · intro row hrow
    obtain ⟨old, hold, rfl⟩ := mem_fields_replaced.1 hrow
    split
    · rename_i hid
      -- The field keeps its identifier, which was drawn.
      exact ⟨f, text, hid ▸ (h.fields old hold).digits, htext, rfl⟩
    · exact h.fields old hold
  · intro p hp
    obtain ⟨old, hold, rfl⟩ := mem_conformedTo.1 hp
    split
    · rename_i hid
      exact conformRow (h.properties old hold) (hall old hold hid)
    · exact h.properties old hold

/-- Rows may go. -/
theorem of_subset (h : s.Written) (hfields : ∀ r ∈ s'.fields, r ∈ s.fields)
    (hproperties : ∀ p ∈ s'.properties, p ∈ s.properties) : s'.Written where
  fields r hr := h.fields r (hfields r hr)
  properties p hp := h.properties p (hproperties p hp)

theorem add_property (h : s.Written) {r : PropertyRow} (hr : r.Written) :
    { s with properties := s.properties ++ [r] }.Written := by
  refine ⟨h.fields, ?_⟩
  intro p hp
  rcases List.mem_append.1 hp with hp | hp
  · exact h.properties p hp
  · rw [List.mem_singleton.1 hp]
    exact hr

theorem stamp (h : s.Written) (objectId : String) (scope : Scope) :
    { s with properties := stamped objectId scope s.properties }.Written := by
  refine ⟨h.fields, ?_⟩
  intro p hp
  obtain ⟨old, hold, rfl⟩ := mem_stamped.1 hp
  split
  · exact (h.properties old hold).stamp scope
  · exact h.properties old hold

theorem set_value (h : s.Written) {id text : String} {texts : List String}
    (htext : Fields.encodeValue id texts = .ok text) :
    { s with properties := withValue id text s.properties }.Written := by
  refine ⟨h.fields, ?_⟩
  intro p hp
  obtain ⟨old, hold, rfl⟩ := mem_withValue.1 hp
  split
  · rename_i hid
    exact ⟨(h.properties old hold).1, texts, hid ▸ htext⟩
  · exact h.properties old hold

/-- What a call writes can be read. -/
theorem of_writes {b : Board} {c : ServiceCall} (h : b.store.Written)
    (hw : ServiceCall.Writes b c s') : s'.Written := by
  cases hw with
  | nothing => exact h
  | @createField r userId text input f _ hf htext _ =>
    refine h.add_field ⟨f, text, fun c hc => ?_, htext, rfl⟩
    rw [hf] at hc
    exact b.source.hexadecimal hc
  | updateField _ _ htext _ hall => exact h.replace_field htext hall
  | deleteField _ =>
    refine h.of_subset (fun r hr => (List.mem_filter.1 hr).1) fun p hp => ?_
    exact (List.mem_filter.1 (List.mem_filter.1 hp).1).1
  | @createProperty input userId text f value scope r _ _ _ htext hr _ =>
    have hwritten : r.Written := by
      rw [hr]
      exact ⟨⟨input.objectType, rfl⟩, value.toList, htext⟩
    exact (h.add_property hwritten).stamp input.objectId scope
  | updateProperty _ _ _ htext => exact h.set_value htext
  | deleteProperty => exact h.of_subset (fun r hr => hr) fun p hp => (List.mem_filter.1 hp).1
  | resyncObject _ _ => exact h.stamp _ _
  | createView => exact ⟨h.fields, h.properties⟩
  | updateView => exact ⟨h.fields, h.properties⟩
  | addMember => exact ⟨h.fields, h.properties⟩

end Written
end Store

theorem Board.Reachable.written {b : Board} (h : b.Reachable) : b.store.Written := by
  refine h.induct_writes Store.Written.empty ?_ fun b c s' _ hb hw => hb.of_writes hw
  intro s s' hs hfields hproperties _ _
  exact ⟨hfields ▸ hs.fields, hproperties ▸ hs.properties⟩

/-! ## Values fit their fields -/

namespace Store

/-- Whether the list that a property holds is one that a field accepts as it stands. -/
def PropertyRow.Fits (p : PropertyRow) (f : Field) : Prop :=
  ∀ texts, stored? Codec.texts p.value = some texts → Value.Fits f texts

def Fitting (s : Store) : Prop :=
  ∀ p ∈ s.properties, ∀ r ∈ s.fields, r.id = p.fieldId → ∀ f, r.field? = some f → p.Fits f

theorem PropertyRow.fits_written {p : PropertyRow} {f : Field} {texts : List String}
    (hvalue : Fields.encodeValue p.id texts = .ok p.value) (h : Value.Fits f texts) : p.Fits f := by
  intro texts' htexts
  obtain ⟨_, htext⟩ := StoredJson.encode_eq_ok.1 hvalue
  rw [← htext, stored?_texts] at htexts
  cases htexts
  exact h

/-- A conformed row fits, whichever of the two ways it was conformed. -/
theorem fits_conformRow {f : Field} {p : PropertyRow}
    (hok : ∃ text?, Fields.conformed? f p = .ok text?) : (Fields.conformRow f p).Fits f := by
  rcases conformRow_cases hok with
    ⟨stored, hstored, hsame, hrow⟩ | ⟨stored, text, _, _, htext, hrow⟩
  · rw [hrow]
    intro texts htexts
    rw [hstored] at htexts
    cases htexts
    rw [← hsame]
    exact Value.fits_conform f stored
  · rw [hrow]
    exact PropertyRow.fits_written htext (Value.fits_conform f stored)

namespace Fitting

variable {s s' : Store}

/-- Rows may go, and may change in all but field and value. -/
theorem of_rows (h : s.Fitting) (hfields : ∀ r ∈ s'.fields, r ∈ s.fields)
    (hrows : ∀ p ∈ s'.properties, ∃ old ∈ s.properties,
      p.fieldId = old.fieldId ∧ p.value = old.value) : s'.Fitting := by
  intro p hp r hr hid f hf
  obtain ⟨old, hold, hfield, hvalue⟩ := hrows p hp
  intro texts htexts
  rw [hvalue] at htexts
  exact h old hold r (hfields r hr) (hid.trans hfield) f hf texts htexts

theorem stamp (h : s.Fitting) (objectId : String) (scope : Scope) :
    { s with properties := stamped objectId scope s.properties }.Fitting := by
  refine h.of_rows (fun r hr => hr) fun p hp => ?_
  obtain ⟨old, hold, rfl⟩ := mem_stamped.1 hp
  refine ⟨old, hold, ?_⟩
  split <;> exact ⟨rfl, rfl⟩

/-- No property belongs to a new field yet. -/
theorem add_field (h : s.Fitting) (hk : s.Keyed) {r : FieldRow} (hnew : s.hasField r.id = false) :
    { s with fields := s.fields ++ [r] }.Fitting := by
  intro p hp row hrow hid f hf
  rcases List.mem_append.1 hrow with hrow | hrow
  · exact h p hp row hrow hid f hf
  · have hhas := hk.fieldOf p hp
    rw [List.mem_singleton.1 hrow] at hid
    rw [← hid] at hhas
    exact absurd (hhas.symm.trans hnew) (by simp)

/-- The properties of a field that is replaced are conformed, and no other property is concerned. -/
theorem replace_field (h : s.Fitting) {f : Field} {text : String}
    (htext : Fields.encodeOptions f.id f.options = .ok text)
    (hall : ∀ p ∈ s.properties, p.fieldId = f.id → ∃ text?, Fields.conformed? f p = .ok text?) :
    (Fields.replaced f text s).Fitting := by
  intro p hp row hrow hid f' hf'
  obtain ⟨old, hold, rfl⟩ := mem_conformedTo.1 hp
  obtain ⟨oldRow, holdRow, rfl⟩ := mem_fields_replaced.1 hrow
  by_cases hfield : old.fieldId = f.id
  · rw [if_pos hfield] at hid ⊢
    rw [Fields.conformRow_fieldId, hfield] at hid
    have hrow' : oldRow.id = f.id := by
      by_cases hrow' : oldRow.id = f.id
      · exact hrow'
      · rwa [if_neg hrow'] at hid
    rw [if_pos hrow', field?_rowOf htext] at hf'
    cases hf'
    exact fits_conformRow (hall old hold hfield)
  · rw [if_neg hfield] at hid ⊢
    have hrow' : oldRow.id ≠ f.id := by
      intro hrow'
      rw [if_pos hrow'] at hid
      exact hfield hid.symm
    rw [if_neg hrow'] at hid hf'
    exact h old hold oldRow holdRow hid f' hf'

theorem add_property (h : s.Fitting) (hk : s.Keyed) {r : PropertyRow} {f : Field}
    (hfield : Fields.find s r.fieldId = .ok (some f)) (hr : r.Fits f) :
    { s with properties := s.properties ++ [r] }.Fitting := by
  intro p hp row hrow hid f' hf'
  rcases List.mem_append.1 hp with hp | hp
  · exact h p hp row hrow hid f' hf'
  · rw [List.mem_singleton.1 hp] at hid ⊢
    rw [Fields.field?_of_find hk hfield hrow hid] at hf'
    cases hf'
    exact hr

/-- The property that was read is the one that gets the value, beside its only field. -/
theorem set_value (h : s.Fitting) (hk : s.Keyed) {id text : String} {p : Property} {f : Field}
    {texts : List String} (hp : Properties.find s id = .ok (some p))
    (hfield : Fields.find s p.fieldId = .ok (some f))
    (htext : Fields.encodeValue id texts = .ok text) (hfits : Value.Fits f texts) :
    { s with properties := withValue id text s.properties }.Fitting := by
  intro q hq row hrow hid f' hf'
  obtain ⟨old, hold, rfl⟩ := mem_withValue.1 hq
  by_cases hold' : old.id = id
  · rw [if_pos hold'] at hid ⊢
    rw [Properties.fieldId_of_find hk hp hold hold'] at hfield
    rw [Fields.field?_of_find hk hfield hrow hid] at hf'
    cases hf'
    refine PropertyRow.fits_written ?_ hfits
    rw [hold']
    exact htext
  · rw [if_neg hold'] at hid ⊢
    exact h old hold row hrow hid f' hf'

/-- What a call writes fits the fields. -/
theorem of_writes {b : Board} {c : ServiceCall} (hk : b.store.Keyed) (h : b.store.Fitting)
    (hw : ServiceCall.Writes b c s') : s'.Fitting := by
  cases hw with
  | nothing => exact h
  | createField _ _ _ hnew => exact h.add_field hk hnew
  | updateField _ _ htext _ hall => exact h.replace_field htext hall
  | deleteField _ =>
    refine h.of_rows (fun r hr => (List.mem_filter.1 hr).1) fun p hp => ?_
    exact ⟨p, (List.mem_filter.1 (List.mem_filter.1 hp).1).1, rfl, rfl⟩
  | @createProperty input userId text f value scope r hfield hvalue _ htext hr _ =>
    have hfind : Fields.find b.store r.fieldId = .ok (some f) := by
      have hid : r.fieldId = input.fieldId := by
        rw [hr]
        exact Fields.id_of_find hfield
      rw [hid]
      exact hfield
    have hfits : r.Fits f := by
      rw [hr]
      exact PropertyRow.fits_written htext (Value.fits_of_parse hvalue)
    exact (h.add_property hk hfind hfits).stamp input.objectId scope
  | updateProperty hp hfield hvalue htext =>
    exact h.set_value hk hp hfield htext (Value.fits_of_parse hvalue)
  | deleteProperty =>
    refine h.of_rows (fun r hr => hr) fun p hp => ?_
    exact ⟨p, (List.mem_filter.1 hp).1, rfl, rfl⟩
  | resyncObject _ _ => exact h.stamp _ _
  | createView => exact h
  | updateView => exact h
  | addMember => exact h

end Fitting
end Store

theorem Board.Reachable.fitting {b : Board} (h : b.Reachable) : b.store.Fitting := by
  refine h.induct_writes (by simp [Store.Fitting]) ?_ fun b c s' hb hfit hw => hfit.of_writes hb.keyed hw
  intro s s' hs hfields hproperties _ _
  refine hs.of_rows (fun r hr => hfields ▸ hr) fun p hp => ?_
  exact ⟨p, hproperties ▸ hp, rfl, rfl⟩

namespace Store

/-- A property has one field, and holds a list of texts that the field, as it is now, accepts as it
stands. -/
def PropertyRow.FitsOwnField (s : Store) (p : PropertyRow) : Prop :=
  ∃ r ∈ s.fields, (∀ r' ∈ s.fields, r'.id = p.fieldId ↔ r' = r) ∧
    ∃ f texts v, r.field? = some f ∧ stored? Codec.texts p.value = some texts ∧
      Value.parse f (texts.map .str) = .ok v ∧ v.toList = texts ∧ Value.Shaped f texts

end Store

/-- A post gets a property of two options, one of which its field then no longer has. -/
def optionRemoved : List Action := [
  .host (.addChannel { id := "c", teamId := "t", name := "town", type := "O" }),
  .host (.addPost
    { id := "p", channelId := "c", userId := "u", message := "", type := "", createdAt := 0 }),
  .call (.createField
    { name := "state", type := "select", options := some [.str "open", .str "done"] } "u"),
  .call (.createProperty
    { objectId := "p"
      objectType := .post
      fieldId := Identifier.nth 1
      value := [.str "open", .str "done", .str "open"] } "u"),
  .call (.updateField (Identifier.nth 1)
    { name := "state", type := "select", options := some [.str "done"] } "u")]

/-- Stored values always fit their field. -/
theorem Board.Reachable.fits_own_field {b : Board} (h : b.Reachable) :
    ∀ p ∈ b.store.properties, p.FitsOwnField b.store := by
  intro p hp
  obtain ⟨r, hr, hid⟩ := hasField_iff.1 (h.keyed.fieldOf p hp)
  obtain ⟨f, hf⟩ := (h.written.fields r hr).reads
  obtain ⟨texts, _, htexts⟩ := (h.written.properties p hp).reads
  have hfits := h.fitting p hp r hr hid f hf texts htexts
  obtain ⟨v, hparse, hlist⟩ := id hfits
  refine ⟨r, hr, ?_, f, texts, v, hf, htexts, hparse, hlist, hfits.shaped⟩
  intro r' hr'
  constructor
  · intro hid'
    exact List.inj_on_of_nodup_map h.keyed.fields hr' hr (hid'.trans hid.symm)
  · rintro rfl
    exact hid

/-- A field that gets fewer options takes those that are gone from its properties. -/
theorem fits_after_option_removed :
    (Board.run { now := 0 } optionRemoved).store.properties.map PropertyRow.value =
        ["[\"done\"]"] ∧
      ∀ p ∈ (Board.run { now := 0 } optionRemoved).store.properties,
        p.FitsOwnField (Board.run { now := 0 } optionRemoved).store :=
  ⟨by decide +kernel, Board.Reachable.fits_own_field (Board.reachable_run 0 optionRemoved)⟩

end PropertyBoard
