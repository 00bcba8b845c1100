import PropertyBoard.Proofs.Conforming
import PropertyBoard.Proofs.Lookup

/-!
# PropertyBoard.Proofs.Resubmitted

Sending back what was read changes nothing.

* `FieldRequest.check_again`: what a check gave passes the check and stays as it is.
* `FieldRow.Checked`: the row of a field that some request stated. `Board.Reachable.checked_fields`:
  all rows are, always. `ViewRow.Written` is the same for views.
* `Fields.update_again`, `Properties.update_again`, `Views.update_again`: updates with what is there.
* `Board.Reachable.same_again`: so for every board that can come about.
-/

namespace PropertyBoard

open Store

/-- Rows of which some are rewritten, each as it was. -/
theorem map_rewritten_self {ρ : Type} {rows : List ρ} {p : ρ → Prop} [DecidablePred p] {g : ρ → ρ}
    (h : ∀ r ∈ rows, p r → g r = r) : (rows.map fun r => if p r then g r else r) = rows := by
  have hsame : ∀ r ∈ rows, (if p r then g r else r) = r := by
    intro r hr
    by_cases hp : p r
    · rw [if_pos hp, h r hr hp]
    · rw [if_neg hp]
  exact (List.map_congr_left hsame).trans (List.map_id rows)

/-! ## Checking again -/

theorem Field.checkOptions_again {type : FieldType} {raw : List Json} {options : List String}
    (h : checkOptions type raw = .ok options) :
    checkOptions type (options.map .str) = .ok options := by
  unfold checkOptions at h
  split at h
  · cases h
    rfl
  · split at h
    · cases h
    · rename_i hhas
      by_cases hnone : options = []
      · rw [hnone]
        rfl
      · have hsome : (options.map Json.str).isEmpty = false := by
          simpa using hnone
        rw [checkOptions, hsome, if_neg Bool.false_ne_true, if_neg hhas, Json.allTexts_texts]

namespace FieldRequest

/-- The request says of a field what can be said of it. -/
structure States (r : FieldRequest) (f : Field) : Prop where
  teamId : r.teamId = f.teamId
  name : r.name = f.name
  type : r.type = f.type.name
  options : r.options.getD [] = f.options.map .str

theorem check_eq_ok {r : FieldRequest} {input : FieldInput} :
    r.check = .ok input ↔
      Named.ofName? r.type = some input.type ∧ Field.checkName r.name = .ok input.name ∧
        Field.checkOptions input.type (r.options.getD []) = .ok input.options ∧
        input.teamId = Text.trim r.teamId := by
  obtain ⟨teamId, name, type, options⟩ := input
  unfold check
  cases htype : (Named.ofName? r.type : Option FieldType) with
  | none => simp
  | some type' =>
    cases hname : Field.checkName r.name with
    | error e => simp
    | ok name' =>
      dsimp only
      by_cases hsame : type' = type
      · subst hsame
        cases hoptions : Field.checkOptions type' (r.options.getD []) with
        | error e => simp
        | ok options' =>
          simp only [Except.ok.injEq, FieldInput.mk.injEq, true_and]
          constructor
          · rintro ⟨rfl, rfl, rfl⟩
            exact ⟨rfl, rfl, rfl⟩
          · rintro ⟨rfl, rfl, rfl⟩
            exact ⟨rfl, rfl, rfl⟩
      · cases Field.checkOptions type' (r.options.getD []) with
        | error e => simp [hsame]
        | ok options' => simp [hsame]

/-- What a check gave passes it again. -/
theorem check_again {r r' : FieldRequest} {input : FieldInput} (h : r.check = .ok input)
    {id updatedBy : String} {updatedAt : Int64}
    (hstates : r'.States (Fields.ofInput input id updatedAt updatedBy)) :
    r'.check = .ok input := by
  obtain ⟨_, hname, hoptions, hteam⟩ := check_eq_ok.1 h
  obtain ⟨hname, hne⟩ := Text.required_eq_ok.1 hname
  refine check_eq_ok.2 ⟨?_, Text.required_eq_ok.2 ⟨?_, hne⟩, ?_, ?_⟩
  · rw [hstates.type]
    exact FieldType.ofName?_name input.type
  · rw [hstates.name]
    show input.name = Text.trim input.name
    rw [hname, Text.trim_trim]
  · rw [hstates.options]
    exact Field.checkOptions_again hoptions
  · rw [hstates.teamId]
    show input.teamId = Text.trim input.teamId
    rw [hteam, Text.trim_trim]

end FieldRequest

/-! ## Fields -/

/-- The row of a field that some request stated. -/
def Store.FieldRow.Checked (row : FieldRow) : Prop :=
  ∃ (r : FieldRequest) (input : FieldInput) (updatedAt : Int64) (updatedBy text : String),
    r.check = .ok input ∧ Fields.encodeOptions row.id input.options = .ok text ∧
      row = Fields.rowOf (Fields.ofInput input row.id updatedAt updatedBy) text

/-- What a call writes leaves the rows of fields checked. -/
theorem Store.checked_fields_of_writes {b : Board} {c : ServiceCall} {s' : Store}
    (h : ∀ row ∈ b.store.fields, row.Checked) (hw : ServiceCall.Writes b c s') :
    ∀ row ∈ s'.fields, row.Checked := by
  cases hw with
  | createField hinput hf htext _ =>
    intro row hrow
    rcases List.mem_append.1 hrow with hrow | hrow
    · exact h row hrow
    · rw [List.mem_singleton.1 hrow]
      subst hf
      exact ⟨_, _, _, _, _, hinput, htext, rfl⟩
  | updateField hinput hf htext _ _ =>
    intro row hrow
    obtain ⟨old, hold, rfl⟩ := mem_fields_replaced.1 hrow
    split
    · subst hf
      exact ⟨_, _, _, _, _, hinput, htext, rfl⟩
    · exact h old hold
  | deleteField _ => exact fun row hrow => h row (List.mem_filter.1 hrow).1
  | _ => exact h

theorem Board.Reachable.checked_fields {b : Board} (h : b.Reachable) :
    ∀ row ∈ b.store.fields, row.Checked := by
  refine h.induct_writes (P := fun s => ∀ row ∈ s.fields, row.Checked) (by simp) ?_
    fun b c s' _ hs hw => Store.checked_fields_of_writes hs hw
  intro s s' hs hfields _ _ _ row hrow
  exact hs row (hfields ▸ hrow)

namespace Fields

variable {b : Board} {s : Store} {f : Field} {id userId : String} {r : FieldRequest}

/-- A list that fits the field needs no conforming. -/
theorem conformed?_of_fits {p : PropertyRow} {texts : List String}
    (hread : stored? Codec.texts p.value = some texts) (hfits : Value.Fits f texts) :
    conformed? f p = .ok none := by
  obtain ⟨v, hv, hlist⟩ := Value.fits_iff.1 hfits
  have hsame : (Value.conform f texts).toList = texts := by
    rw [Value.conform_of_ofTexts hv, hlist]
  unfold conformed?
  rw [hread]
  exact if_pos hsame

/-- Where no property needs conforming, none is counted and the store stays as it is. -/
theorem conformRows_of_none {rows : List PropertyRow}
    (h : ∀ p ∈ rows, conformed? f p = .ok none) (s : Store) :
    conformRows f rows s = .ok (0, s) := by
  induction rows with
  | nil => rfl
  | cons p rest ih =>
    obtain ⟨hp, hrest⟩ := List.forall_mem_cons.1 h
    exact (Change.bind_of_ok (Change.check_eq_ok.2 ⟨hp, rfl⟩)).trans (ih hrest)

theorem conformAll_of_none
    (h : ∀ p ∈ s.properties, p.fieldId = f.id → conformed? f p = .ok none) :
    conformAll f s = .ok (0, s) := by
  obtain ⟨found, hfound, hperm, _⟩ := Statement.Properties.on_valuesOfField f.id s.properties
  have hnone : ∀ p ∈ found, conformed? f p = .ok none := by
    intro p hp
    obtain ⟨hp, hpf⟩ := List.mem_filter.1 (hperm.mem_iff.1 hp)
    exact h p hp (of_decide_eq_true hpf)
  have hlook : Change.look (fun s =>
      query ("list properties of field " ++ f.id) s.properties
        (Statement.Properties.valuesOfField f.id)) s = .ok (found, s) := by
    rw [Change.look_eq_ok, query, hfound]
    exact ⟨rfl, rfl⟩
  exact (Change.bind_of_ok hlook).trans (conformRows_of_none hnone s)

theorem conformedTo_of_none {rows : List PropertyRow}
    (h : ∀ p ∈ rows, p.fieldId = f.id → conformed? f p = .ok none) : conformedTo f rows = rows :=
  map_rewritten_self fun p hp hpf => conformRow_of_none (h p hp hpf)

/-- The store in which only the time and the author of a field are new. -/
def touched (id : String) (now : Int64) (userId : String) (s : Store) : Store :=
  { s with fields := s.fields.map fun row =>
      if row.id = id then { row with updatedAt := now, updatedBy := userId } else row }

/-- The properties of a field fit it, and do so as well when its time and author are new. -/
theorem settled_of_get (hb : b.Reachable) (hf : get b.store id = .ok f) (now : Int64)
    (userId : String) :
    ∀ p ∈ b.store.properties, p.fieldId = id →
      conformed? { f with updatedAt := now, updatedBy := userId } p = .ok none := by
  intro p hp hpf
  obtain ⟨row, hrow, hid, hread⟩ := mem_of_find (get_eq_ok.1 hf)
  obtain ⟨texts, _, htexts⟩ := (hb.written.properties p hp).reads
  have hfits := hb.fitting p hp row hrow (hid.trans hpf.symm) f hread texts htexts
  refine conformed?_of_fits htexts ?_
  exact hfits.of_same_type rfl fun htype s hs => (Value.fits_select hfits htype).2 s hs

/-- A field that can be had was stated by some request, and its row was written for it. -/
theorem stated_of_get (hb : b.Reachable) (hf : get b.store id = .ok f) :
    ∃ (r₀ : FieldRequest) (input : FieldInput) (updatedAt : Int64) (updatedBy text : String),
      r₀.check = .ok input ∧ encodeOptions id input.options = .ok text ∧
        f = ofInput input id updatedAt updatedBy ∧ rowOf f text ∈ b.store.fields := by
  obtain ⟨row, hrow, rfl, hread⟩ := mem_of_find (get_eq_ok.1 hf)
  obtain ⟨r₀, input, updatedAt, updatedBy, text, hinput, htext, heq⟩ := hb.checked_fields row hrow
  have hf' : f = ofInput input row.id updatedAt updatedBy := by
    rw [heq, field?_rowOf (f := ofInput input row.id updatedAt updatedBy) htext] at hread
    exact (Option.some.inj hread).symm
  exact ⟨r₀, input, updatedAt, updatedBy, text, hinput, htext, hf', by rwa [hf', ← heq]⟩

/-- Written with a new time and author, the row of a field is the same but for these. -/
theorem touched_eq {text : String} (hids : (s.fields.map FieldRow.id).Nodup)
    (hrow : rowOf f text ∈ s.fields) (now : Int64) (userId : String) :
    touched f.id now userId s = { s with
      fields := s.fields.map fun row =>
        if row.id = f.id then rowOf { f with updatedAt := now, updatedBy := userId } text
        else row } := by
  unfold touched
  congr 1
  refine List.map_congr_left fun row hmem => ?_
  by_cases hid : row.id = f.id
  · have hsame : row = rowOf f text := List.inj_on_of_nodup_map hids hmem hrow hid
    rw [if_pos hid, if_pos hid, hsame]
    rfl
  · rw [if_neg hid, if_neg hid]

/-- An update with what is there writes the time and the author, and conforms nothing. -/
theorem update_again (hb : b.Reachable) (hf : get b.store id = .ok f)
    (hid : r.id = "" ∨ r.id = id) (hstates : r.States f) :
    (update id r userId).on b = (.ok { f with updatedAt := b.now, updatedBy := userId },
        { b with store := touched id b.now userId b.store }) ∧
      ∃ text, encodeOptions id f.options = .ok text ∧
        replace (rowOf { f with updatedAt := b.now, updatedBy := userId } text) b.store =
          .ok (0, touched id b.now userId b.store) := by
  have hnone := settled_of_get hb hf b.now userId
  obtain ⟨r₀, input, updatedAt, updatedBy, text, hinput, htext, rfl, hrow⟩ := stated_of_get hb hf
  have hcheck : r.check = .ok input := FieldRequest.check_again hinput hstates
  have hfield : b.store.hasField id = true := hasField_iff.2 ⟨_, hrow, rfl⟩
  have htouched := touched_eq hb.keyed.fields hrow b.now userId
  constructor
  · have hstore : replaced (ofInput input id b.now userId) text b.store =
        touched id b.now userId b.store := by
      rw [replaced, conformedTo_of_none hnone]
      exact htouched.symm
    rw [← hstore]
    exact (update_eq_ok hb.keyed.properties).2 ⟨hid, input, hcheck, rfl, text, htext, hfield,
      fun p hp hpf => ⟨none, hnone p hp hpf⟩, rfl⟩
  · refine ⟨text, htext, ?_⟩
    have hreplace := replace_of_hasField (f := ofInput input id b.now userId) htext hfield
    have hconform := conformAll_of_none (f := ofInput input id b.now userId)
      (s := touched id b.now userId b.store) hnone
    refine hreplace.trans (Eq.trans ?_ hconform)
    exact congrArg (conformAll (ofInput input id b.now userId)) htouched.symm

end Fields

/-! ## Properties and views -/

/-- A property gets the value that it has. -/
theorem Store.withValue_self {rows : List PropertyRow} (hids : (rows.map PropertyRow.id).Nodup)
    {row : PropertyRow} (hrow : row ∈ rows) : withValue row.id row.value rows = rows := by
  refine map_rewritten_self fun p hp hid => ?_
  have hsame : p = row := List.inj_on_of_nodup_map hids hp hrow hid
  rw [hsame]

namespace Properties

variable {b : Board} {id userId : String} {p : Property}

/-- An update with the value that is there writes the text that is there. -/
theorem update_again (hb : b.Reachable) (hp : get b.store id = .ok p) :
    (update id (p.value.toList.map .str) userId).on b = (.ok p, b) := by
  have hfind := get_eq_ok.1 hp
  obtain ⟨⟨row, fieldRow⟩, hjoined, hread⟩ := find_eq_ok_some.1 hfind
  obtain ⟨hrow, hfieldRow, hfieldId⟩ := mem_joined.1 (List.mem_of_find?_eq_some hjoined)
  obtain rfl : row.id = id := by
    simpa using List.find?_some hjoined
  obtain ⟨type, texts, _, _, htype, htexts, _, _, rfl⟩ := PropertyRow.property?_eq_some.1 hread
  obtain ⟨f, hf⟩ := (hb.written.fields fieldRow hfieldRow).reads
  obtain ⟨v, hparse, hlist⟩ := hb.fitting row hrow fieldRow hfieldRow hfieldId f hf texts htexts
  have hvalue : Value.fromStored type texts = v := by
    obtain ⟨_, _, htype', _, rfl⟩ := FieldRow.field?_eq_some.1 hf
    cases htype.symm.trans htype'
    rw [← hlist]
    exact Value.fromStored_of_parse hparse
  have hencode : Fields.encodeValue row.id v.toList = .ok row.value := by
    obtain ⟨_, texts', htexts'⟩ := hb.written.properties row hrow
    obtain ⟨_, htext⟩ := StoredJson.encode_eq_ok.1 htexts'
    rw [← htext, stored?_texts] at htexts
    cases htexts
    rw [hlist]
    exact htexts'
  have hfield : Fields.find b.store row.fieldId = .ok (some f) := by
    rw [← hfieldId]
    exact Fields.find_eq_ok_some.2 ⟨fieldRow, find?_key_eq hb.keyed.fields hfieldRow, hf⟩
  have hsame : withValue row.id row.value b.store.properties = b.store.properties :=
    withValue_self hb.keyed.properties hrow
  have hset : setValue row.id (v.toList.map .str) userId b.store =
      .ok (b.store.properties.countP fun r => r.id = row.id, b.store) := by
    refine setValue_eq_ok.2 ⟨_, f, v, row.value, hfind, hfield, hlist ▸ hparse, hencode, rfl, ?_⟩
    rw [hsame]
  show (update row.id ((Value.fromStored type texts).toList.map .str) userId).on b = _
  rw [hvalue] at hp ⊢
  exact update_eq_ok.2 ⟨_, _, hset, hp, rfl⟩

end Properties

namespace Views

variable {b : Board} {id : String} {v : View}

/-- The parts of a view that was written, as they are stored. -/
theorem partsOf_again {row : ViewRow} (h : row.Written) (hread : row.view? = some v) :
    partsOf row.id { title := some v.title, query := some v.query, layout := some v.layout } =
      .ok { title := some row.title, query := some row.query, layout := some row.layout } := by
  obtain ⟨q, hquery, hconstrained⟩ := h.query
  obtain ⟨l, hlayout⟩ := h.layout
  obtain ⟨type, query, layout, _, hquery', hlayout', rfl⟩ := ViewRow.view?_eq_some.1 hread
  -- Compact texts say one query and one layout only.
  cases (stored?_query hquery).symm.trans hquery'
  cases (stored?_layout hlayout).symm.trans hlayout'
  have htitle : checkedTitle
      { title := some row.title, query := some q, layout := some l } = .ok (some row.title) := by
    simp only [checkedTitle, h.title]
    rfl
  have hcheck : checkQuery { title := some row.title, query := some q, layout := some l } =
      .ok () := by
    simp only [checkQuery, hconstrained]
    rfl
  simp only [partsOf, ViewPatch.isEmpty, htitle, hcheck, encodeOptional, hquery, hlayout]
  rfl

/-- An update with the parts that are there writes the texts that are there. -/
theorem update_again (hb : b.Reachable) (hv : get b.store id = .ok v) :
    (update id { title := some v.title, query := some v.query, layout := some v.layout }).on b =
      (.ok v, b) := by
  obtain ⟨row, hrow, rfl, hread⟩ := row_of_get hv
  have hparts := partsOf_again (hb.written_views row hrow) hread
  obtain ⟨q, hq⟩ : ∃ q, Statement.Views.update? row.id
      { title := some row.title, query := some row.query, layout := some row.layout } = some q :=
    ⟨_, rfl⟩
  have hfound : (q.on b.store.views).2 ≠ 0 := by
    refine (List.countP_pos_iff.2 ⟨row, hrow, ?_⟩).ne'
    exact (Statement.Views.allHold_update hq).2 rfl
  have hviews : (q.on b.store.views).1 = b.store.views := by
    refine map_rewritten_self fun r hr hid => ?_
    have hsame : r = row := List.inj_on_of_nodup_map hb.keyed.views hr hrow
      ((Statement.Views.allHold_update hq).1 hid)
    rw [Statement.Views.change_eq hq, hsame]
    rfl
  refine update_eq_ok.2 ⟨_, q, b.store, hparts, hq, hfound, ?_, hv, rfl⟩
  rw [hviews]

end Views

/-! ## All of them -/

/-- Who sends back what a read answered changes nothing, in every board that can come about. A field
gets a new time and author, and none of its properties is conformed. -/
theorem Board.Reachable.same_again {b : Board} (h : b.Reachable) (id userId : String) :
    (∀ f r, Fields.get b.store id = .ok f → r.id = "" ∨ r.id = id → r.States f →
      (Fields.update id r userId).on b =
          (.ok { f with updatedAt := b.now, updatedBy := userId },
            { b with store := Fields.touched id b.now userId b.store }) ∧
        ∃ text, Fields.encodeOptions id f.options = .ok text ∧
          Fields.replace (Fields.rowOf { f with updatedAt := b.now, updatedBy := userId } text)
            b.store = .ok (0, Fields.touched id b.now userId b.store)) ∧
      (∀ p, Properties.get b.store id = .ok p →
        (Properties.update id (p.value.toList.map .str) userId).on b = (.ok p, b)) ∧
      ∀ v, Views.get b.store id = .ok v →
        (Views.update id
          { title := some v.title, query := some v.query, layout := some v.layout }).on b =
            (.ok v, b) :=
  ⟨fun _ _ => Fields.update_again h, fun _ => Properties.update_again h,
    fun _ => Views.update_again h⟩

/-- A board with a field of options, a property of a post and a view. -/
def filled : Board :=
  Board.run { now := 0 } [
    .host (.addChannel { id := "c", teamId := "t", name := "town", type := "O" }),
    .host (.addPost
      { id := "p", channelId := "c", userId := "u", message := "", type := "", createdAt := 0 }),
    .call (.createField
      { name := " state ", type := "select", options := some [.str "open", .str "done"] } "u"),
    .call (.createProperty
      { objectId := "p"
        objectType := .post
        fieldId := Identifier.nth 1
        value := [.str "done", .str "open", .str "done"] } "u"),
    .call (.createView { title := " town ", query := { channelId := some "c" } })]

theorem filled_stays :
    (∃ f, (Fields.update (Identifier.nth 1)
        { name := "state", type := "select", options := some [.str "open", .str "done"] } "w").on
          filled =
      (.ok f, { filled with
        store := Fields.touched (Identifier.nth 1) filled.now "w" filled.store })) ∧
      (∃ p, (Properties.update (Identifier.nth 2) [.str "done", .str "open"] "w").on filled =
        (.ok p, filled)) ∧
      ∃ v, (Views.update (Identifier.nth 3)
        { title := some "town", query := some v.query, layout := some v.layout }).on filled =
          (.ok v, filled) := by
  have hb : filled.Reachable := Board.reachable_run 0 _
  have hf : Fields.get filled.store (Identifier.nth 1) = .ok {
      id := Identifier.nth 1
      teamId := ""
      name := "state"
      type := .select
      options := ["open", "done"]
      updatedAt := 0
      updatedBy := "u" } := by decide +kernel
  have hvalue : (Properties.get filled.store (Identifier.nth 2)).map Property.value =
      .ok (.select ["done", "open"]) := by decide +kernel
  have htitle : (Views.get filled.store (Identifier.nth 3)).map View.title = .ok "town" := by
    decide +kernel
  obtain ⟨p, hp, hvalue⟩ := Value.map_eq_ok.1 hvalue
  obtain ⟨v, hv, htitle⟩ := Value.map_eq_ok.1 htitle
  obtain ⟨hfield, _⟩ := hb.same_again (Identifier.nth 1) "w"
  obtain ⟨_, hproperty, _⟩ := hb.same_again (Identifier.nth 2) "w"
  obtain ⟨_, _, hview⟩ := hb.same_again (Identifier.nth 3) "w"
  refine ⟨⟨_, (hfield _ _ hf (.inl rfl) ⟨rfl, rfl, rfl, rfl⟩).1⟩, ⟨p, ?_⟩, ⟨v, ?_⟩⟩
  · have hsame := hproperty p hp
    rwa [← hvalue] at hsame
  · have hsame := hview v hv
    rwa [← htitle] at hsame

end PropertyBoard
