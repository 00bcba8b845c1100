import PropertyBoard.Proofs.Json.Size
import PropertyBoard.Proofs.Rows

/-!
# PropertyBoard.Proofs.Conforming

What updating a field does to the properties of the field, and when it does nothing.

The properties are conformed one after the other, ascending by their identifiers, and the first one
that cannot be conformed ends the call, together with all that was done before.

* `Value.conform_shortened`: conforming a list only leaves out texts and blanks at their ends, so the
  list that is left is no longer than the stored one.
* `Fields.Unfit`: why a property cannot be conformed. `Fields.Compact`: a property that can always
  be, as it was written within the limit.
* `Fields.conformAll_decides`: conforming fails exactly with the first unfit property.
* `Fields.update_settles`: the outcome of the update of a field that is there.
  `Fields.update_of_reachable`: on a board that came about by calls it succeeds.
-/

namespace PropertyBoard

open Store

/-! ## What is left of a list -/

namespace Value

variable {f : Field} {stored : List String}

/-- What is accepted of a list leaves out repetitions, or the blanks at the ends of its only text. -/
theorem ofTexts_shortened {v : Value} (h : ofTexts f stored = .ok v) :
    Json.Shortened v.toList stored := by
  by_cases hnone : stored = []
  · rw [hnone, ofTexts_nil] at h
    cases h
    exact Json.shortened_nil stored
  · have hv := (ofTexts_eq_ok hnone).1 h
    have hreference {s id : String} (h : Text.nonBlank? s = some id) :
        Json.Shortened [id] [s] := by
      obtain ⟨rfl, _⟩ := Text.nonBlank?_eq_some_iff.1 h
      exact Json.shortened_singleton (Text.trim_within s).sublist
    cases htype : f.type with
    | text =>
      rw [htype] at hv
      obtain ⟨s, rfl, rfl⟩ := hv
      exact Json.shortened_of_sublist (List.Sublist.refl [s])
    | user =>
      rw [htype] at hv
      obtain ⟨s, id, rfl, hid, rfl⟩ := hv
      exact hreference hid
    | post =>
      rw [htype] at hv
      obtain ⟨s, id, rfl, hid, rfl⟩ := hv
      exact hreference hid
    | select =>
      rw [htype] at hv
      obtain ⟨_, rfl⟩ := hv
      exact Json.shortened_of_sublist (distinct_sublist stored)

theorem conform_shortened (f : Field) (stored : List String) :
    Json.Shortened (conform f stored).toList stored := by
  unfold conform
  split
  · rw [toList_fromStored_select]
    exact Json.shortened_of_sublist ((distinct_sublist _).trans List.filter_sublist)
  · split
    · rename_i hok
      exact ofTexts_shortened hok
    · exact Json.shortened_nil stored

/-- A conformed list takes no more room than the stored one. -/
theorem size_conform_le (f : Field) (stored : List String) :
    (Json.ofTexts (conform f stored).toList).text.utf8ByteSize ≤
      (Json.ofTexts stored).text.utf8ByteSize :=
  Json.size_le (conform_shortened f stored)

end Value

namespace Fields

variable {f : Field} {p : PropertyRow} {s : Store} {e : Refusal}

/-! ## One property -/

/-- Why a property cannot be conformed to its field: its text is no list of texts, or what is left of
the list is another one that is too long to be stored. -/
inductive Unfit (f : Field) (p : PropertyRow) : Refusal → Prop where
  | unreadable (h : stored? Codec.texts p.value = none) :
      Unfit f p
        (.storage (.undecodableRow PropertyRow.table p.id) ("decode value of property " ++ p.id))
  | tooLong {texts : List String} (hread : stored? Codec.texts p.value = some texts)
      (hchanged : (Value.conform f texts).toList ≠ texts)
      (hsize : StoredJson.maxSize <
        (Json.ofTexts (Value.conform f texts).toList).text.utf8ByteSize) :
      Unfit f p (.tooLong "property value" p.id StoredJson.maxSize)

/-- A property whose text is the compact one of a list, within the limit. -/
def Compact (p : PropertyRow) : Prop :=
  ∃ texts, p.value = (Json.ofTexts texts).text ∧ p.value.utf8ByteSize ≤ StoredJson.maxSize

/-- A property after its field has become the given one. -/
def settled (f : Field) (p : PropertyRow) : PropertyRow :=
  match stored? Codec.texts p.value with
  | none => p
  | some texts =>
    if (Value.conform f texts).toList = texts then p
    else { p with value := (Json.ofTexts (Value.conform f texts).toList).text }

theorem Compact.fit (h : Compact p) : ¬Unfit f p e := by
  obtain ⟨texts, hvalue, hsize⟩ := h
  have hread : stored? Codec.texts p.value = some texts := by
    rw [hvalue, stored?_texts]
  intro hunfit
  cases hunfit with
  | unreadable hnone =>
    rw [hread] at hnone
    cases hnone
  | tooLong hread' _ hlong =>
    cases hread.symm.trans hread'
    have hle := Value.size_conform_le f texts
    rw [← hvalue] at hle
    omega

theorem conformed?_eq_error : conformed? f p = .error e ↔ Unfit f p e := by
  unfold conformed?
  cases hread : stored? Codec.texts p.value with
  | none =>
    constructor
    · intro h
      cases h
      exact .unreadable hread
    · intro h
      cases h with
      | unreadable => rfl
      | tooLong hread' => cases hread.symm.trans hread'
  | some texts =>
    by_cases hsame : (Value.conform f texts).toList = texts
    · simp only [if_pos hsame]
      constructor
      · intro h
        cases h
      · intro h
        cases h with
        | unreadable hnone => cases hread.symm.trans hnone
        | tooLong hread' hchanged =>
          cases hread.symm.trans hread'
          exact absurd hsame hchanged
    · have hencode : (encodeValue p.id (Value.conform f texts).toList).map some = .error e ↔
          encodeValue p.id (Value.conform f texts).toList = .error e := by
        cases encodeValue p.id (Value.conform f texts).toList <;> simp [Except.map]
      simp only [if_neg hsame]
      rw [hencode, encodeValue, StoredJson.encode_eq_error]
      constructor
      · rintro ⟨hsize, rfl⟩
        exact .tooLong hread hsame hsize
      · intro h
        cases h with
        | unreadable hnone => cases hread.symm.trans hnone
        | tooLong hread' _ hsize =>
          cases hread.symm.trans hread'
          exact ⟨hsize, rfl⟩

theorem conformed?_of_fit (h : ∀ e, ¬Unfit f p e) : ∃ text?, conformed? f p = .ok text? := by
  cases hc : conformed? f p with
  | error e => exact absurd (conformed?_eq_error.1 hc) (h e)
  | ok text? => exact ⟨text?, rfl⟩

theorem conformRow_of_fit (h : ∀ e, ¬Unfit f p e) : conformRow f p = settled f p := by
  rcases conformRow_cases (conformed?_of_fit h) with
    ⟨stored, hread, hsame, hrow⟩ | ⟨stored, text, hread, hchanged, hencode, hrow⟩
  · rw [hrow, settled, hread]
    exact (if_pos hsame).symm
  · obtain ⟨_, rfl⟩ := StoredJson.encode_eq_ok.1 hencode
    rw [hrow, settled, hread]
    exact (if_neg hchanged).symm

/-! ## All properties of a field -/

/-- A property that can be conformed does not end the loop. -/
theorem conformRows_of_rest {r : PropertyRow} {rest : List PropertyRow}
    (h : ∀ e, ¬Unfit f r e) (hrest : ∀ s, conformRows f rest s = .error e) (s : Store) :
    conformRows f (r :: rest) s = .error e := by
  obtain ⟨text?, htext⟩ := conformed?_of_fit h
  refine (Change.bind_of_ok (Change.check_eq_ok.2 ⟨htext, rfl⟩)).trans ?_
  cases text? with
  | none => exact hrest s
  | some text =>
    refine (Change.bind_of_ok (Change.updateProperties_eq_ok.2 ⟨rfl, rfl⟩)).trans ?_
    exact Change.bind_of_error (hrest _)

/-- Either no property is unfit, or the first unfit one ends the loop, from whatever store. -/
theorem conformRows_decides (f : Field) (rows : List PropertyRow) :
    (∀ p ∈ rows, ∀ e, ¬Unfit f p e) ∨
      ∃ before p after e, rows = before ++ p :: after ∧ (∀ q ∈ before, ∀ e, ¬Unfit f q e) ∧
        Unfit f p e ∧ ∀ s, conformRows f rows s = .error e := by
  induction rows with
  | nil => exact .inl fun p hp => absurd hp List.not_mem_nil
  | cons r rest ih =>
    cases hr : conformed? f r with
    | error e =>
      refine .inr ⟨[], r, rest, e, rfl, by simp, conformed?_eq_error.1 hr, fun s => ?_⟩
      have hcheck : Change.check (conformed? f r) s = .error e := by
        rw [hr]
        rfl
      exact Change.bind_of_error hcheck
    | ok text? =>
      have hfit : ∀ e, ¬Unfit f r e := by
        intro e he
        rw [conformed?_eq_error.2 he] at hr
        cases hr
      rcases ih with hall | ⟨before, p, after, e, rfl, hbefore, hp, hrest⟩
      · exact .inl (List.forall_mem_cons.2 ⟨hfit, hall⟩)
      · exact .inr ⟨r :: before, p, after, e, rfl, List.forall_mem_cons.2 ⟨hfit, hbefore⟩, hp,
          conformRows_of_rest hfit hrest⟩

/-- The first unfit property of the field is the one of the least identifier. -/
theorem conformAll_decides (f : Field) (s : Store) :
    (∀ p ∈ s.properties, p.fieldId = f.id → ∀ e, ¬Unfit f p e) ∨
      ∃ p ∈ s.properties, ∃ e, p.fieldId = f.id ∧ Unfit f p e ∧
        (∀ q ∈ s.properties, q.fieldId = f.id → q.id < p.id → ∀ e, ¬Unfit f q e) ∧
        conformAll f s = .error e := by
  obtain ⟨found, hfound, hperm, hsorted⟩ := Statement.Properties.on_valuesOfField f.id s.properties
  have hmem : ∀ r, r ∈ found ↔ r ∈ s.properties ∧ r.fieldId = f.id := by
    intro r
    rw [hperm.mem_iff, List.mem_filter, decide_eq_true_eq]
  rcases conformRows_decides f found with hall | ⟨before, p, after, e, rfl, hbefore, hp, hrun⟩
  · exact .inl fun p hp hpf => hall p ((hmem p).2 ⟨hp, hpf⟩)
  · obtain ⟨hprow, hpf⟩ := (hmem p).1 (by simp)
    refine .inr ⟨p, hprow, e, hpf, hp, ?_, ?_⟩
    · intro q hq hqf hlt
      obtain ⟨_, hafter, _⟩ := List.pairwise_append.1 hsorted
      rcases List.mem_append.1 ((hmem q).2 ⟨hq, hqf⟩) with hq' | hq'
      · exact hbefore q hq'
      · rcases List.mem_cons.1 hq' with rfl | hq'
        · exact absurd hlt (String.lt_irrefl _)
        · exact absurd hlt (List.rel_of_pairwise_cons hafter hq')
    · have hlook : Change.look (fun s =>
          query ("list properties of field " ++ f.id) s.properties
            (Statement.Properties.valuesOfField f.id)) s =
            .ok (before ++ p :: after, s) := by
        rw [Change.look_eq_ok, query, hfound]
        exact ⟨rfl, rfl⟩
      exact (Change.bind_of_ok hlook).trans (hrun s)

/-! ## Updating a field -/

section Update

variable {b : Board} {id userId text : String} {r : FieldRequest} {input : FieldInput}

/-- A request that passes all checks, for a field that is there. -/
structure ValidUpdate (b : Board) (id : String) (r : FieldRequest) (input : FieldInput)
    (text : String) : Prop where
  sameId : r.id = "" ∨ r.id = id
  check : r.check = .ok input
  encode : encodeOptions id input.options = .ok text
  hasField : b.store.hasField id = true

/-- A property that cannot be conformed undoes the update of the field. -/
theorem update_of_error (hv : ValidUpdate b id r input text)
    (hfail : conformAll (ofInput input id b.now userId) { b.store with
      fields := b.store.fields.map fun row =>
        if row.id = id then rowOf (ofInput input id b.now userId) text else row } = .error e) :
    (update id r userId).on b = (.error e, b) := by
  have hgiven : ¬(r.id ≠ "" ∧ r.id ≠ id) := by
    rintro ⟨hne, hne'⟩
    exact hv.sameId.elim hne hne'
  have hreplace : replace (rowOf (ofInput input id b.now userId) text) b.store = .error e :=
    (replace_of_hasField (f := ofInput input id b.now userId) hv.encode hv.hasField).trans hfail
  rw [update, if_neg hgiven, Call.on_bind_of_ok (Call.check_eq_ok.2 ⟨hv.check, rfl⟩),
    Call.on_bind_of_ok (Call.now_eq_ok.2 ⟨rfl, rfl⟩)]
  refine (Call.on_bind_of_ok (Call.check_eq_ok.2 ⟨hv.encode, rfl⟩)).trans ?_
  exact Call.on_bind_of_error (Call.make_of_error hreplace)

/-- If no property of the field is unfit, the field becomes the given one and each of its properties
settles. -/
theorem update_of_fit (hids : (b.store.properties.map PropertyRow.id).Nodup)
    (hv : ValidUpdate b id r input text)
    (hfit : ∀ p ∈ b.store.properties, p.fieldId = id →
      ∀ e, ¬Unfit (ofInput input id b.now userId) p e) :
    (update id r userId).on b = (.ok (ofInput input id b.now userId),
      { b with store := { b.store with
          fields := b.store.fields.map fun row =>
            if row.id = id then rowOf (ofInput input id b.now userId) text else row
          properties := b.store.properties.map fun p =>
            if p.fieldId = id then settled (ofInput input id b.now userId) p else p } }) := by
  have hsettled : conformedTo (ofInput input id b.now userId) b.store.properties =
      b.store.properties.map fun p =>
        if p.fieldId = id then settled (ofInput input id b.now userId) p else p := by
    refine List.map_congr_left fun p hp => ?_
    by_cases hpf : p.fieldId = id
    · rw [if_pos hpf, ← conformRow_of_fit (hfit p hp hpf)]
      exact if_pos hpf
    · rw [if_neg hpf]
      exact if_neg hpf
  refine (update_eq_ok hids).2
    ⟨hv.sameId, input, hv.check, rfl, text, hv.encode, hv.hasField, ?_, ?_⟩
  · exact fun p hp hpf => conformed?_of_fit (hfit p hp hpf)
  · rw [← hsettled]
    rfl

/-- Either no property of the field is unfit, or the unfit one of the least identifier ends the
call. -/
theorem update_decides (hv : ValidUpdate b id r input text) :
    (∀ p ∈ b.store.properties, p.fieldId = id →
      ∀ e, ¬Unfit (ofInput input id b.now userId) p e) ∨
      ∃ p ∈ b.store.properties, ∃ e, p.fieldId = id ∧
        Unfit (ofInput input id b.now userId) p e ∧
        (∀ q ∈ b.store.properties, q.fieldId = id → q.id < p.id →
          ∀ e, ¬Unfit (ofInput input id b.now userId) q e) ∧
        (update id r userId).on b = (.error e, b) := by
  rcases conformAll_decides (ofInput input id b.now userId) { b.store with
      fields := b.store.fields.map fun row =>
        if row.id = id then rowOf (ofInput input id b.now userId) text else row } with
    hall | ⟨p, hp, e, hpf, hunfit, hfirst, hfail⟩
  · exact .inl hall
  · exact .inr ⟨p, hp, e, hpf, hunfit, hfirst, update_of_error hv hfail⟩

theorem update_of_unfit (hids : (b.store.properties.map PropertyRow.id).Nodup)
    (hv : ValidUpdate b id r input text)
    (hp : p ∈ b.store.properties) (hpf : p.fieldId = id)
    (hunfit : Unfit (ofInput input id b.now userId) p e)
    (hfirst : ∀ q ∈ b.store.properties, q.fieldId = id → q.id < p.id →
      ∀ e, ¬Unfit (ofInput input id b.now userId) q e) :
    (update id r userId).on b = (.error e, b) := by
  rcases update_decides hv with
    hall | ⟨p', hp', e', hpf', hunfit', hfirst', hfail⟩
  · exact absurd hunfit (hall p hp hpf e)
  · have hsame : p' = p := by
      refine List.inj_on_of_nodup_map hids hp' hp (String.le_antisymm ?_ ?_)
      · exact fun hlt => hfirst' p hp hpf hlt e hunfit
      · exact fun hlt => hfirst p' hp' hpf' hlt e' hunfit'
    subst hsame
    have herror : e' = e :=
      Except.error.inj ((conformed?_eq_error.2 hunfit').symm.trans (conformed?_eq_error.2 hunfit))
    rw [hfail, herror]

/-- Where all texts that can be read are compact, one that cannot be read is an internal error. -/
theorem update_of_unreadable (hv : ValidUpdate b id r input text)
    (hp : p ∈ b.store.properties) (hpf : p.fieldId = id)
    (hnone : stored? Codec.texts p.value = none)
    (hcompact : ∀ p ∈ b.store.properties, p.fieldId = id →
      stored? Codec.texts p.value = none ∨ Compact p) :
    ∃ e, (update id r userId).on b = (.error e, b) ∧ e.report.kind = .internal := by
  rcases update_decides hv with
    hall | ⟨p', hp', e, hpf', hunfit, _, hfail⟩
  · exact absurd (.unreadable hnone) (hall p hp hpf _)
  · refine ⟨e, hfail, ?_⟩
    rcases hcompact p' hp' hpf' with hnone' | hcompact'
    · cases hunfit with
      | unreadable => rfl
      | tooLong hread => cases hread.symm.trans hnone'
    · exact absurd hunfit hcompact'.fit

/-- Calls write compact texts only, so on a board that came about by calls no property is in the way
of an update. -/
theorem update_of_reachable (hb : b.Reachable) (hv : ValidUpdate b id r input text) :
    ∃ b', (update id r userId).on b = (.ok (ofInput input id b.now userId), b') := by
  refine ⟨_, update_of_fit hb.keyed.properties hv fun p hp _ e => ?_⟩
  obtain ⟨_, texts, hvalue⟩ := hb.written.properties p hp
  obtain ⟨hsize, hvalue⟩ := StoredJson.encode_eq_ok.1 hvalue
  exact Compact.fit ⟨texts, hvalue.symm, hvalue ▸ hsize⟩

/-- The update of a field that is there. If none of its properties is unfit, it succeeds: the row of
the field is the given one, a property whose list stays the same keeps its text, and any other one
has the compact text of what is left of its list. Otherwise nothing changes, and the error is that of
the unfit property of the least identifier. A compact text within the limit is never unfit, as what
is left of a list is not longer. So a text that cannot be read is an internal error, wherever all
other texts are compact. -/
theorem update_settles (hids : (b.store.properties.map PropertyRow.id).Nodup)
    (hv : ValidUpdate b id r input text) :
    let f := ofInput input id b.now userId
    ((∀ p ∈ b.store.properties, p.fieldId = id → ∀ e, ¬Unfit f p e) →
      (update id r userId).on b = (.ok f, { b with store := { b.store with
          fields := b.store.fields.map fun row => if row.id = id then rowOf f text else row
          properties := b.store.properties.map fun p =>
            if p.fieldId = id then settled f p else p } })) ∧
    (∀ p ∈ b.store.properties, p.fieldId = id → ∀ e, Unfit f p e →
      (∀ q ∈ b.store.properties, q.fieldId = id → q.id < p.id → ∀ e, ¬Unfit f q e) →
      (update id r userId).on b = (.error e, b)) ∧
    (∀ texts, (Json.ofTexts (Value.conform f texts).toList).text.utf8ByteSize ≤
      (Json.ofTexts texts).text.utf8ByteSize) ∧
    (∀ p, Compact p → ∀ e, ¬Unfit f p e) ∧
    ((∃ p ∈ b.store.properties, p.fieldId = id ∧ stored? Codec.texts p.value = none) →
      (∀ p ∈ b.store.properties, p.fieldId = id →
        stored? Codec.texts p.value = none ∨ Compact p) →
      ∃ e, (update id r userId).on b = (.error e, b) ∧ e.report.kind = .internal) := by
  intro f
  refine ⟨update_of_fit hids hv, ?_, Value.size_conform_le f,
    fun p hp e => hp.fit, ?_⟩
  · exact fun p hp hpf e hunfit hfirst =>
      update_of_unfit hids hv hp hpf hunfit hfirst
  · rintro ⟨p, hp, hpf, hnone⟩ hcompact
    exact update_of_unreadable hv hp hpf hnone hcompact

end Update

/-- Two properties of a field of tags, one of them with a tag that is going to be removed. -/
def tagged : Board where
  now := 0
  store := {
    fields := [⟨"f", "", "Tags", "select", "[\"a\",\"b\",\"c\"]", 0, "u"⟩]
    properties := [
      ⟨"p", "post1", "post", "f", "[\"a\",\"b\"]", "c", "t"⟩,
      ⟨"q", "post2", "post", "f", "[\"c\"]", "c", "t"⟩] }

def fewerTags : FieldRequest where
  name := "Tags"
  type := "select"
  options := some [.str "a", .str "c"]

theorem tags_settle : ∃ f b, (update "f" fewerTags "u").on tagged = (.ok f, b) ∧
    b.store.properties.map PropertyRow.value = ["[\"a\"]", "[\"c\"]"] := by
  have hinput : fewerTags.check = .ok ⟨"", "Tags", .select, ["a", "c"]⟩ := rfl
  have hv : ValidUpdate tagged "f" fewerTags _ "[\"a\",\"c\"]" :=
    ⟨.inl rfl, hinput, by decide +kernel, by decide +kernel⟩
  obtain ⟨hok, _, _, hfit, _⟩ := update_settles (by decide +kernel) hv
  have hcompact : ∀ p ∈ tagged.store.properties, Compact p :=
    List.forall_mem_cons.2 ⟨⟨["a", "b"], by decide +kernel⟩,
      List.forall_mem_singleton.2 ⟨["c"], by decide +kernel⟩⟩
  refine ⟨_, _, hok fun p hp _ => hfit p (hcompact p hp), ?_⟩
  decide +kernel

/-! ## A text that is too long -/

/-- The blank in front of a text goes. -/
theorem trim_padded (n : Nat) : Text.trim (String.ofList (' ' :: List.replicate n 'a')) =
    String.ofList (List.replicate n 'a') := by
  have hblank : Text.isBlank ' ' = true ∧ Text.isBlank 'a' = false := by decide
  have hkeep : (List.replicate n 'a').dropWhile Text.isBlank = List.replicate n 'a' := by
    cases n with
    | zero => rfl
    | succ n => exact List.dropWhile_cons_of_neg (by simp [hblank])
  rw [Text.trim, String.toList_ofList, Text.trimChars, List.dropWhile_cons_of_pos hblank.1, hkeep,
    List.reverse_replicate, hkeep, List.reverse_replicate]

theorem utf8Len_flatMap_replicate (n : Nat) :
    String.utf8Len ((List.replicate n 'a').flatMap Json.escape) = n := by
  induction n with
  | zero => rfl
  | succ n ih =>
    have hescape : Json.escape 'a' = ['a'] := by decide
    have hsize : 'a'.utf8Size = 1 := by decide
    rw [List.replicate_succ, List.flatMap_cons, hescape, List.singleton_append,
      String.utf8Len_cons, ih, hsize]

/-- The text of a list with one text takes an octet for each letter, and more. -/
theorem lt_size_repeated (n : Nat) :
    n < (Json.ofTexts [String.ofList (List.replicate n 'a')]).text.utf8ByteSize := by
  have hquote : String.utf8Len (Json.str (String.ofList (List.replicate n 'a'))).render = _ :=
    Json.size_quote _
  rw [Json.text_eq, String.utf8ByteSize_ofList, Json.ofTexts, List.map_singleton,
    Json.size_arr_cons, Json.size_items_cons, hquote, String.toList_ofList,
    utf8Len_flatMap_replicate]
  omega

/-- The blank goes, and what is left is still too long. -/
theorem unfit_padded {f : Field} {p : PropertyRow} {n : Nat} (htype : f.type = .user)
    (hn : StoredJson.maxSize ≤ n)
    (hvalue : p.value = (Json.ofTexts [String.ofList (' ' :: List.replicate n 'a')]).text) :
    Unfit f p (.tooLong "property value" p.id StoredJson.maxSize) := by
  have hpositive : 0 < StoredJson.maxSize := by decide
  have hne : String.ofList (List.replicate n 'a') ≠ "" := by
    rw [Ne, String.ofList_eq_empty_iff, List.replicate_eq_nil_iff]
    omega
  have hok : Value.ofTexts f [String.ofList (' ' :: List.replicate n 'a')] =
      .ok (.user (String.ofList (List.replicate n 'a'))) := by
    refine (Value.ofTexts_eq_ok (List.cons_ne_nil _ _)).2 ?_
    rw [htype]
    exact ⟨_, _, rfl, Text.nonBlank?_eq_some_iff.2 ⟨(trim_padded n).symm, hne⟩, rfl⟩
  have hconform : (Value.conform f [String.ofList (' ' :: List.replicate n 'a')]).toList =
      [String.ofList (List.replicate n 'a')] := by
    rw [Value.conform, htype]
    simp only [hok]
    rfl
  have hread : stored? Codec.texts p.value = some [String.ofList (' ' :: List.replicate n 'a')] := by
    rw [hvalue, stored?_texts]
  refine .tooLong hread ?_ ?_
  · rw [hconform]
    intro heq
    have hlength := congrArg (fun texts => (texts.map String.length).sum) heq
    simp at hlength
  · rw [hconform]
    exact Nat.lt_of_le_of_lt hn (lt_size_repeated n)

/-- A field of texts with a text that is too long for a property, in front of a property that cannot
be read. -/
def overlong : Board where
  now := 0
  store := {
    fields := [⟨"f", "", "Owner", "text", "[]", 0, "u"⟩]
    properties := [
      ⟨"p", "post1", "post", "f",
        (Json.ofTexts [String.ofList (' ' :: List.replicate StoredJson.maxSize 'a')]).text, "c", "t"⟩,
      ⟨"q", "post2", "post", "f", "", "c", "t"⟩] }

def owners : FieldRequest where
  name := "Owner"
  type := "user"

/-- The call ends with the property that is too long, before it comes to the one that cannot be
read. -/
theorem long_text_comes_first :
    (∃ input text, ValidUpdate overlong "f" owners input text) ∧
      (∃ p ∈ overlong.store.properties, p.fieldId = "f" ∧ stored? Codec.texts p.value = none) ∧
      (update "f" owners "u").on overlong =
        (.error (.tooLong "property value" "p" StoredJson.maxSize), overlong) := by
  have hv : ValidUpdate overlong "f" owners ⟨"", "Owner", .user, []⟩ "[]" :=
    ⟨.inl rfl, rfl, by decide +kernel, by decide +kernel⟩
  have hleast : ∀ q ∈ overlong.store.properties, ¬q.id < "p" := by decide +kernel
  refine ⟨⟨_, _, hv⟩, ?_, ?_⟩
  · exact ⟨_, List.mem_cons_of_mem _ List.mem_cons_self, rfl, by decide +kernel⟩
  · exact update_of_unfit (by decide +kernel) hv List.mem_cons_self rfl
      (unfit_padded rfl (Nat.le_refl _) rfl) fun q hq _ hlt => absurd hlt (hleast q hq)

end Fields
end PropertyBoard
