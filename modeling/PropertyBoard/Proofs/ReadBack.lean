import PropertyBoard.Proofs.Lookup

/-!
# PropertyBoard.Proofs.ReadBack

What a call answers that wrote something is what can be read right after it.

* `Fields.get_of_create` and its siblings: the answers of the six calls, most of which are made of the
  request and not read from the store.
* `Board.Reachable.reads_back`: so for every board that can come about and every request.
-/

namespace PropertyBoard

open Store

variable {b b' : Board} {id userId : String}

/-! ## Fields -/

namespace Fields

variable {f : Field} {r : FieldRequest}

theorem get_of_row {s : Store} (hk : s.Keyed) {row : FieldRow} (hrow : row ∈ s.fields)
    (hf : row.field? = some f) : get s row.id = .ok f := by
  exact get_eq_ok.2 (find_eq_ok_some.2 ⟨row, find?_key_eq hk.fields hrow, hf⟩)

theorem get_of_create (hb : b.Reachable) (h : (create r userId).on b = (.ok f, b')) :
    get b'.store f.id = .ok f := by
  obtain ⟨_, input, _, _, text, htext, hnew, rfl⟩ := create_eq_ok.1 h
  have hk := hb.keyed.add_field (r := rowOf f text) hnew
  exact get_of_row hk (List.mem_append_right _ (List.mem_singleton_self _)) (field?_rowOf htext)

/-- The field stands where it stood, with what the request says. -/
theorem get_of_update (hb : b.Reachable) (h : (update id r userId).on b = (.ok f, b')) :
    f.id = id ∧ get b'.store id = .ok f := by
  obtain ⟨_, input, _, rfl, text, htext, hfield, _, rfl⟩ :=
    (update_eq_ok hb.keyed.properties).1 h
  refine ⟨rfl, get_eq_ok.2 (find_eq_ok_some.2 ⟨_, ?_, field?_rowOf htext⟩)⟩
  exact find?_replaced (f := ofInput input id b.now userId) hfield

end Fields

/-! ## Properties -/

namespace Properties

variable {p : Property} {input : PropertyInput} {raw : List Json}

/-- The row of a new property has the scope that its object gets. -/
theorem newRow_mem_stamped {f : Field} {scope : Scope} {text : String} (rows : List PropertyRow) :
    newRow input f scope id text ∈
      stamped input.objectId scope (rows ++ [newRow input f scope id text]) := by
  refine mem_stamped.2 ⟨_, List.mem_append_right _ (List.mem_singleton_self _), ?_⟩
  exact (if_pos rfl).symm

/-- A new property is shown as it was answered, with the field that it was checked against. -/
theorem shown_newRow {s : Store} {f : Field} {value : Value} {scope : Scope} {text : String}
    (hfield : Fields.find s f.id = .ok (some f)) (hvalue : Value.parse f raw = .ok value)
    (htext : Fields.encodeValue id value.toList = .ok text) :
    s.shown (newRow input f scope id text) = some (created input f value scope id) := by
  obtain ⟨row, hrow, hread⟩ := Fields.find_eq_ok_some.1 hfield
  have hshown : s.shown (newRow input f scope id text) =
      (newRow input f scope id text).property? row := by
    show (s.fields.find? fun x => x.id = f.id).bind _ = _
    rw [hrow]
    rfl
  obtain ⟨type, options, htype, hoptions, rfl⟩ := FieldRow.field?_eq_some.1 hread
  obtain ⟨_, rfl⟩ := StoredJson.encode_eq_ok.1 htext
  have hstored : Value.fromStored type value.toList = value := Value.fromStored_of_parse hvalue
  rw [hshown]
  refine PropertyRow.property?_eq_some.2
    ⟨type, value.toList, input.objectType, options, htype, stored?_texts _,
      ObjectType.ofName?_name _, hoptions, ?_⟩
  rw [hstored]
  rfl

theorem get_of_create (hb : b.Reachable) (h : (create input userId).on b = (.ok p, b')) :
    get b'.store p.id = .ok p := by
  have hafter : b.after (.call (.createProperty input userId)) = b' :=
    (Board.after_silent rfl b).trans (congrArg Prod.snd h)
  have hk : b'.store.Keyed := (hafter ▸ hb.after _ : b'.Reachable).keyed
  obtain ⟨f, value, scope, text, hfield, hvalue, _, htext, _, rfl, rfl⟩ := create_eq_ok.1 h
  have hid := Fields.id_of_find hfield
  refine (get_iff_shown hk).2 ⟨_, newRow_mem_stamped _, rfl, ?_⟩
  exact shown_newRow (hid.symm ▸ hfield) hvalue htext

/-- The answer is read after the value was changed. -/
theorem get_of_update (h : (update id raw userId).on b = (.ok p, b')) :
    p.id = id ∧ get b'.store id = .ok p := by
  obtain ⟨n, s', _, hget, rfl⟩ := update_eq_ok.1 h
  obtain ⟨r, _, hid, field, hread⟩ := mem_of_find (get_eq_ok.1 hget)
  obtain ⟨_, _, _, _, _, _, _, _, rfl⟩ := PropertyRow.property?_eq_some.1 hread
  exact ⟨hid, hget⟩

end Properties

/-! ## Views -/

namespace Views

variable {v : View} {r : ViewRequest} {patch : ViewPatch}

theorem get_of_create (hb : b.Reachable) (h : (create r).on b = (.ok v, b')) :
    get b'.store v.id = .ok v := by
  obtain ⟨input, queryText, layoutText, _, _, hquery, hlayout, hnew, rfl⟩ := create_eq_ok.1 h
  have hk := hb.keyed.add_view (r := rowOf v queryText layoutText) hnew
  exact get_of_row hk (List.mem_append_right _ (List.mem_singleton_self _))
    (view?_rowOf hquery hlayout)

theorem get_of_update (h : (update id patch).on b = (.ok v, b')) :
    v.id = id ∧ get b'.store id = .ok v := by
  obtain ⟨parts, q, s', _, _, _, _, hget, rfl⟩ := update_eq_ok.1 h
  obtain ⟨row, _, hid, hread⟩ := row_of_get hget
  obtain ⟨_, _, _, _, _, _, rfl⟩ := ViewRow.view?_eq_some.1 hread
  exact ⟨hid, hget⟩

end Views

/-! ## All of them -/

/-- What a call answers that wrote a field, a property or a view is what can be had by its identifier
right after the call, in every part of it. -/
theorem Board.Reachable.reads_back {b : Board} (h : b.Reachable) (userId id : String)
    (b' : Board) :
    (∀ r f, (Fields.create r userId).on b = (.ok f, b') → Fields.get b'.store f.id = .ok f) ∧
      (∀ r f, (Fields.update id r userId).on b = (.ok f, b') →
        f.id = id ∧ Fields.get b'.store id = .ok f) ∧
      (∀ input p, (Properties.create input userId).on b = (.ok p, b') →
        Properties.get b'.store p.id = .ok p) ∧
      (∀ raw p, (Properties.update id raw userId).on b = (.ok p, b') →
        p.id = id ∧ Properties.get b'.store id = .ok p) ∧
      (∀ r v, (Views.create r).on b = (.ok v, b') → Views.get b'.store v.id = .ok v) ∧
      ∀ patch v, (Views.update id patch).on b = (.ok v, b') →
        v.id = id ∧ Views.get b'.store id = .ok v :=
  ⟨fun _ _ => Fields.get_of_create h, fun _ _ => Fields.get_of_update h,
    fun _ _ => Properties.get_of_create h, fun _ _ => Properties.get_of_update,
    fun _ _ => Views.get_of_create h, fun _ _ => Views.get_of_update⟩

/-- A text in which everything has to be written differently in JSON. -/
def oddText : String :=
  "\"\\\n\x01"

/-- A post, and a field whose name is odd. -/
def oddField : List Action := [
  .host (.addChannel { id := "c", teamId := "t", name := "town", type := "O" }),
  .host (.addPost
    { id := "p", channelId := "c", userId := "u", message := "", type := "", createdAt := 0 }),
  .call (.createField { name := "a" ++ oddText ++ "b", type := "text" } "u")]

/-- A property whose value is odd. -/
def oddInput : PropertyInput where
  objectId := "p"
  objectType := .post
  fieldId := Identifier.nth 1
  value := [.str oddText]

theorem odd_text_reads_back :
    ∃ p b', (Properties.create oddInput "u").on (Board.run { now := 0 } oddField) = (.ok p, b') ∧
      p.fieldName = "a" ++ oddText ++ "b" ∧ p.value = .text oddText ∧
      Properties.get b'.store p.id = .ok p := by
  have hok : ((Properties.create oddInput "u").on (Board.run { now := 0 } oddField)).1 = .ok {
      id := Identifier.nth 2
      objectId := "p"
      objectType := .post
      fieldId := Identifier.nth 1
      fieldName := "a" ++ oddText ++ "b"
      fieldType := .text
      fieldOptions := []
      value := .text oddText
      scope := { channelId := "c", teamId := "t" } } := by decide +kernel
  exact ⟨_, _, Prod.ext hok rfl, rfl, rfl,
    (Board.Reachable.reads_back (Board.reachable_run 0 oddField) "u" "" _).2.2.1 _ _
      (Prod.ext hok rfl)⟩

end PropertyBoard
