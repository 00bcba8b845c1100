import PropertyBoard.Proofs.Rows

/-!
# PropertyBoard.Proofs.Interleaving

A property that is created while other actions go on.

A creation looks at the board several times and writes once. It takes its value as it was checked
first, and its last part makes sure that the field is still there.

* `Properties.create_eq_parts`: the parts of a creation. `Properties.CreatedAmid`: the parts with other
  actions between them.
* `CreatedAmid.keyed`: keys stay distinct and references good, whatever came between.
* `CreatedAmid.placed`: the property is the only one of its object for the field, and its list of
  texts is the one that was checked. It fits the field as it is by then if the type is the same and no
  text of the list was taken from the options.
* `stale_value_written`: otherwise it may not fit.
-/

namespace PropertyBoard

open Store

/-- The whole outcome of a call that succeeds. -/
theorem Call.on_of_ok {α : Type} {c : Call α} {b : Board} {a : α} (h : (c.on b).1 = .ok a) :
    c.on b = (.ok a, (c.on b).2) :=
  Prod.ext h rfl

namespace Properties

/-! ## The parts of a creation -/

/-- The field of a new property, and the value that it makes of what was sent. -/
def validated (input : PropertyInput) (userId : String) : Call (Field × Value) := do
  let f ← Call.look fun s => fieldFor s input.fieldId
  let value ← Call.check (parseValue userId f input.value)
  pure (f, value)

/-- The row that is to be added. -/
def drafted (input : PropertyInput) (f : Field) (value : Value) (scope : Scope) :
    Call PropertyRow := do
  let id ← Call.drawId
  let text ← Call.check (Fields.encodeValue id value.toList)
  pure (newRow input f scope id text)

theorem create_eq_parts (input : PropertyInput) (userId : String) :
    create input userId = (do
      let (f, value) ← validated input userId
      let scope ← Call.look fun s => Platform.scopeOf s input.objectType input.objectId
      let r ← drafted input f value scope
      let _ ← Call.make (attach r)
      pure (created input f value scope r.id)) := by
  simp only [create, validated, drafted, bind_assoc, pure_bind]
  rfl

/-- A creation that starts on one board and writes to the last one, with other actions before and
after the identifier is drawn. The scope was looked up at some time between. -/
inductive CreatedAmid (input : PropertyInput) (userId : String) (start : Board) :
    Board → Board → Property → Prop
  | intro {f : Field} {value : Value} {r : PropertyRow} {n : Nat} {drawn last done : Board}
      (before after : List Action) (scope : Scope)
      (hvalidated : (validated input userId).on start = (.ok (f, value), start))
      (hdrafted : (drafted input f value scope).on (start.run before) = (.ok r, drawn))
      (hlast : last = drawn.run after)
      (hattached : (Call.make (attach r)).on last = (.ok n, done)) :
      CreatedAmid input userId start last done (created input f value scope r.id)

variable {input : PropertyInput} {userId : String} {start last done b b' : Board} {p : Property}

theorem validated_eq_ok {f : Field} {value : Value} :
    (validated input userId).on b = (.ok (f, value), b') ↔
      Fields.find b.store input.fieldId = .ok (some f) ∧ Value.parse f input.value = .ok value ∧
        b' = b := by
  unfold validated
  simp only [Call.bind_eq_ok, Call.look_eq_ok, Call.check_eq_ok, Call.pure_eq_ok, fieldFor_eq_ok,
    parseValue_eq_ok, Prod.mk.injEq]
  constructor
  · rintro ⟨_, _, ⟨hf, rfl⟩, _, _, ⟨hvalue, rfl⟩, ⟨rfl, rfl⟩, rfl⟩
    exact ⟨hf, hvalue, rfl⟩
  · rintro ⟨hf, hvalue, rfl⟩
    exact ⟨f, _, ⟨hf, rfl⟩, value, _, ⟨hvalue, rfl⟩, ⟨rfl, rfl⟩, rfl⟩

theorem drafted_eq_ok {f : Field} {value : Value} {scope : Scope} {r : PropertyRow} :
    (drafted input f value scope).on b = (.ok r, b') ↔
      ∃ id text, id = b.nextId ∧
        Fields.encodeValue id value.toList = .ok text ∧ r = newRow input f scope id text ∧
        b' = { b with drawn := b.drawn + 1 } := by
  unfold drafted
  simp only [Call.bind_eq_ok, Call.drawId_eq_ok, Call.check_eq_ok, Call.pure_eq_ok]
  constructor
  · rintro ⟨id, _, ⟨rfl, rfl⟩, text, _, ⟨htext, rfl⟩, rfl, rfl⟩
    exact ⟨_, text, rfl, htext, rfl, rfl⟩
  · rintro ⟨id, text, rfl, htext, rfl, rfl⟩
    exact ⟨_, _, ⟨rfl, rfl⟩, text, _, ⟨htext, rfl⟩, rfl, rfl⟩

/-- A creation that nothing comes between is one of these. -/
theorem createdAmid_of_create (h : (create input userId).on start = (.ok p, done)) :
    ∃ last, CreatedAmid input userId start last done p := by
  rw [create_eq_parts] at h
  simp only [Call.bind_eq_ok, Call.look_eq_ok, Call.pure_eq_ok] at h
  obtain ⟨⟨f, value⟩, _, hvalidated, scope, _, ⟨_, rfl⟩, r, drawn, hdrafted, n, _, hattached, rfl,
    rfl⟩ := h
  obtain ⟨_, _, rfl⟩ := validated_eq_ok.1 hvalidated
  exact ⟨drawn, .intro [] [] scope hvalidated hdrafted rfl hattached⟩

/-! ## What a creation may rely on -/

/-- Keys stay distinct and references good, whatever comes between the parts. -/
theorem CreatedAmid.keyed (h : CreatedAmid input userId start last done p)
    (hstart : start.store.Keyed) : done.store.Keyed := by
  obtain @⟨f, value, r, n, drawn, _, _, before, after, scope, _, hdrafted, rfl, hattached⟩ := h
  obtain ⟨_, _, _, _, _, hdrawn⟩ := drafted_eq_ok.1 hdrafted
  have hstore : drawn.store = (start.run before).store := by rw [hdrawn]
  have hlast := Board.keyed_run (hstore ▸ Board.keyed_run hstart before) after
  obtain ⟨s', hattach, rfl⟩ := Call.make_eq_ok.1 hattached
  obtain ⟨⟨g, hg⟩, hclash, _, rfl⟩ := attach_eq_ok.1 hattach
  obtain ⟨row, hrow, hid, _⟩ := Fields.mem_of_find hg
  refine (hlast.add_property hclash (hasField_iff.2 ⟨row, hrow, hid⟩)).with_properties ?_
  rw [keys_stamped]

/-- The row that is added is the only one of its object and field. -/
theorem filter_attached {rows : List PropertyRow} {r : PropertyRow}
    (hclash : rows.any r.clashes = false) :
    ((stamped r.objectId r.scope (rows ++ [r])).filter fun q =>
      q.objectId = r.objectId && q.fieldId = r.fieldId) = [r] := by
  have hnone : (rows.filter fun q => q.objectId = r.objectId && q.fieldId = r.fieldId) = [] := by
    rw [List.filter_eq_nil_iff]
    intro q hq heq
    have := List.any_eq_false.1 hclash q hq
    simp only [Bool.and_eq_true, decide_eq_true_eq] at heq
    simp [PropertyRow.clashes, heq.1, heq.2] at this
  have hkeys : ((fun q : PropertyRow => decide (q.objectId = r.objectId) &&
      decide (q.fieldId = r.fieldId)) ∘
        fun q => if q.objectId = r.objectId then q.stamp r.scope else q) =
      fun q => decide (q.objectId = r.objectId) && decide (q.fieldId = r.fieldId) := by
    funext q
    by_cases hq : q.objectId = r.objectId <;> simp [hq, PropertyRow.stamp]
  rw [stamped, List.filter_map, hkeys, List.filter_append, hnone]
  simp [PropertyRow.stamp_eq_self.2]

/-- A property that is created amid other actions is for a field that is there, is the only one of
its object for that field, and holds the list of texts that was checked first. The list fits the field
as it is by then, if the type is the same, exactly if no text of it was taken from the options. -/
theorem CreatedAmid.placed (h : CreatedAmid input userId start last done p) :
    ∃ f g r,
      Fields.find start.store input.fieldId = .ok (some f) ∧ Value.Fits f p.value.toList ∧
      Fields.find last.store input.fieldId = .ok (some g) ∧
      done.store.fields = last.store.fields ∧
      (done.store.properties.filter fun q =>
        q.objectId = input.objectId && q.fieldId = input.fieldId) = [r] ∧
      r.id = p.id ∧ stored? Codec.texts r.value = some p.value.toList ∧
      (g.type = f.type → (Value.Fits g p.value.toList ↔
        (f.type = .select → ∀ s ∈ p.value.toList, s ∈ g.options))) := by
  obtain @⟨f, value, r, n, drawn, _, _, before, after, scope, hvalidated, hdrafted, rfl, hattached⟩ := h
  obtain ⟨hf, hvalue, _⟩ := validated_eq_ok.1 hvalidated
  obtain ⟨id, text, _, htext, hr, _⟩ := drafted_eq_ok.1 hdrafted
  obtain ⟨s', hattach, rfl⟩ := Call.make_eq_ok.1 hattached
  obtain ⟨⟨g, hg⟩, hclash, _, rfl⟩ := attach_eq_ok.1 hattach
  have hfield : r.fieldId = input.fieldId := by
    rw [hr]
    exact Fields.id_of_find hf
  have hobject : r.objectId = input.objectId := by
    rw [hr]
    rfl
  have hfits : Value.Fits f value.toList := Value.fits_of_parse hvalue
  rw [hfield] at hg
  refine ⟨f, g, r, hf, hfits, hg, rfl, ?_, rfl, ?_, ?_⟩
  · rw [← hobject, ← hfield]
    exact filter_attached hclash
  · obtain ⟨_, htext⟩ := StoredJson.encode_eq_ok.1 htext
    rw [hr]
    show stored? Codec.texts text = some value.toList
    rw [← htext, stored?_texts]
  · intro htype
    constructor
    · intro hnow hselect
      exact (Value.fits_select hnow (htype.trans hselect)).2
    · exact hfits.of_same_type htype

/-! ## A field that changes meanwhile -/

/-- A post, and a field with two options. -/
def twoOptions : List Action := [
  .host (.addChannel { id := "c", teamId := "t", name := "town", type := "O" }),
  .host (.addPost
    { id := "p", channelId := "c", userId := "u", message := "", type := "", createdAt := 0 }),
  .call (.createField
    { name := "state", type := "select", options := some [.str "open", .str "done"] } "u")]

/-- The field gets other options. -/
def otherOptions (options : List String) : List Action := [
  .call (.updateField (Identifier.nth 1)
    { name := "state", type := "select", options := some (options.map .str) } "u")]

/-- The first option, for the post. -/
def openInput : PropertyInput where
  objectId := "p"
  objectType := .post
  fieldId := Identifier.nth 1
  value := [.str "open"]

def openField : Field where
  id := Identifier.nth 1
  teamId := ""
  name := "state"
  type := .select
  options := ["open", "done"]
  updatedAt := 0
  updatedBy := "u"

def openRow : PropertyRow :=
  newRow openInput openField ⟨"c", "t"⟩ (Identifier.nth 2) "[\"open\"]"

/-- The board that the row is added to, when the field has got other options since. -/
def boardWith (options : List String) : Board :=
  ((drafted openInput openField (.select ["open"]) ⟨"c", "t"⟩).on
    ((Board.run { now := 0 } twoOptions).run (otherOptions options))).2

theorem openInput_amid (options : List String)
    (hrow : ((drafted openInput openField (.select ["open"]) ⟨"c", "t"⟩).on
      ((Board.run { now := 0 } twoOptions).run (otherOptions options))).1 = .ok openRow)
    (hok : ((Call.make (attach openRow)).on (boardWith options)).1 = .ok 0) :
    CreatedAmid openInput "u" (Board.run { now := 0 } twoOptions) (boardWith options)
      ((Call.make (attach openRow)).on (boardWith options)).2
      (created openInput openField (.select ["open"]) ⟨"c", "t"⟩ openRow.id) := by
  have hvalidated : (validated openInput "u").on (Board.run { now := 0 } twoOptions) =
      (.ok (openField, .select ["open"]), Board.run { now := 0 } twoOptions) :=
    validated_eq_ok.2 ⟨by decide +kernel, by decide, rfl⟩
  unfold boardWith at hok ⊢
  exact .intro (otherOptions options) [] ⟨"c", "t"⟩ hvalidated (Call.on_of_ok hrow)
    (Board.run_nil _).symm (Call.on_of_ok hok)

/-- Where the options come in another order, the value fits still. -/
theorem placed_amid_reordering :
    ∃ g r, Fields.find (boardWith ["done", "open"]).store (Identifier.nth 1) = .ok (some g) ∧
      ((Call.make (attach openRow)).on (boardWith ["done", "open"])).2.store.properties.filter
        (fun q => q.objectId = "p" && q.fieldId = Identifier.nth 1) = [r] ∧
      stored? Codec.texts r.value = some ["open"] ∧ Value.Fits g ["open"] := by
  obtain ⟨f, g, r, hf, _, hg, _, hone, _, hstored, hsame⟩ :=
    (openInput_amid ["done", "open"] (by decide +kernel) (by decide +kernel)).placed
  have hfound : Fields.find (Board.run { now := 0 } twoOptions).store (Identifier.nth 1) =
        .ok (some openField) ∧
      Fields.find (boardWith ["done", "open"]).store (Identifier.nth 1) =
        .ok (some { openField with options := ["done", "open"] }) := by
    decide +kernel
  cases hf.symm.trans hfound.1
  cases hg.symm.trans hfound.2
  exact ⟨_, r, hg, hone, hstored, (hsame rfl).2 fun _ => by decide⟩

/-- Where the option is gone, the value is written all the same, and the field does not accept it. -/
theorem stale_value_written :
    ¬∀ (start : Board), start.Reachable → ∀ input userId last done p,
      CreatedAmid input userId start last done p →
        ∀ g, Fields.find last.store input.fieldId = .ok (some g) →
          Value.Fits g p.value.toList := by
  intro hall
  have hamid := openInput_amid ["done"] (by decide +kernel) (by decide +kernel)
  have hfits : Value.Fits { openField with options := ["done"] } ["open"] :=
    hall _ (Board.reachable_run 0 twoOptions) _ _ _ _ _ hamid _ (by decide +kernel)
  have hmem := (Value.fits_select hfits rfl).2 "open" List.mem_cons_self
  exact absurd hmem (by decide)

end Properties
end PropertyBoard
