import PropertyBoard.Proofs.Service.Fields
import PropertyBoard.Service.Properties

/-!
# PropertyBoard.Proofs.Service.Properties

What each call about properties does, when it succeeds.

* `Properties.find_eq_ok_some`, `Properties.ofObject_eq_ok`: what was read.
* `Properties.create_eq_ok`, `Properties.update_eq_ok`, `Properties.delete_eq_ok`,
  `Properties.resync_eq_ok`: the exact conditions, and the store afterwards.
* `Properties.atomic_create`, `Properties.atomic_update`, `Properties.atomic_resync`: a call that is
  refused leaves the store as it was. A property whose value was changed is read once more, after the
  change was made; what was just written can be read (`find_withValue`).
-/

namespace PropertyBoard
namespace Properties

open Store

variable {s s' : Store} {b b' : Board} {id userId : String}

/-! ## Reading -/

theorem find_eq_ok_some {p : Property} :
    find s id = .ok (some p) ↔
      ∃ r, (s.joined.find? fun r => r.1.id = id) = some r ∧ readJoined r = some p := by
  simp only [find, query, Statement.Properties.on_byId, Refusal.ofStorage, Except.bind_eq_ok,
    Except.ok.injEq, exists_eq_left', readFirst_eq_ok_some, List.head?_filter]

/-- A property that was found is the one that was looked for, and its row is there. -/
theorem mem_of_find {p : Property} (h : find s id = .ok (some p)) :
    ∃ r ∈ s.properties, r.id = id ∧ ∃ field, r.property? field = some p := by
  obtain ⟨⟨r, field⟩, hr, hread⟩ := find_eq_ok_some.1 h
  have hmem := (mem_joined.1 (List.mem_of_find?_eq_some hr)).1
  exact ⟨r, hmem, by simpa using List.find?_some hr, field, hread⟩

theorem get_eq_ok {p : Property} : get s id = .ok p ↔ find s id = .ok (some p) :=
  Except.found_eq_ok (fun _ => rfl) rfl

theorem ofObject_eq_ok {objectId : String} {ps : List Property} :
    ofObject s objectId = .ok ps ↔
      ∃ rows, (Statement.Properties.ofObject objectId).on s.joined = .ok rows ∧
        rows.map readJoined = ps.map some := by
  simp [ofObject, query, Except.bind_eq_ok, readRows_eq_ok]

theorem fieldFor_eq_ok {fieldId : String} {f : Field} :
    fieldFor s fieldId = .ok f ↔ Fields.find s fieldId = .ok (some f) :=
  Except.found_eq_ok (fun _ => rfl) rfl

@[simp] theorem parseValue_eq_ok {f : Field} {raw : List Json} {v : Value} :
    parseValue userId f raw = .ok v ↔ Value.parse f raw = .ok v := by
  simp [parseValue, Except.bind_eq_ok, Access.toValue]

/-! ## Writing -/

theorem attach_eq_ok {r : PropertyRow} {n : Nat} :
    attach r s = .ok (n, s') ↔
      (∃ f, Fields.find s r.fieldId = .ok (some f)) ∧ s.properties.any r.clashes = false ∧
        n = ((s.properties ++ [r]).countP fun p => p.objectId = r.objectId && p.scope ≠ r.scope) ∧
        s' = { s with properties := stamped r.objectId r.scope (s.properties ++ [r]) } := by
  have hfield : ∀ f, Fields.find s r.fieldId = .ok (some f) → s.hasField r.fieldId = true := by
    intro f hf
    obtain ⟨row, hrow, hid, _⟩ := Fields.mem_of_find hf
    exact hasField_iff.2 ⟨row, hrow, hid⟩
  have hheld : s.properties.any r.clashes = false →
      ∀ p ∈ s.properties, ¬(p.objectId = r.objectId ∧ p.fieldId = r.fieldId) := by
    intro h p hp heq
    have := List.any_eq_false.1 h p hp
    simp [PropertyRow.clashes, heq.1, heq.2] at this
  unfold attach
  simp only [Change.bind_eq_ok, Change.look_eq_ok, fieldFor_eq_ok]
  constructor
  · rintro ⟨f, _, ⟨hf, rfl⟩, held, _, ⟨hcount, rfl⟩, h⟩
    split at h
    · simp at h
    · simp only [Change.bind_eq_ok, Change.insert_eq_ok, insertProperty_eq_ok_iff,
        Change.updateProperties_eq_ok] at h
      obtain ⟨_, _, ⟨hclash, _, rfl⟩, hn, rfl⟩ := h
      rw [Statement.Properties.on_restamp] at hn ⊢
      exact ⟨⟨f, hf⟩, hclash, hn.symm, rfl⟩
  · rintro ⟨⟨f, hf⟩, hclash, rfl, rfl⟩
    refine ⟨f, s, ⟨hf, rfl⟩, _, s, ⟨rfl, rfl⟩, ?_⟩
    have hnone : (Statement.Properties.countOf r.objectId r.fieldId).on s.properties = 0 := by
      simpa using hheld hclash
    rw [hnone, if_neg (by omega)]
    simp only [Change.bind_eq_ok, Change.insert_eq_ok, insertProperty_eq_ok_iff,
      Change.updateProperties_eq_ok]
    refine ⟨(), _, ⟨hclash, hfield f hf, rfl⟩, ?_⟩
    rw [Statement.Properties.on_restamp]
    exact ⟨rfl, rfl⟩

/-- A property that the object has for the field already is counted before anything is written. -/
theorem attach_of_held {r : PropertyRow} {f : Field}
    (hf : Fields.find s r.fieldId = .ok (some f))
    (hheld : ∃ p ∈ s.properties, p.objectId = r.objectId ∧ p.fieldId = r.fieldId) :
    attach r s = .error (.alreadyHeld r.objectId r.fieldId) := by
  have hcount : 0 < (Statement.Properties.countOf r.objectId r.fieldId).on s.properties := by
    rw [Statement.Properties.on_countOf, List.countP_pos_iff]
    obtain ⟨p, hp, hobject, hfield⟩ := hheld
    exact ⟨p, hp, by simp [hobject, hfield]⟩
  have hlook : Change.look (fun s => .ok
      ((Statement.Properties.countOf r.objectId r.fieldId).on s.properties)) s =
      .ok ((Statement.Properties.countOf r.objectId r.fieldId).on s.properties, s) := rfl
  refine (Change.bind_of_ok (Change.look_eq_ok.2 ⟨fieldFor_eq_ok.2 hf, rfl⟩)).trans ?_
  exact (Change.bind_of_ok hlook).trans (congrFun (if_pos hcount) _)

/-- The row of a new property. -/
def newRow (input : PropertyInput) (f : Field) (scope : Scope) (id text : String) : PropertyRow where
  id := id
  objectId := input.objectId
  objectType := input.objectType.name
  fieldId := f.id
  value := text
  channelId := scope.channelId
  teamId := scope.teamId

/-- A new property as it is answered. -/
def created (input : PropertyInput) (f : Field) (value : Value) (scope : Scope) (id : String) :
    Property where
  id := id
  objectId := input.objectId
  objectType := input.objectType
  fieldId := f.id
  fieldName := f.name
  fieldType := f.type
  fieldOptions := f.options
  value := value
  scope := scope

theorem create_eq_ok {input : PropertyInput} {p : Property} :
    (create input userId).on b = (.ok p, b') ↔
      ∃ f value scope text,
        Fields.find b.store input.fieldId = .ok (some f) ∧
        Value.parse f input.value = .ok value ∧
        Platform.scopeOf b.store input.objectType input.objectId = .ok scope ∧
        Fields.encodeValue b.nextId value.toList = .ok text ∧
        b.store.properties.any
          (newRow input f scope b.nextId text).clashes = false ∧
        p = created input f value scope b.nextId ∧
        b' = { b with
          store := { b.store with
            properties := stamped input.objectId scope (b.store.properties ++
              [newRow input f scope b.nextId text]) }
          drawn := b.drawn + 1 } := by
  have hfieldId : ∀ f, Fields.find b.store input.fieldId = .ok (some f) → f.id = input.fieldId :=
    fun f hf => Fields.id_of_find hf
  unfold create
  simp only [Call.bind_eq_ok, Call.look_eq_ok, Call.check_eq_ok, Call.drawId_eq_ok,
    Call.make_eq_ok, Call.pure_eq_ok, fieldFor_eq_ok, parseValue_eq_ok, attach_eq_ok]
  constructor
  · rintro ⟨f, _, ⟨hf, rfl⟩, value, _, ⟨hvalue, rfl⟩, scope, _, ⟨hscope, rfl⟩, _, _, ⟨rfl, rfl⟩,
      text, _, ⟨htext, rfl⟩, n, _, ⟨_, ⟨_, hclash, rfl, rfl⟩, rfl⟩, rfl, rfl⟩
    exact ⟨f, value, scope, text, hf, hvalue, hscope, htext, hclash, rfl, rfl⟩
  · rintro ⟨f, value, scope, text, hf, hvalue, hscope, htext, hclash, rfl, rfl⟩
    refine ⟨f, _, ⟨hf, rfl⟩, value, _, ⟨hvalue, rfl⟩, scope, _, ⟨hscope, rfl⟩, _, _, ⟨rfl, rfl⟩,
      text, _, ⟨htext, rfl⟩, _, _, ⟨_, ⟨⟨f, ?_⟩, hclash, rfl, rfl⟩, rfl⟩, rfl, rfl⟩
    rw [← hfieldId f hf] at hf
    exact hf

theorem setValue_eq_ok {raw : List Json} {n : Nat} :
    setValue id raw userId s = .ok (n, s') ↔
      ∃ p f value text,
        find s id = .ok (some p) ∧ Fields.find s p.fieldId = .ok (some f) ∧
        Value.parse f raw = .ok value ∧ Fields.encodeValue id value.toList = .ok text ∧
        n = (s.properties.countP fun r => r.id = id) ∧
        s' = { s with properties := withValue id text s.properties } := by
  unfold setValue
  simp only [Change.bind_eq_ok, Change.look_eq_ok, Change.check_eq_ok, get_eq_ok,
    Fields.get_eq_ok, parseValue_eq_ok, Change.updateProperties_eq_ok,
    Statement.Properties.on_updateValue]
  constructor
  · rintro ⟨p, _, ⟨hp, rfl⟩, f, _, ⟨hf, rfl⟩, value, _, ⟨hvalue, rfl⟩, text, _, ⟨htext, rfl⟩,
      rfl, rfl⟩
    exact ⟨p, f, value, text, hp, hf, hvalue, htext, rfl, rfl⟩
  · rintro ⟨p, f, value, text, hp, hf, hvalue, htext, rfl, rfl⟩
    exact ⟨p, _, ⟨hp, rfl⟩, f, _, ⟨hf, rfl⟩, value, _, ⟨hvalue, rfl⟩, text, _, ⟨htext, rfl⟩,
      rfl, rfl⟩

theorem update_eq_ok {raw : List Json} {p : Property} :
    (update id raw userId).on b = (.ok p, b') ↔
      (∃ n s', setValue id raw userId b.store = .ok (n, s') ∧ get s' id = .ok p ∧
        b' = { b with store := s' }) := by
  unfold update
  simp only [Call.bind_eq_ok, Call.make_eq_ok, Call.look_eq_ok]
  constructor
  · rintro ⟨n, _, ⟨s', hset, rfl⟩, hget, rfl⟩
    exact ⟨n, s', hset, hget, rfl⟩
  · rintro ⟨n, s', hset, hget, rfl⟩
    exact ⟨n, _, ⟨s', hset, rfl⟩, hget, rfl⟩

theorem delete_eq_ok :
    (delete id).on b = (.ok (), b') ↔
      (∃ r ∈ b.store.properties, r.id = id) ∧
        b' = { b with
          store := { b.store with
            properties := b.store.properties.filter fun r => r.id ≠ id } } := by
  by_cases hnone : ∀ r ∈ b.store.properties, ¬r.id = id
  · have hnot : ¬∃ r ∈ b.store.properties, r.id = id := by
      rintro ⟨r, hr, hid⟩
      exact hnone r hr hid
    simp [delete, remove, Change.bind_eq_ok, if_pos hnone, hnot]
  · have hsome : ∃ r ∈ b.store.properties, r.id = id := by
      simpa using hnone
    simp [delete, remove, Change.bind_eq_ok, if_neg hnone, hsome, eq_comm (a := b')]

theorem resync_eq_ok {objectId : String} {n : Nat} :
    (resync objectId).on b = (.ok n, b') ↔
      (ofObject b.store objectId = .ok [] ∧ n = 0 ∧ b' = b) ∨
        ∃ first rest scope,
          ofObject b.store objectId = .ok (first :: rest) ∧
          Platform.scopeOf b.store first.objectType objectId = .ok scope ∧
          n = (b.store.properties.countP fun r => r.objectId = objectId && r.scope ≠ scope) ∧
          b' = { b with
            store := { b.store with
              properties := stamped objectId scope b.store.properties } } := by
  unfold resync
  simp only [Call.bind_eq_ok, Call.look_eq_ok]
  constructor
  · rintro ⟨ps, _, ⟨hps, rfl⟩, h⟩
    cases ps with
    | nil =>
      obtain ⟨rfl, rfl⟩ := Call.pure_eq_ok.1 h
      exact .inl ⟨hps, rfl, rfl⟩
    | cons first rest =>
      simp only [Call.bind_eq_ok, Call.look_eq_ok, Call.make_eq_ok, Change.updateProperties_eq_ok,
        Statement.Properties.on_restamp] at h
      obtain ⟨scope, _, ⟨hscope, rfl⟩, _, ⟨rfl, rfl⟩, rfl⟩ := h
      exact .inr ⟨first, rest, scope, hps, hscope, rfl, rfl⟩
  · rintro (⟨hps, rfl, rfl⟩ | ⟨first, rest, scope, hps, hscope, rfl, rfl⟩)
    · exact ⟨[], _, ⟨hps, rfl⟩, Call.pure_eq_ok.2 ⟨rfl, rfl⟩⟩
    · refine ⟨first :: rest, _, ⟨hps, rfl⟩, ?_⟩
      simp only [Call.bind_eq_ok, Call.look_eq_ok, Call.make_eq_ok, Change.updateProperties_eq_ok,
        Statement.Properties.on_restamp]
      exact ⟨scope, _, ⟨hscope, rfl⟩, _, ⟨rfl, rfl⟩, rfl⟩

/-! ## Refused calls -/

theorem atomic_create (input : PropertyInput) (userId : String) :
    (create input userId).Atomic := by
  refine .after_quiet (Call.quiet_look _) fun f => ?_
  refine .after_quiet (Call.quiet_check _) fun value => ?_
  refine .after_quiet (Call.quiet_look _) fun scope => ?_
  refine .after_quiet Call.quiet_drawId fun id => ?_
  refine .after_quiet (Call.quiet_check _) fun text => ?_
  exact (Call.atomic_make _).then_pure _

/-- A property with another value stands beside the same field. -/
theorem joined_withValue (id value : String) (s : Store) :
    { s with properties := withValue id value s.properties }.joined =
      s.joined.map fun r => (if r.1.id = id then { r.1 with value } else r.1, r.2) := by
  simp only [joined_eq, withValue, List.flatMap_map, List.map_flatMap, List.map_map]
  refine List.flatMap_congr ?_
  intro p _
  by_cases hp : p.id = id
  · simp [hp, Function.comp_def]
  · simp [hp, Function.comp_def]

/-- A value that was just written can be read. -/
theorem find_withValue {p : Property} (texts : List String)
    (h : find s id = .ok (some p)) :
    ∃ p', find { s with
      properties := withValue id (Json.ofTexts texts).text s.properties } id =
        .ok (some p') := by
  obtain ⟨⟨row, field⟩, hrow, hread⟩ := find_eq_ok_some.1 h
  have hid : row.id = id := by
    simpa using List.find?_some hrow
  obtain ⟨fieldType, _, objectType, options, htype, _, hobject, hoptions, _⟩ :=
    PropertyRow.property?_eq_some.1 hread
  refine ⟨_, find_eq_ok_some.2 ⟨({ row with value := (Json.ofTexts texts).text }, field), ?_,
    PropertyRow.property?_eq_some.2
      ⟨fieldType, texts, objectType, options, htype, stored?_texts texts, hobject, hoptions, rfl⟩⟩⟩
  have hsame : ((fun r : Statement.Properties.Joined => decide (r.1.id = id)) ∘
      fun r : Statement.Properties.Joined =>
        (if r.1.id = id then { r.1 with value := (Json.ofTexts texts).text } else r.1, r.2)) =
      fun r => decide (r.1.id = id) := by
    funext r
    by_cases hr : r.1.id = id <;> simp [hr]
  rw [joined_withValue, List.find?_map, hsame, hrow]
  simp [hid]

/-- Reading the property again, after its value was changed, does not fail. -/
theorem atomic_update (id : String) (raw : List Json) (userId : String) :
    (update id raw userId).Atomic := by
  intro b e h
  unfold update at h ⊢
  rw [Call.on_bind] at h ⊢
  rcases hset : setValue id raw userId b.store with e' | ⟨n, s'⟩
  · have hon : (Call.make (setValue id raw userId)).on b = (.error e', b) :=
      Call.make_of_error hset
    rw [hon]
  · have hon : (Call.make (setValue id raw userId)).on b = (.ok n, { b with store := s' }) :=
      Call.make_of_ok hset
    obtain ⟨p, f, value, text, hp, _, _, htext, _, rfl⟩ := setValue_eq_ok.1 hset
    obtain ⟨_, rfl⟩ := StoredJson.encode_eq_ok.1 htext
    obtain ⟨p', hp'⟩ := find_withValue value.toList hp
    rw [hon] at h
    have hget : get { b.store with
        properties := withValue id (Json.ofTexts value.toList).text b.store.properties } id =
          .ok p' := get_eq_ok.2 hp'
    simp [Call.on, Call.look, hget] at h

theorem atomic_resync (objectId : String) : (resync objectId).Atomic := by
  refine .after_quiet (Call.quiet_look _) fun ps => ?_
  cases ps with
  | nil => exact (Call.quiet_pure _).atomic
  | cons first rest => exact .after_quiet (Call.quiet_look _) fun scope => Call.atomic_make _

end Properties
end PropertyBoard
