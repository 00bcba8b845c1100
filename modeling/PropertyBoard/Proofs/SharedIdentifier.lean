import PropertyBoard.Proofs.Drawn
import PropertyBoard.Proofs.Rows

/-!
# PropertyBoard.Proofs.SharedIdentifier

A post and a channel of one identifier. Properties are stamped, counted and kept apart by the
identifier of their object, whatever its type.

* `Store.othersOf`: the properties of an object of the same identifier and another type.
* `sharedId`, `types_are_not_apart`: a new property of the one moves the properties of the other, and
  a field that the one has is taken for the other.
* `Properties.others_of_create`, `Properties.others_of_resync`: how far the other object is moved.
* `Properties.create_answers_iff_without`, `Properties.create_of_held`: where its properties count for
  a new one.
* `others_keep_all_but_scope`: so the other object keeps all but its scope, on any board. Where it may
  refuse a new property, the identifier of that one must be free (`Board.HasFreeId`), as it is on a
  board that came about (`Board.Reachable.hasFreeId`).
-/

namespace PropertyBoard

open Store

namespace Store

/-- Whether a property is of an object of this identifier but of another type. -/
def PropertyRow.isOther (objectId : String) (type : ObjectType) (p : PropertyRow) : Bool :=
  p.objectId = objectId && p.objectType ≠ type.name

def othersOf (s : Store) (objectId : String) (type : ObjectType) : List PropertyRow :=
  s.properties.filter (PropertyRow.isOther objectId type)

def withoutOthers (s : Store) (objectId : String) (type : ObjectType) : Store :=
  { s with properties := s.properties.filter fun p => !p.isOther objectId type }

end Store

/-- The identifier that is drawn next is that of no property. -/
def Board.HasFreeId (b : Board) : Prop :=
  b.nextId ∉ b.store.properties.map PropertyRow.id

instance (b : Board) : Decidable b.HasFreeId :=
  inferInstanceAs (Decidable (b.nextId ∉ b.store.properties.map PropertyRow.id))

theorem Board.Reachable.hasFreeId {b : Board} (h : b.Reachable) : b.HasFreeId :=
  fun hid => h.unused (mem_ids.2 (.inr (.inl hid)))

def Board.withoutOthers (b : Board) (objectId : String) (type : ObjectType) : Board :=
  { b with store := b.store.withoutOthers objectId type }

/-! ## A post and a channel of one identifier -/

/-- The channel has a property; the post of the same identifier is in a channel of another team. -/
def sharedId : List Action := [
  .host (.addChannel { id := "x", teamId := "t1", name := "x", type := "O" }),
  .host (.addChannel { id := "c", teamId := "t2", name := "c", type := "O" }),
  .host (.addPost
    { id := "x", channelId := "c", userId := "u", message := "", type := "", createdAt := 0 }),
  .call (.createField { name := "note", type := "text" } "u"),
  .call (.createField { name := "topic", type := "text" } "u"),
  .call (.createProperty
    { objectId := "x", objectType := .channel, fieldId := Identifier.nth 1, value := [.str "a"] }
    "u")]

/-- A property of the post for one of the two fields. -/
def forPost (n : Nat) : PropertyInput where
  objectId := "x"
  objectType := .post
  fieldId := Identifier.nth n
  value := [.str "b"]

def shared : Board :=
  Board.run { now := 0 } sharedId

def postAdded : Board :=
  ((Properties.create (forPost 2) "u").on shared).2

/-- The property of the channel gets the scope of the post; and the field that the channel has cannot
be had by the post, which it could without the channel. -/
theorem types_are_not_apart :
    (((Properties.create (forPost 2) "u").on shared).1.isOk = true ∧
      (shared.store.othersOf "x" .post).map PropertyRow.scope = [⟨"x", "t1"⟩] ∧
      (postAdded.store.othersOf "x" .post).map PropertyRow.scope = [⟨"c", "t2"⟩]) ∧
    ((Properties.create (forPost 1) "u").on shared).1 =
      .error (.alreadyHeld "x" (Identifier.nth 1)) ∧
    ((Properties.create (forPost 1) "u").on (shared.withoutOthers "x" .post)).1.isOk = true := by
  refine ⟨⟨?_, ?_, ?_⟩, ?_, ?_⟩ <;> decide +kernel

/-! ## What the other object keeps -/

namespace Store

theorem objectId_of_isOther {objectId : String} {type : ObjectType} {p : PropertyRow}
    (h : p.isOther objectId type = true) : p.objectId = objectId := by
  simp only [PropertyRow.isOther, Bool.and_eq_true, decide_eq_true_eq] at h
  exact h.1

/-- Of the rows of the object, the others are stamped as the rest is. -/
theorem others_stamped (objectId : String) (type : ObjectType) (scope : Scope)
    (rows : List PropertyRow) :
    (stamped objectId scope rows).filter (PropertyRow.isOther objectId type) =
      (rows.filter (PropertyRow.isOther objectId type)).map (PropertyRow.stamp scope) := by
  have hkept : PropertyRow.isOther objectId type ∘
      (fun p => if p.objectId = objectId then p.stamp scope else p) =
        PropertyRow.isOther objectId type := by
    funext p
    show (if p.objectId = objectId then p.stamp scope else p).isOther objectId type = _
    split
    · rfl
    · rfl
  rw [stamped, List.filter_map, hkept]
  exact List.map_congr_left fun p hp => if_pos (objectId_of_isOther (List.mem_filter.1 hp).2)

end Store

namespace Properties

variable {b b' : Board} {input : PropertyInput} {userId : String}

/-- What a new property needs, whatever other properties there are. -/
structure Creatable (b : Board) (input : PropertyInput) (f : Field) (value : Value) (scope : Scope)
    (text : String) : Prop where
  find : Fields.find b.store input.fieldId = .ok (some f)
  parse : Value.parse f input.value = .ok value
  scopeOf : Platform.scopeOf b.store input.objectType input.objectId = .ok scope
  encode : Fields.encodeValue b.nextId value.toList = .ok text

theorem create_answers_iff {p : Property} :
    (∃ b', (create input userId).on b = (.ok p, b')) ↔
      ∃ f value scope text, Creatable b input f value scope text ∧
        b.store.properties.any
          (newRow input f scope b.nextId text).clashes = false ∧
        p = created input f value scope b.nextId := by
  simp only [create_eq_ok]
  constructor
  · rintro ⟨_, f, value, scope, text, hf, hvalue, hscope, htext, hclash, hp, _⟩
    exact ⟨f, value, scope, text, ⟨hf, hvalue, hscope, htext⟩, hclash, hp⟩
  · rintro ⟨f, value, scope, text, ⟨hf, hvalue, hscope, htext⟩, hclash, hp⟩
    exact ⟨_, f, value, scope, text, hf, hvalue, hscope, htext, hclash, hp, rfl⟩

/-- A property that the object has for the field already is the reason of the refusal. -/
theorem create_of_held {f : Field} {value : Value} {scope : Scope} {text : String}
    (h : Creatable b input f value scope text)
    (hheld : ∃ p ∈ b.store.properties, p.objectId = input.objectId ∧ p.fieldId = input.fieldId) :
    ((create input userId).on b).1 = .error (.alreadyHeld input.objectId input.fieldId) := by
  have hid : f.id = input.fieldId := Fields.id_of_find h.find
  have hattach : attach (newRow input f scope b.nextId text) b.store =
      .error (.alreadyHeld input.objectId f.id) := by
    refine attach_of_held ((congrArg (Fields.find b.store) hid).trans h.find) ?_
    obtain ⟨p, hp, hobject, hfield⟩ := hheld
    exact ⟨p, hp, hobject, hfield.trans hid.symm⟩
  have hmake : (Call.make (attach (newRow input f scope b.nextId text))).on
      { b with drawn := b.drawn + 1 } =
        (.error (.alreadyHeld input.objectId f.id), { b with drawn := b.drawn + 1 }) :=
    Call.make_of_error hattach
  unfold create
  rw [Call.on_bind_of_ok (Call.look_eq_ok.2 ⟨fieldFor_eq_ok.2 h.find, rfl⟩),
    Call.on_bind_of_ok (Call.check_eq_ok.2 ⟨parseValue_eq_ok.2 h.parse, rfl⟩),
    Call.on_bind_of_ok (Call.look_eq_ok.2 ⟨h.scopeOf, rfl⟩),
    Call.on_bind_of_ok (Call.drawId_eq_ok.2 ⟨rfl, rfl⟩),
    Call.on_bind_of_ok (Call.check_eq_ok.2 ⟨h.encode, rfl⟩), ← hid]
  exact congrArg Prod.fst (Call.on_bind_of_error hmake)

/-- A new property clashes with the other object exactly if that has the field. -/
theorem clashes_iff_without (hb : b.HasFreeId) {f : Field} (hf : f.id = input.fieldId)
    (scope : Scope) (text : String) :
    b.store.properties.any
        (newRow input f scope b.nextId text).clashes = false ↔
      (b.store.withoutOthers input.objectId input.objectType).properties.any
          (newRow input f scope b.nextId text).clashes = false ∧
        ∀ q ∈ b.store.othersOf input.objectId input.objectType, q.fieldId ≠ input.fieldId := by
  rw [List.any_eq_false, List.any_eq_false]
  constructor
  · intro hall
    refine ⟨fun p hp => hall p (List.mem_filter.1 hp).1, ?_⟩
    intro q hq hfield
    obtain ⟨hq, hother⟩ := List.mem_filter.1 hq
    exact hall q hq (by simp [PropertyRow.clashes, newRow, objectId_of_isOther hother, hf, hfield])
  · rintro ⟨hwithout, hnone⟩ p hp
    cases hother : p.isOther input.objectId input.objectType with
    | false => exact hwithout p (List.mem_filter.2 ⟨hp, by simp [hother]⟩)
    | true =>
      have hfield : p.fieldId ≠ input.fieldId := hnone p (List.mem_filter.2 ⟨hp, hother⟩)
      have hid : p.id ≠ b.nextId := fun hid => hb (List.mem_map.2 ⟨p, hp, hid⟩)
      simp [PropertyRow.clashes, newRow, hf, hfield.symm, hid.symm]

/-- For a new property the other object counts only where it has the field. -/
theorem create_answers_iff_without (hb : b.HasFreeId) {p : Property} :
    (∃ b', (create input userId).on b = (.ok p, b')) ↔
      (∃ b', (create input userId).on (b.withoutOthers input.objectId input.objectType) =
        (.ok p, b')) ∧
      ∀ q ∈ b.store.othersOf input.objectId input.objectType, q.fieldId ≠ input.fieldId := by
  rw [create_answers_iff, create_answers_iff]
  constructor
  · rintro ⟨f, value, scope, text, h, hclash, hp⟩
    obtain ⟨hwithout, hnone⟩ := (clashes_iff_without hb (Fields.id_of_find h.find) scope text).1 hclash
    exact ⟨⟨f, value, scope, text, ⟨h.find, h.parse, h.scopeOf, h.encode⟩, hwithout, hp⟩, hnone⟩
  · rintro ⟨⟨f, value, scope, text, h, hwithout, hp⟩, hnone⟩
    have hid : f.id = input.fieldId := Fields.id_of_find h.find
    exact ⟨f, value, scope, text, ⟨h.find, h.parse, h.scopeOf, h.encode⟩,
      (clashes_iff_without hb hid scope text).2 ⟨hwithout, hnone⟩, hp⟩

/-- A successful new property gives the others the scope that it gets itself. -/
theorem others_of_create {p : Property} (h : (create input userId).on b = (.ok p, b')) :
    ∃ scope, Platform.scopeOf b.store input.objectType input.objectId = .ok scope ∧
      p.scope = scope ∧
      b'.store.othersOf input.objectId input.objectType =
        (b.store.othersOf input.objectId input.objectType).map (PropertyRow.stamp scope) := by
  obtain ⟨f, value, scope, text, _, _, hscope, _, _, rfl, rfl⟩ := create_eq_ok.1 h
  refine ⟨scope, hscope, rfl, ?_⟩
  have hnew : (newRow input f scope b.nextId text).isOther input.objectId
      input.objectType = false := by
    simp [PropertyRow.isOther, newRow]
  rw [othersOf, others_stamped, List.filter_append, List.filter_singleton, hnew]
  simp [othersOf]

theorem others_of_resync {objectId : String} {n : Nat}
    (h : (resync objectId).on b = (.ok n, b')) :
    (ofObject b.store objectId = .ok [] ∧ b' = b) ∨
      ∃ first rest scope, ofObject b.store objectId = .ok (first :: rest) ∧
        Platform.scopeOf b.store first.objectType objectId = .ok scope ∧
        ∀ type, b'.store.othersOf objectId type =
          (b.store.othersOf objectId type).map (PropertyRow.stamp scope) := by
  rcases resync_eq_ok.1 h with ⟨hnone, _, hb'⟩ | ⟨first, rest, scope, hobject, hscope, _, rfl⟩
  · exact .inl ⟨hnone, hb'⟩
  · exact .inr ⟨first, rest, scope, hobject, hscope, fun type => others_stamped _ _ _ _⟩

end Properties

/-- Of two objects of one identifier and different types, the properties of the one change in nothing
but their scope by what is done to the other, which gets the same scope. A new property is refused on
account of them where one of them is for its field, and only there if its identifier is free. -/
theorem others_keep_all_but_scope (b : Board) :
    (∀ input userId p b', (Properties.create input userId).on b = (.ok p, b') →
      ∃ scope, Platform.scopeOf b.store input.objectType input.objectId = .ok scope ∧
        p.scope = scope ∧
        b'.store.othersOf input.objectId input.objectType =
          (b.store.othersOf input.objectId input.objectType).map (PropertyRow.stamp scope)) ∧
    (∀ objectId n b', (Properties.resync objectId).on b = (.ok n, b') →
      (Properties.ofObject b.store objectId = .ok [] ∧ b' = b) ∨
        ∃ first rest scope, Properties.ofObject b.store objectId = .ok (first :: rest) ∧
          Platform.scopeOf b.store first.objectType objectId = .ok scope ∧
          ∀ type, b'.store.othersOf objectId type =
            (b.store.othersOf objectId type).map (PropertyRow.stamp scope)) ∧
    ∀ input userId p,
      (b.HasFreeId →
        ((∃ b', (Properties.create input userId).on b = (.ok p, b')) ↔
          (∃ b', (Properties.create input userId).on
            (b.withoutOthers input.objectId input.objectType) = (.ok p, b')) ∧
          ∀ q ∈ b.store.othersOf input.objectId input.objectType, q.fieldId ≠ input.fieldId)) ∧
      ((∃ b', (Properties.create input userId).on
          (b.withoutOthers input.objectId input.objectType) = (.ok p, b')) →
        (∃ q ∈ b.store.othersOf input.objectId input.objectType, q.fieldId = input.fieldId) →
        ((Properties.create input userId).on b).1 =
          .error (.alreadyHeld input.objectId input.fieldId)) := by
  refine ⟨fun input userId p b' h => Properties.others_of_create h,
    fun objectId n b' h => Properties.others_of_resync h, fun input userId p =>
      ⟨fun hfree => Properties.create_answers_iff_without hfree, ?_⟩⟩
  rintro hwithout ⟨q, hq, hfield⟩
  obtain ⟨f, value, scope, text, h, _, _⟩ := Properties.create_answers_iff.1 hwithout
  obtain ⟨hq, hother⟩ := List.mem_filter.1 hq
  exact Properties.create_of_held ⟨h.find, h.parse, h.scopeOf, h.encode⟩
    ⟨q, hq, objectId_of_isOther hother, hfield⟩

/-- The channel has no other property and no other value after the post got one, but another scope;
the field that it has is refused to the post, and the other one is not. -/
theorem channel_under_post :
    (∃ p, (Properties.create (forPost 2) "u").on shared = (.ok p, postAdded) ∧
      p.scope = ⟨"c", "t2"⟩ ∧
      postAdded.store.othersOf "x" .post =
        (shared.store.othersOf "x" .post).map (PropertyRow.stamp ⟨"c", "t2"⟩) ∧
      ∃ b', (Properties.create (forPost 2) "u").on (shared.withoutOthers "x" .post) = (.ok p, b')) ∧
    shared.HasFreeId ∧ (∃ q ∈ shared.store.othersOf "x" .post, q.fieldId = Identifier.nth 1) ∧
    ((Properties.create (forPost 1) "u").on shared).1 =
      .error (.alreadyHeld "x" (Identifier.nth 1)) := by
  obtain ⟨hcreate, _, hcounts⟩ := others_keep_all_but_scope shared
  have hfree : shared.HasFreeId := by
    decide +kernel
  have hadded : ∃ p, (Properties.create (forPost 2) "u").on shared = (.ok p, postAdded) := by
    refine ⟨Properties.created (forPost 2) ⟨Identifier.nth 2, "", "topic", .text, [], 0, "u"⟩
      (.text "b") ⟨"c", "t2"⟩ (Identifier.nth 4), Prod.ext ?_ rfl⟩
    decide +kernel
  have hheld : ∃ q ∈ shared.store.othersOf "x" .post, q.fieldId = Identifier.nth 1 := by
    decide +kernel
  have hscope : Platform.scopeOf shared.store .post "x" = .ok ⟨"c", "t2"⟩ := by
    decide +kernel
  have hwithout : ((Properties.create (forPost 1) "u").on (shared.withoutOthers "x" .post)).1 =
      .ok (Properties.created (forPost 1) ⟨Identifier.nth 1, "", "note", .text, [], 0, "u"⟩
        (.text "b") ⟨"c", "t2"⟩ (Identifier.nth 4)) := by
    decide +kernel
  refine ⟨?_, hfree, hheld, (hcounts (forPost 1) "u" _).2 ⟨_, Prod.ext hwithout rfl⟩ hheld⟩
  obtain ⟨p, hp⟩ := hadded
  obtain ⟨scope, hpost, hown, hothers⟩ := hcreate _ _ _ _ hp
  cases hpost.symm.trans hscope
  exact ⟨p, hp, hown, hothers, (((hcounts (forPost 2) "u" p).1 hfree).1 ⟨_, hp⟩).1⟩

end PropertyBoard
