import PropertyBoard.Proofs.ReadBack
import PropertyBoard.Proofs.Scope
import PropertyBoard.Proofs.SharedIdentifier
import PropertyBoard.Proofs.Unspoilt

/-!
# PropertyBoard.Proofs.Creation

When a property is created, and what a caller is told when it is not.

* `Store.IsField`, `Store.Resolves`, `Store.Lacks`: what the tables say about a field and an object.
  An object resolves or something of it is lacking (`Store.resolves_or_lacks`).
* `Properties.Allowed`: the five conditions, one for each thing that can be wrong.
* `Properties.Refused`: the refusals, each under the conditions that come before the one that fails.
  So a refusal goes by the first condition that fails.
* `Properties.create_decides`: a creation succeeds exactly if it is allowed, and fails exactly with
  its refusal. A new property has the value, and all properties of the object have the scope that the
  platform has for it.
-/

namespace PropertyBoard

open Store

/-! ## Fields and objects -/

namespace Store

/-- The field is what the row of this identifier says. -/
def IsField (s : Store) (id : String) (f : Field) : Prop :=
  ∃ r ∈ s.fields, r.id = id ∧ r.field? = some f

/-- The platform knows the object, and has it in this channel and team now. -/
inductive Resolves (s : Store) : ObjectType → String → Scope → Prop where
  | post {id : String} {p : Post} {c : ChannelRow} (hpost : s.post? id = some p)
      (hchannel : s.channelRow? p.channelId = some c) : Resolves s .post id ⟨c.id, c.teamId⟩
  | channel {id : String} {c : ChannelRow} (hchannel : s.channelRow? id = some c) :
      Resolves s .channel id ⟨c.id, c.teamId⟩

/-- What the platform does not know of an object: the object, or the channel of a post. -/
inductive Lacks (s : Store) : ObjectType → String → Noun → String → Prop where
  | post {id : String} (hpost : s.post? id = none) : Lacks s .post id .post id
  | channelOfPost {id : String} {p : Post} (hpost : s.post? id = some p)
      (hchannel : s.channelRow? p.channelId = none) : Lacks s .post id .channel p.channelId
  | channel {id : String} (hchannel : s.channelRow? id = none) : Lacks s .channel id .channel id

theorem Resolves.with_properties {s : Store} {type : ObjectType} {id : String} {scope : Scope}
    (h : s.Resolves type id scope) (properties : List PropertyRow) :
    { s with properties }.Resolves type id scope := by
  cases h with
  | post hpost hchannel => exact .post hpost hchannel
  | channel hchannel => exact .channel hchannel

theorem resolves_or_lacks (s : Store) (type : ObjectType) (id : String) :
    (∃ scope, s.Resolves type id scope) ∨ ∃ noun missing, s.Lacks type id noun missing := by
  cases type with
  | post =>
    cases hpost : s.post? id with
    | none => exact .inr ⟨_, _, .post hpost⟩
    | some p =>
      cases hchannel : s.channelRow? p.channelId with
      | none => exact .inr ⟨_, _, .channelOfPost hpost hchannel⟩
      | some c => exact .inl ⟨_, .post hpost hchannel⟩
  | channel =>
    cases hchannel : s.channelRow? id with
    | none => exact .inr ⟨_, _, .channel hchannel⟩
    | some c => exact .inl ⟨_, .channel hchannel⟩

end Store

namespace Channels

variable {s : Store} {id : String}

theorem get_of_row (hknown : s.Knows) {c : ChannelRow} (hc : s.channelRow? id = some c) :
    ∃ channel, get s id = .ok channel ∧ channel.id = c.id ∧ channel.teamId = c.teamId := by
  obtain ⟨channel, hchannel⟩ := hknown c (List.mem_of_find?_eq_some hc)
  refine ⟨channel, get_eq_ok.2 (find_eq_ok_some.2 ⟨c, hc, hchannel⟩), ?_⟩
  obtain ⟨_, _, rfl⟩ := ChannelRow.channel?_eq_some.1 hchannel
  exact ⟨rfl, rfl⟩

end Channels

namespace Platform

variable {s : Store} {type : ObjectType} {id : String}

theorem scopeOf_of_resolves (hknown : s.Knows) {scope : Scope} (h : s.Resolves type id scope) :
    scopeOf s type id = .ok scope := by
  cases h with
  | @post _ p c hpost hchannel =>
    obtain ⟨channel, hget, hid, hteam⟩ := Channels.get_of_row hknown hchannel
    have hown : c.id = p.channelId := by
      simpa using List.find?_some hchannel
    exact scopeOf_post.2 ⟨p, channel, hpost, hget, by rw [hown, hteam]⟩
  | @channel _ c hchannel =>
    obtain ⟨channel, hget, hid, hteam⟩ := Channels.get_of_row hknown hchannel
    rw [scopeOf, channelOf, hget, ← hid, ← hteam]
    rfl

theorem scopeOf_of_lacks {noun : Noun} {missing : String} (h : s.Lacks type id noun missing) :
    scopeOf s type id = .error (.notFound noun missing) := by
  cases h with
  | post hpost =>
    rw [scopeOf, channelOf, Posts.get_of_none hpost]
    rfl
  | @channelOfPost _ p hpost hchannel =>
    have hget : Posts.get s id = .ok p := Posts.get_eq_ok.2 (Posts.find_eq_ok_some.2 hpost)
    rw [scopeOf, channelOf, hget]
    show (Channels.get s p.channelId >>= _) = _
    rw [Channels.get_of_none hchannel]
    rfl
  | channel hchannel =>
    rw [scopeOf, channelOf, Channels.get_of_none hchannel]
    rfl

end Platform

/-! ## The decision -/

namespace Properties

variable {b b' : Board} {input : PropertyInput} {userId : String}

/-- Nothing is wrong with a new property: what is written is the value, in this scope. -/
structure Allowed (b : Board) (input : PropertyInput) (f : Field) (value : Value) (scope : Scope) :
    Prop where
  field : b.store.IsField input.fieldId f
  parse : Value.parse f input.value = .ok value
  object : b.store.Resolves input.objectType input.objectId scope
  size : (Json.ofTexts value.toList).text.utf8ByteSize ≤ StoredJson.maxSize
  free : ∀ p ∈ b.store.properties, p.objectId = input.objectId → p.fieldId ≠ input.fieldId

/-- The first thing that is wrong with a new property, and of what kind it is. -/
inductive Refused (b : Board) (input : PropertyInput) : ErrorKind → Refusal → Prop where
  | field (h : ∀ r ∈ b.store.fields, r.id ≠ input.fieldId) :
      Refused b input .badRequest (.unknownField input.fieldId)
  | value {f : Field} {cause : Invalid} (hfield : b.store.IsField input.fieldId f)
      (h : Value.parse f input.value = .error cause) :
      Refused b input .badRequest (.invalid cause)
  | object {f : Field} {value : Value} {noun : Noun} {missing : String}
      (hfield : b.store.IsField input.fieldId f) (hvalue : Value.parse f input.value = .ok value)
      (h : b.store.Lacks input.objectType input.objectId noun missing) :
      Refused b input .notFound (.notFound noun missing)
  | size {f : Field} {value : Value} {scope : Scope}
      (hfield : b.store.IsField input.fieldId f) (hvalue : Value.parse f input.value = .ok value)
      (hobject : b.store.Resolves input.objectType input.objectId scope)
      (h : StoredJson.maxSize < (Json.ofTexts value.toList).text.utf8ByteSize) :
      Refused b input .badRequest
        (.tooLong "property value" b.nextId StoredJson.maxSize)
  | held {f : Field} {value : Value} {scope : Scope}
      (hfield : b.store.IsField input.fieldId f) (hvalue : Value.parse f input.value = .ok value)
      (hobject : b.store.Resolves input.objectType input.objectId scope)
      (hsize : (Json.ofTexts value.toList).text.utf8ByteSize ≤ StoredJson.maxSize)
      (h : ∃ p ∈ b.store.properties, p.objectId = input.objectId ∧ p.fieldId = input.fieldId) :
      Refused b input .conflict (.alreadyHeld input.objectId input.fieldId)

theorem Refused.kind_eq {kind : ErrorKind} {e : Refusal} (h : Refused b input kind e) :
    e.report.kind = kind := by
  cases h <;> rfl

/-- Every field can be read, so a new property is allowed or there is a first thing wrong. -/
theorem allowed_or_refused (hw : b.store.Written) (input : PropertyInput) :
    (∃ f value scope, Allowed b input f value scope) ∨ ∃ kind e, Refused b input kind e := by
  by_cases hrow : ∃ r ∈ b.store.fields, r.id = input.fieldId
  swap
  · exact .inr ⟨_, _, .field fun r hr hid => hrow ⟨r, hr, hid⟩⟩
  obtain ⟨r, hr, hid⟩ := hrow
  obtain ⟨f, hf⟩ := (hw.fields r hr).reads
  have hfield : b.store.IsField input.fieldId f := ⟨r, hr, hid, hf⟩
  cases hvalue : Value.parse f input.value with
  | error cause => exact .inr ⟨_, _, .value hfield hvalue⟩
  | ok value =>
    rcases b.store.resolves_or_lacks input.objectType input.objectId with
      ⟨scope, hobject⟩ | ⟨noun, missing, hlacks⟩
    swap
    · exact .inr ⟨_, _, .object hfield hvalue hlacks⟩
    rcases Nat.lt_or_ge StoredJson.maxSize (Json.ofTexts value.toList).text.utf8ByteSize with
      hlong | hsize
    · exact .inr ⟨_, _, .size hfield hvalue hobject hlong⟩
    by_cases hheld : ∃ p ∈ b.store.properties,
        p.objectId = input.objectId ∧ p.fieldId = input.fieldId
    · exact .inr ⟨_, _, .held hfield hvalue hobject hsize hheld⟩
    · exact .inl ⟨f, value, scope, hfield, hvalue, hobject, hsize,
        fun p hp hobject hfield => hheld ⟨p, hp, hobject, hfield⟩⟩

theorem find_of_isField (hk : b.store.Keyed) {id : String} {f : Field}
    (h : b.store.IsField id f) : Fields.find b.store id = .ok (some f) := by
  obtain ⟨r, hr, rfl, hf⟩ := h
  exact Fields.find_eq_ok_some.2 ⟨r, find?_key_eq hk.fields hr, hf⟩

theorem creatable_of_conditions (hk : b.store.Keyed) (hknown : b.store.Knows) {f : Field}
    {value : Value} {scope : Scope} (hfield : b.store.IsField input.fieldId f)
    (hvalue : Value.parse f input.value = .ok value)
    (hobject : b.store.Resolves input.objectType input.objectId scope)
    (hsize : (Json.ofTexts value.toList).text.utf8ByteSize ≤ StoredJson.maxSize) :
    Creatable b input f value scope (Json.ofTexts value.toList).text where
  find := find_of_isField hk hfield
  parse := hvalue
  scopeOf := Platform.scopeOf_of_resolves hknown hobject
  encode := StoredJson.encode_eq_ok.2 ⟨hsize, rfl⟩

theorem fieldFor_of_missing (hw : b.store.Written)
    (h : ∀ r ∈ b.store.fields, r.id ≠ input.fieldId) :
    fieldFor b.store input.fieldId = .error (.unknownField input.fieldId) := by
  rcases Fields.find_cases hw input.fieldId with ⟨hfield, _⟩ | ⟨_, hnone⟩
  · obtain ⟨r, hr, hid⟩ := hasField_iff.1 hfield
    exact absurd hid (h r hr)
  · rw [fieldFor, hnone]
    rfl

/-- Each step before the failing one succeeds, and the failing one ends the call. -/
theorem create_of_refused (hb : b.Reachable) (hknown : b.store.Knows) {kind : ErrorKind}
    {e : Refusal} (h : Refused b input kind e) : ((create input userId).on b).1 = .error e := by
  have hfind {f : Field} (hfield : b.store.IsField input.fieldId f) :
      (Call.look fun s => fieldFor s input.fieldId).on b = (.ok f, b) :=
    Call.look_eq_ok.2 ⟨fieldFor_eq_ok.2 (find_of_isField hb.keyed hfield), rfl⟩
  have hparse {f : Field} {value : Value} (hvalue : Value.parse f input.value = .ok value) :
      (Call.check (parseValue userId f input.value)).on b = (.ok value, b) :=
    Call.check_eq_ok.2 ⟨parseValue_eq_ok.2 hvalue, rfl⟩
  cases h with
  | field h =>
    have hlook : (Call.look fun s => fieldFor s input.fieldId).on b =
        (.error (.unknownField input.fieldId), b) :=
      congrArg (·, b) (fieldFor_of_missing hb.written h)
    rw [create, Call.on_bind_of_error hlook]
  | @value f cause hfield h =>
    have hcheck : (Call.check (parseValue userId f input.value)).on b =
        (.error (.invalid cause), b) := by
      rw [parseValue, h]
      rfl
    rw [create, Call.on_bind_of_ok (hfind hfield), Call.on_bind_of_error hcheck]
  | object hfield hvalue h =>
    have hlook : (Call.look fun s =>
        Platform.scopeOf s input.objectType input.objectId).on b = (.error _, b) :=
      congrArg (·, b) (Platform.scopeOf_of_lacks h)
    rw [create, Call.on_bind_of_ok (hfind hfield), Call.on_bind_of_ok (hparse hvalue),
      Call.on_bind_of_error hlook]
  | @size f value scope hfield hvalue hobject h =>
    have hscope := Platform.scopeOf_of_resolves hknown hobject
    have hcheck : (Call.check (Fields.encodeValue b.nextId value.toList)).on
        { b with drawn := b.drawn + 1 } = (.error _, { b with drawn := b.drawn + 1 }) :=
      congrArg (·, _) (if_pos h)
    rw [create, Call.on_bind_of_ok (hfind hfield), Call.on_bind_of_ok (hparse hvalue),
      Call.on_bind_of_ok (Call.look_eq_ok.2 ⟨hscope, rfl⟩),
      Call.on_bind_of_ok (Call.drawId_eq_ok.2 ⟨rfl, rfl⟩), Call.on_bind_of_error hcheck]
  | held hfield hvalue hobject hsize h =>
    exact create_of_held (creatable_of_conditions hb.keyed hknown hfield hvalue hobject hsize) h

theorem create_of_allowed (hb : b.Reachable) (hknown : b.store.Knows) {f : Field} {value : Value}
    {scope : Scope} (h : Allowed b input f value scope) :
    (create input userId).on b =
      (.ok (created input f value scope b.nextId),
        { b with
          store := { b.store with
            properties := stamped input.objectId scope (b.store.properties ++
              [newRow input f scope b.nextId (Json.ofTexts value.toList).text]) }
          drawn := b.drawn + 1 }) := by
  have hc := creatable_of_conditions hb.keyed hknown h.field h.parse h.object h.size
  have hid : f.id = input.fieldId := Fields.id_of_find hc.find
  refine create_eq_ok.2 ⟨f, value, scope, _, hc.find, hc.parse, hc.scopeOf, hc.encode, ?_, rfl, rfl⟩
  rw [List.any_eq_false]
  intro p hp hclash
  simp only [PropertyRow.clashes, newRow, hid, Bool.or_eq_true, decide_eq_true_eq,
    Bool.and_eq_true] at hclash
  rcases hclash with hnew | ⟨hobject, hfield⟩
  · -- The identifier of the new property is in no row.
    exact hb.unused (mem_ids.2 (.inr (.inl (List.mem_map.2 ⟨p, hp, hnew.symm⟩))))
  · exact h.free p hp hobject.symm hfield.symm

/-- A property stands as it was asked for, beside the rows that were there. -/
structure Stands (b b' : Board) (input : PropertyInput) (value : Value) (scope : Scope)
    (p : Property) : Prop where
  answer : p.value = value ∧ p.scope = scope
  rows : b'.store.properties.map PropertyRow.id = b.store.properties.map PropertyRow.id ++ [p.id]
  row : ∃ r ∈ b'.store.properties, r.id = p.id ∧ r.objectId = input.objectId ∧
    r.objectType = input.objectType.name ∧ r.fieldId = input.fieldId ∧
    stored? Codec.texts r.value = some value.toList
  object : b'.store.Resolves input.objectType input.objectId scope
  scopes : ∀ r ∈ b'.store.properties, r.objectId = input.objectId → r.scope = scope

theorem stands_of_allowed (hb : b.Reachable) (hknown : b.store.Knows) {f : Field} {value : Value}
    {scope : Scope} (h : Allowed b input f value scope) :
    ∃ p b', (create input userId).on b = (.ok p, b') ∧ Stands b b' input value scope p := by
  have hid : f.id = input.fieldId := Fields.id_of_find (find_of_isField hb.keyed h.field)
  refine ⟨_, _, create_of_allowed hb hknown h, ⟨rfl, rfl⟩, ?_, ?_,
    h.object.with_properties _, fun r hr hobject => Board.scope_of_mem_stamped hr hobject⟩
  · rw [propertyIds_of_keys (keys_stamped _ _ _), List.map_append]
    rfl
  · exact ⟨_, newRow_mem_stamped _, rfl, rfl, rfl, hid, stored?_texts value.toList⟩

/-- A new property is created exactly if nothing is wrong with it, and refused exactly for the first
thing that is wrong. Then nothing is written; otherwise it stands as it was asked for. -/
theorem create_decides (hb : b.Reachable) (hknown : b.store.Knows) (input : PropertyInput)
    (userId : String) :
    ((∃ p, ((create input userId).on b).1 = .ok p) ↔
      ∃ f value scope, Allowed b input f value scope) ∧
    (∀ e, ((create input userId).on b).1 = .error e ↔ ∃ kind, Refused b input kind e) ∧
    (∀ kind e, Refused b input kind e →
      e.report.kind = kind ∧ ((create input userId).on b).2.store = b.store) ∧
    ∀ f value scope, Allowed b input f value scope →
      ∃ p b', (create input userId).on b = (.ok p, b') ∧ Stands b b' input value scope p := by
  have hrefused : ∀ kind e, Refused b input kind e → ((create input userId).on b).1 = .error e :=
    fun kind e h => create_of_refused hb hknown h
  have hallowed : ∀ f value scope, Allowed b input f value scope →
      ∃ p, ((create input userId).on b).1 = .ok p :=
    fun f value scope h => ⟨_, congrArg Prod.fst (create_of_allowed hb hknown h)⟩
  refine ⟨⟨?_, ?_⟩, fun e => ⟨?_, ?_⟩, ?_, fun f value scope h => stands_of_allowed hb hknown h⟩
  · rintro ⟨p, hp⟩
    rcases allowed_or_refused hb.written input with h | ⟨kind, e, h⟩
    · exact h
    · cases hp.symm.trans (hrefused kind e h)
  · rintro ⟨f, value, scope, h⟩
    exact hallowed f value scope h
  · intro he
    rcases allowed_or_refused hb.written input with ⟨f, value, scope, h⟩ | ⟨kind, e', h⟩
    · obtain ⟨p, hp⟩ := hallowed f value scope h
      cases hp.symm.trans he
    · cases (hrefused kind e' h).symm.trans he
      exact ⟨kind, h⟩
  · rintro ⟨kind, h⟩
    exact hrefused kind e h
  · intro kind e h
    exact ⟨h.kind_eq, atomic_create input userId b e (hrefused kind e h)⟩

/-- Of two properties of the post, one is for the field that the channel of the same identifier has
already. -/
theorem post_of_shared_identifier :
    (∃ p b', (create (forPost 2) "u").on shared = (.ok p, b') ∧
      Stands shared b' (forPost 2) (.text "b") ⟨"c", "t2"⟩ p) ∧
    ((create (forPost 1) "u").on shared).1 = .error (.alreadyHeld "x" (Identifier.nth 1)) := by
  have hb : shared.Reachable := Board.reachable_run 0 sharedId
  have hknown : shared.store.Knows := by
    refine Board.knows_run .scattered 0 fun a ha => ?_
    simp only [sharedId, List.mem_cons, List.not_mem_nil, or_false] at ha
    rcases ha with rfl | rfl | rfl | rfl | rfl | rfl
    · exact ⟨.openChannel, rfl⟩
    · exact ⟨.openChannel, rfl⟩
    all_goals trivial
  have hobject : shared.store.Resolves .post "x" ⟨"c", "t2"⟩ :=
    .post (p := ⟨"x", "c", "u", "", "", 0⟩) (c := ⟨"c", "t2", "c", "O"⟩) (by decide +kernel)
      (by decide +kernel)
  obtain ⟨_, _, _, hstands⟩ := create_decides hb hknown (forPost 2) "u"
  obtain ⟨_, hrefused, _⟩ := create_decides hb hknown (forPost 1) "u"
  have hnote : shared.store.IsField (Identifier.nth 1)
      ⟨Identifier.nth 1, "", "note", .text, [], 0, "u"⟩ := by
    unfold Store.IsField
    decide +kernel
  have htopic : shared.store.IsField (Identifier.nth 2)
      ⟨Identifier.nth 2, "", "topic", .text, [], 0, "u"⟩ := by
    unfold Store.IsField
    decide +kernel
  have hvalue : Value.parse ⟨Identifier.nth 1, "", "note", .text, [], 0, "u"⟩ (forPost 1).value =
      .ok (.text "b") := by
    decide +kernel
  have hheld : Refused shared (forPost 1) .conflict (.alreadyHeld "x" (Identifier.nth 1)) :=
    .held hnote hvalue hobject (by decide +kernel) (by decide +kernel)
  exact ⟨hstands _ _ _ ⟨htopic, by decide +kernel, hobject, by decide +kernel, by decide +kernel⟩,
    (hrefused _).2 ⟨_, hheld⟩⟩

end Properties

end PropertyBoard
