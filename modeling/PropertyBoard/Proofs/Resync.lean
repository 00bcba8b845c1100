import PropertyBoard.Proofs.Creation

/-!
# PropertyBoard.Proofs.Resync

What renewing the scope of an object does to its properties.

* `Store.OneType`: the properties of an identifier are of objects of one type, so it is clear which
  object is meant. `Properties.type_of_first`: it is the type of the first property listed.
* `Store.IsCurrent`: the properties of an identifier have the scope of now. What the board does keeps
  this (`Board.current_after`, `Board.current_run`); only the platform can change it.
* `Properties.Renewed`: what a renewal leaves, and how many properties it counts.
* `Properties.resync_settles`: an object that the platform has lost is not found, and any other has
  its scope renewed. Then there is nothing left to renew until the platform changes something.
-/

namespace PropertyBoard

open Store

namespace Store

/-- The properties of an identifier are of objects of one type. -/
def OneType (s : Store) (objectId : String) : Prop :=
  ∀ p ∈ s.properties, ∀ q ∈ s.properties, p.objectId = objectId → q.objectId = objectId →
    q.objectType = p.objectType

instance (s : Store) (objectId : String) : Decidable (s.OneType objectId) :=
  inferInstanceAs (Decidable (∀ p ∈ s.properties, ∀ q ∈ s.properties, p.objectId = objectId →
    q.objectId = objectId → q.objectType = p.objectType))

/-- The properties of an identifier have the scope that the platform has for their object now. -/
def IsCurrent (s : Store) (objectId : String) : Prop :=
  ∀ p ∈ s.properties, p.objectId = objectId →
    ∃ type : ObjectType, p.objectType = type.name ∧ Platform.scopeOf s type objectId = .ok p.scope

/-- The first property that is listed comes from a row, and has its type. -/
theorem Lists.row_of_first {s : Store} {objectId : String} {first : Property}
    {rest : List Property} (h : s.Lists objectId (first :: rest)) :
    ∃ p ∈ s.properties, p.objectId = objectId ∧ p.objectType = first.objectType.name := by
  obtain ⟨_, rows, hperm, hshown⟩ := h
  cases rows with
  | nil => cases hshown
  | cons p rows =>
    obtain ⟨hp, hobject⟩ := List.mem_filter.1 (hperm.mem_iff.1 List.mem_cons_self)
    obtain ⟨f, _, hread⟩ := Option.bind_eq_some_iff.1 (List.cons.inj hshown).1
    obtain ⟨_, _, type, _, _, _, htype, _, rfl⟩ := PropertyRow.property?_eq_some.1 hread
    exact ⟨p, hp, of_decide_eq_true hobject, (Named.name_of_ofName? htype).symm⟩

end Store

theorem ObjectType.name_injective {type type' : ObjectType} (h : type.name = type'.name) :
    type = type' := by
  have hsame := congrArg (Named.ofName? (α := ObjectType)) h
  simpa using hsame

theorem Platform.scopeOf_of_same {s s' : Store} (hchannels : s'.channels = s.channels)
    (hposts : s'.posts = s.posts) (type : ObjectType) (objectId : String) :
    scopeOf s' type objectId = scopeOf s type objectId := by
  cases type <;> simp only [scopeOf, channelOf, Posts.get, Posts.find, Channels.get,
    Channels.find, hchannels, hposts]

namespace Properties

variable {b b' : Board} {objectId : String}

/-- The object is of the type that all its properties have. -/
theorem type_of_first (hb : b.Reachable) (hone : b.store.OneType objectId) {first : Property}
    {rest : List Property} (h : ofObject b.store objectId = .ok (first :: rest)) {p : PropertyRow}
    (hp : p ∈ b.store.properties) (hobject : p.objectId = objectId) :
    p.objectType = first.objectType.name := by
  obtain ⟨_, hps, hlists⟩ := ofObject_listed hb.keyed hb.written objectId
  cases h.symm.trans hps
  obtain ⟨q, hq, hqobject, htype⟩ := hlists.row_of_first
  rw [← htype]
  exact hone q hq p hp hqobject hobject

/-- An object that has a property has a first one, of the type that the row tells. -/
theorem ofObject_of_row (hb : b.Reachable) (hone : b.store.OneType objectId) {p : PropertyRow}
    (hp : p ∈ b.store.properties) (hobject : p.objectId = objectId) :
    ∃ first rest, ofObject b.store objectId = .ok (first :: rest) ∧
      p.objectType = first.objectType.name := by
  obtain ⟨ps, hps, _⟩ := ofObject_listed hb.keyed hb.written objectId
  cases ps with
  | nil => exact absurd hobject (no_rows_of_ofObject hb.keyed hps p hp)
  | cons first rest => exact ⟨first, rest, hps, type_of_first hb hone hps hp hobject⟩

theorem resync_of_no_rows (hb : b.Reachable)
    (h : ∀ p ∈ b.store.properties, p.objectId ≠ objectId) :
    (resync objectId).on b = (.ok 0, b) := by
  obtain ⟨ps, hps, hlists⟩ := ofObject_listed hb.keyed hb.written objectId
  cases ps with
  | nil => exact resync_eq_ok.2 (.inl ⟨hps, rfl, rfl⟩)
  | cons first rest =>
    obtain ⟨p, hp, hobject, _⟩ := hlists.row_of_first
    exact absurd hobject (h p hp)

/-- What the platform has lost stays as it is. -/
theorem resync_of_lacks {first : Property} {rest : List Property}
    (hobject : ofObject b.store objectId = .ok (first :: rest)) {noun : Noun} {missing : String}
    (h : b.store.Lacks first.objectType objectId noun missing) :
    (resync objectId).on b = (.error (.notFound noun missing), b) := by
  have hlook : (Call.look fun s => Platform.scopeOf s first.objectType objectId).on b =
      (.error (.notFound noun missing), b) :=
    congrArg (·, b) (Platform.scopeOf_of_lacks h)
  rw [resync, Call.on_bind_of_ok (Call.look_eq_ok.2 ⟨hobject, rfl⟩)]
  exact Call.on_bind_of_error hlook

/-- A renewal leaves all properties of an object in one scope. It counts those that had another one,
which are all or none, and changes nothing else. -/
structure Renewed (b b' : Board) (objectId : String) (scope : Scope) (n : Nat) : Prop where
  count : n = (b.store.properties.filter fun p =>
    p.objectId = objectId && p.scope ≠ scope).length
  all_or_none : n = (b.store.properties.filter fun p => p.objectId = objectId).length ∨ n = 0
  scopes : ∀ p ∈ b'.store.properties, p.objectId = objectId → p.scope = scope
  board : b' = { b with
    store := { b.store with properties := stamped objectId scope b.store.properties } }

/-- As all properties of an object have one scope, they all have another one or none has. -/
theorem differing_all_or_none (hb : b.Reachable) (objectId : String) (scope : Scope) :
    (b.store.properties.filter fun p => p.objectId = objectId && p.scope ≠ scope) =
        (b.store.properties.filter fun p => p.objectId = objectId) ∨
      (b.store.properties.filter fun p => p.objectId = objectId && p.scope ≠ scope) = [] := by
  by_cases hcurrent : ∃ p ∈ b.store.properties, p.objectId = objectId ∧ p.scope = scope
  · obtain ⟨p, hp, rfl, rfl⟩ := hcurrent
    refine .inr (List.filter_eq_nil_iff.2 fun q hq hdiffers => ?_)
    simp only [Bool.and_eq_true, decide_eq_true_eq] at hdiffers
    exact hdiffers.2 (hb.same_scope p hp q hq hdiffers.1)
  · refine .inl (List.filter_congr fun p hp => ?_)
    by_cases hobject : p.objectId = objectId
    · have hne : p.scope ≠ scope := fun h => hcurrent ⟨p, hp, hobject, h⟩
      simp [hobject, hne]
    · simp [hobject]

theorem resync_of_resolves (hb : b.Reachable) (hknown : b.store.Knows) {first : Property}
    {rest : List Property} (hobject : ofObject b.store objectId = .ok (first :: rest))
    {scope : Scope} (h : b.store.Resolves first.objectType objectId scope) :
    ∃ n b', (resync objectId).on b = (.ok n, b') ∧ Renewed b b' objectId scope n := by
  have hscope := Platform.scopeOf_of_resolves hknown h
  refine ⟨_, _, resync_eq_ok.2 (.inr ⟨first, rest, scope, hobject, hscope, rfl, rfl⟩), ?_, ?_, ?_,
    rfl⟩
  · exact List.countP_eq_length_filter
  · rw [List.countP_eq_length_filter]
    exact (differing_all_or_none hb objectId scope).imp (congrArg List.length)
      fun hnil => congrArg List.length hnil
  · exact fun p hp hobject => Board.scope_of_mem_stamped hp hobject

/-- Rows that have the scope already are stamped in vain. -/
theorem stamped_of_scope {scope : Scope} {rows : List PropertyRow}
    (h : ∀ p ∈ rows, p.objectId = objectId → p.scope = scope) :
    stamped objectId scope rows = rows := by
  unfold stamped
  refine (List.map_congr_left fun p hp => ?_).trans (List.map_id rows)
  by_cases hobject : p.objectId = objectId
  · rw [if_pos hobject, PropertyRow.stamp_eq_self.2 (h p hp hobject)]
    rfl
  · exact if_neg hobject

/-- There is nothing to renew where all is of now. -/
theorem resync_of_current (hb : b.Reachable) (hone : b.store.OneType objectId)
    (h : b.store.IsCurrent objectId) : (resync objectId).on b = (.ok 0, b) := by
  by_cases hrow : ∃ p ∈ b.store.properties, p.objectId = objectId
  swap
  · exact resync_of_no_rows hb fun p hp hobject => hrow ⟨p, hp, hobject⟩
  obtain ⟨p, hp, hobject⟩ := hrow
  obtain ⟨first, rest, hps, htype⟩ := ofObject_of_row hb hone hp hobject
  obtain ⟨type, hname, hscope⟩ := h p hp hobject
  obtain rfl : type = first.objectType := ObjectType.name_injective (hname.symm.trans htype)
  have hall : ∀ q ∈ b.store.properties, q.objectId = objectId → q.scope = p.scope :=
    fun q hq hqobject => hb.same_scope p hp q hq (hqobject.trans hobject.symm)
  refine resync_eq_ok.2 (.inr ⟨first, rest, p.scope, hps, hscope, ?_, ?_⟩)
  · refine (List.countP_eq_zero.2 fun q hq hdiffers => ?_).symm
    simp only [Bool.and_eq_true, decide_eq_true_eq] at hdiffers
    exact hdiffers.2 (hall q hq hdiffers.1)
  · rw [stamped_of_scope hall]

end Properties

/-! ## What the board does in between -/

namespace Board

variable {b : Board} {objectId : String}

/-- Nothing happens but what the board itself does, and the properties of the identifier are of
objects of one type all the time. -/
def Undisturbed (objectId : String) : Board → List Action → Prop
  | b, [] => b.store.OneType objectId
  | b, a :: rest =>
    b.store.OneType objectId ∧ (∀ w, a ≠ .host w) ∧ Undisturbed objectId (b.after a) rest

theorem Undisturbed.oneType {actions : List Action} (h : Undisturbed objectId b actions) :
    b.store.OneType objectId := by
  cases actions with
  | nil => exact h
  | cons a rest => exact h.1

theorem platform_after (hb : b.Reachable) {a : Action} (ha : ∀ w, a ≠ .host w) :
    (b.after a).store.channels = b.store.channels ∧ (b.after a).store.posts = b.store.posts := by
  cases a with
  | call c =>
    obtain ⟨hchannels, _, hposts⟩ := same_platform hb c
    exact ⟨hchannels, hposts⟩
  | host w => exact absurd rfl (ha w)
  | setClock now => exact ⟨rfl, rfl⟩

/-- A call that marks an object leaves a property of the type whose scope it gave. -/
theorem row_of_stamps (hb : b.Reachable) {c : ServiceCall} {scope : Scope}
    (hok : (c.run.on b).1 = .ok ()) (h : c.Stamps b.store objectId scope) :
    ∃ type : ObjectType, Platform.scopeOf b.store type objectId = .ok scope ∧
      ∃ p ∈ (b.after (.call c)).store.properties, p.objectId = objectId ∧
        p.objectType = type.name := by
  have hon : c.run.on b = (.ok (), b.after (.call c)) := Prod.ext hok rfl
  cases h with
  | @create input userId hobject hscope =>
    obtain ⟨_, hp⟩ := ServiceCall.silent_eq_ok.1 hon
    obtain ⟨f, _, given, text, _, _, _, _, _, _, hb'⟩ := Properties.create_eq_ok.1 hp
    refine ⟨input.objectType, hscope,
      Properties.newRow input f given b.nextId text, ?_, hobject, rfl⟩
    rw [hb']
    exact Properties.newRow_mem_stamped _
  | @resync first rest hobject hscope =>
    obtain ⟨_, hn⟩ := ServiceCall.silent_eq_ok.1 hon
    obtain ⟨_, hps, hlists⟩ := Properties.ofObject_listed hb.keyed hb.written objectId
    cases hobject.symm.trans hps
    obtain ⟨p, hp, hpobject, htype⟩ := hlists.row_of_first
    refine ⟨first.objectType, hscope, p.stamp scope, ?_, hpobject, htype⟩
    obtain ⟨hnone, _⟩ | ⟨_, _, scope', hobject', hscope', _, hb'⟩ := Properties.resync_eq_ok.1 hn
    · cases hobject.symm.trans hnone
    · cases hobject.symm.trans hobject'
      cases hscope.symm.trans hscope'
      rw [hb']
      exact mem_stamped.2 ⟨p, hp, (if_pos hpobject).symm⟩

/-- What the board does keeps the scopes of an object current: a new property brings the scope of now,
and what is not new is left in its scope. -/
theorem current_after (hb : b.Reachable) {a : Action} (ha : ∀ w, a ≠ .host w)
    (hone : (b.after a).store.OneType objectId) (h : b.store.IsCurrent objectId) :
    (b.after a).store.IsCurrent objectId := by
  intro p hp hobject
  obtain ⟨hchannels, hposts⟩ := platform_after hb ha
  have hsame := Platform.scopeOf_of_same hchannels hposts
  by_cases hmarks : b.Marks objectId a
  · obtain ⟨c, scope, rfl, hstamps, hall⟩ := scope_after_marks hb hmarks ⟨p, hp, hobject⟩
    obtain ⟨_, hc, _, hok⟩ := hmarks
    cases hc
    obtain ⟨type, hscope, q, hq, hqobject, htype⟩ := row_of_stamps hb hok hstamps
    refine ⟨type, (hone q hq p hp hqobject hobject).trans htype, ?_⟩
    rw [hsame, hscope, hall p hp hobject]
  · obtain ⟨old, hold, hkey, hscope⟩ := row_after_unmarked hb hmarks hp hobject
    obtain ⟨hid, htype⟩ := Prod.mk.inj hkey
    obtain ⟨type, hname, hcurrent⟩ := h old hold (hid.trans hobject)
    refine ⟨type, htype.symm.trans hname, ?_⟩
    rw [hsame, hcurrent, hscope]

theorem current_run {actions : List Action} (hb : b.Reachable)
    (hrun : Undisturbed objectId b actions) (h : b.store.IsCurrent objectId) :
    (b.run actions).store.OneType objectId ∧ (b.run actions).store.IsCurrent objectId := by
  induction actions generalizing b with
  | nil => exact ⟨hrun, h⟩
  | cons a rest ih =>
    obtain ⟨_, ha, hrest⟩ := hrun
    exact ih (hb.after a) hrest (current_after hb ha hrest.oneType h)

theorem Reachable.run {b : Board} (h : b.Reachable) (actions : List Action) :
    (b.run actions).Reachable := by
  obtain ⟨source, now, before, rfl⟩ := h
  exact ⟨source, now, before ++ actions, (run_append _ _ _).symm⟩

end Board

namespace Properties

variable {b b' : Board} {objectId : String}

/-- A renewal leaves all properties of the object with the scope of now. -/
theorem current_of_renewed (hknown : b.store.Knows) {type : ObjectType} {scope : Scope} {n : Nat}
    (htype : ∀ p ∈ b.store.properties, p.objectId = objectId → p.objectType = type.name)
    (hscope : b.store.Resolves type objectId scope) (h : Renewed b b' objectId scope n) :
    b'.store.IsCurrent objectId := by
  intro p hp hobject
  have hcurrent := h.scopes p hp hobject
  have hboard := h.board
  subst hboard
  obtain ⟨old, hold, rfl⟩ := mem_stamped.1 hp
  have holdObject : old.objectId = objectId := by
    by_contra hne
    rw [if_neg hne] at hobject
    exact hne hobject
  refine ⟨type, ?_, ?_⟩
  · rw [if_pos holdObject]
    exact htype old hold holdObject
  · rw [hcurrent]
    exact (Platform.scopeOf_of_same rfl rfl type objectId).trans
      (Platform.scopeOf_of_resolves hknown hscope)

/-- A renewal fails exactly for what the platform has lost. -/
theorem resync_eq_error (hb : b.Reachable) (hknown : b.store.Knows) {first : Property}
    {rest : List Property} (hobject : ofObject b.store objectId = .ok (first :: rest))
    {e : Refusal} :
    ((resync objectId).on b).1 = .error e ↔
      ∃ noun missing, b.store.Lacks first.objectType objectId noun missing ∧
        e = .notFound noun missing := by
  constructor
  · intro he
    rcases b.store.resolves_or_lacks first.objectType objectId with ⟨scope, h⟩ | ⟨noun, missing, h⟩
    · obtain ⟨n, b', hon, _⟩ := resync_of_resolves hb hknown hobject h
      rw [hon] at he
      cases he
    · rw [resync_of_lacks hobject h] at he
      cases he
      exact ⟨noun, missing, h, rfl⟩
  · rintro ⟨noun, missing, h, rfl⟩
    rw [resync_of_lacks hobject h]

/-- It succeeds exactly for what the platform still has. -/
theorem resync_isOk (hb : b.Reachable) (hknown : b.store.Knows) {first : Property}
    {rest : List Property} (hobject : ofObject b.store objectId = .ok (first :: rest)) :
    (∃ n, ((resync objectId).on b).1 = .ok n) ↔
      ∃ scope, b.store.Resolves first.objectType objectId scope := by
  constructor
  · rintro ⟨n, hok⟩
    refine (b.store.resolves_or_lacks first.objectType objectId).resolve_right ?_
    rintro ⟨noun, missing, h⟩
    rw [resync_of_lacks hobject h] at hok
    cases hok
  · rintro ⟨scope, h⟩
    obtain ⟨n, b', hon, _⟩ := resync_of_resolves hb hknown hobject h
    exact ⟨n, congrArg Prod.fst hon⟩

/-- Until the platform changes something, a second renewal finds nothing to do. -/
theorem resync_after_renewed (hb' : b'.Reachable) (hcurrent : b'.store.IsCurrent objectId)
    {actions : List Action} (hrun : Board.Undisturbed objectId b' actions) :
    (resync objectId).on (b'.run actions) = (.ok 0, b'.run actions) := by
  obtain ⟨hone, hcurrentRun⟩ := Board.current_run hb' hrun hcurrent
  exact resync_of_current (hb'.run actions) hone hcurrentRun

/-- Where the properties of an identifier are of objects of one type, a renewal finds nothing to do if
there are none. Otherwise it fails exactly if the platform has lost the object or its channel, says
so and changes nothing; and it succeeds exactly if the platform has both. Then all properties of the
object have the scope that the platform has for it, and as long as nothing happens on the platform
there is nothing more to renew. -/
theorem resync_settles (hb : b.Reachable) (hknown : b.store.Knows)
    (hone : b.store.OneType objectId) :
    ((∀ p ∈ b.store.properties, p.objectId ≠ objectId) →
      (resync objectId).on b = (.ok 0, b)) ∧
    ∀ p ∈ b.store.properties, p.objectId = objectId →
      ∃ type : ObjectType, p.objectType = type.name ∧
        (∀ e, ((resync objectId).on b).1 = .error e ↔
          ∃ noun missing, b.store.Lacks type objectId noun missing ∧ e = .notFound noun missing) ∧
        (∀ e, ((resync objectId).on b).1 = .error e →
          e.report.kind = .notFound ∧ ((resync objectId).on b).2 = b) ∧
        ((∃ n, ((resync objectId).on b).1 = .ok n) ↔
          ∃ scope, b.store.Resolves type objectId scope) ∧
        ∀ scope, b.store.Resolves type objectId scope →
          ∃ n b', (resync objectId).on b = (.ok n, b') ∧ Renewed b b' objectId scope n ∧
            ∀ actions, Board.Undisturbed objectId b' actions →
              (resync objectId).on (b'.run actions) = (.ok 0, b'.run actions) := by
  refine ⟨resync_of_no_rows hb, fun p hp hobject => ?_⟩
  obtain ⟨first, rest, hps, htype⟩ := ofObject_of_row hb hone hp hobject
  refine ⟨first.objectType, htype, fun e => resync_eq_error hb hknown hps, fun e he => ?_,
    resync_isOk hb hknown hps, fun scope h => ?_⟩
  · obtain ⟨noun, missing, h, rfl⟩ := (resync_eq_error hb hknown hps).1 he
    rw [resync_of_lacks hps h]
    exact ⟨rfl, rfl⟩
  · obtain ⟨n, b', hon, hrenewed⟩ := resync_of_resolves hb hknown hps h
    have hafter : b.after (.call (.resyncObject objectId)) = b' :=
      congrArg Prod.snd (ServiceCall.silent_eq_ok.2 ⟨n, hon⟩)
    have hcurrent := current_of_renewed hknown
      (fun q hq hqobject => type_of_first hb hone hps hq hqobject) h hrenewed
    exact ⟨n, b', hon, hrenewed,
      fun actions hrun => resync_after_renewed (hafter ▸ hb.after _) hcurrent hrun⟩

/-- A post with two properties moves to a channel of another team. -/
def movedPost : List Action := [
  .host (.addChannel { id := "c", teamId := "t", name := "town", type := "O" }),
  .host (.addChannel { id := "d", teamId := "u", name := "dock", type := "P" }),
  .host (.addPost
    { id := "p", channelId := "c", userId := "u", message := "", type := "", createdAt := 0 }),
  .call (.createField { name := "note", type := "text" } "u"),
  .call (.createField { name := "topic", type := "text" } "u"),
  .call (.createProperty
    { objectId := "p", objectType := .post, fieldId := Identifier.nth 1, value := [.str "a"] } "u"),
  .call (.createProperty
    { objectId := "p", objectType := .post, fieldId := Identifier.nth 2, value := [] } "u"),
  .host (.movePost "p" "d")]

/-- What the board does after the renewal: a property goes and another one comes. -/
def replacedProperty : List Action := [
  .call (.deleteProperty (Identifier.nth 3)),
  .setClock 1,
  .call (.createProperty
    { objectId := "p", objectType := .post, fieldId := Identifier.nth 1, value := [.str "b"] } "u")]

theorem knows_movedPost (more : List Action) (h : ∀ a ∈ more, a.KnownType) :
    (Board.run { now := 0 } (movedPost ++ more)).store.Knows := by
  refine Board.knows_run .scattered 0 fun a ha => ?_
  rcases List.mem_append.1 ha with ha | ha
  · simp only [movedPost, List.mem_cons, List.not_mem_nil, or_false] at ha
    rcases ha with rfl | rfl | rfl | rfl | rfl | rfl | rfl | rfl
    · exact ⟨.openChannel, rfl⟩
    · exact ⟨.privateChannel, rfl⟩
    all_goals trivial
  · exact h a ha

theorem row_of_keys (b : Board) (objectId : String) (type : ObjectType)
    (h : (objectId, type.name) ∈ b.store.properties.map PropertyRow.objectKey) :
    ∃ p ∈ b.store.properties, p.objectId = objectId ∧ p.objectType = type.name := by
  obtain ⟨p, hp, hkey⟩ := List.mem_map.1 h
  exact ⟨p, hp, (Prod.mk.inj hkey).1, (Prod.mk.inj hkey).2⟩

/-- Both properties are renewed once, and the one that comes later needs no renewal. When the channel
is gone there is no scope to be had. -/
theorem moved_post_settles :
    (∃ b', (resync "p").on (Board.run { now := 0 } movedPost) = (.ok 2, b') ∧
      Renewed (Board.run { now := 0 } movedPost) b' "p" ⟨"d", "u"⟩ 2 ∧
      (resync "p").on (b'.run replacedProperty) = (.ok 0, b'.run replacedProperty)) ∧
    ((resync "p").on (Board.run { now := 0 } (movedPost ++ [.host (.deleteChannel "d")]))).1 =
      .error (.notFound .channel "d") := by
  constructor
  · have hknown := knows_movedPost [] (by simp)
    rw [List.append_nil] at hknown
    have hone : (Board.run { now := 0 } movedPost).store.OneType "p" := by
      decide +kernel
    obtain ⟨p, hp, hobject, hpost⟩ :=
      row_of_keys (Board.run { now := 0 } movedPost) "p" .post (by decide +kernel)
    obtain ⟨_, hrows⟩ := resync_settles (Board.reachable_run 0 movedPost) hknown hone
    obtain ⟨type, htype, _, _, _, hresolved⟩ := hrows p hp hobject
    obtain rfl := ObjectType.name_injective (htype.symm.trans hpost)
    obtain ⟨n, b', hon, hrenewed, hagain⟩ := hresolved ⟨"d", "u"⟩
      (.post (p := ⟨"p", "d", "u", "", "", 0⟩) (c := ⟨"d", "u", "dock", "P"⟩) (by decide +kernel)
        (by decide +kernel))
    obtain rfl : n = 2 := hrenewed.count.trans (by decide +kernel)
    obtain rfl := hrenewed.board
    refine ⟨_, hon, hrenewed, hagain _ ?_⟩
    refine ⟨by decide +kernel, by simp, by decide +kernel, by simp, by decide +kernel, by simp, ?_⟩
    show OneType _ "p"
    decide +kernel
  · have hone :
        (Board.run { now := 0 } (movedPost ++ [.host (.deleteChannel "d")])).store.OneType "p" := by
      decide +kernel
    obtain ⟨p, hp, hobject, hpost⟩ :=
      row_of_keys (Board.run { now := 0 } (movedPost ++ [.host (.deleteChannel "d")])) "p" .post
        (by decide +kernel)
    obtain ⟨_, hrows⟩ := resync_settles
      (Board.reachable_run 0 (movedPost ++ [.host (.deleteChannel "d")]))
      (knows_movedPost _ (by simp [Action.KnownType, HostWrite.KnownType])) hone
    obtain ⟨type, htype, hlost, _⟩ := hrows p hp hobject
    obtain rfl := ObjectType.name_injective (htype.symm.trans hpost)
    refine (hlost _).2 ⟨.channel, "d", ?_, rfl⟩
    exact .channelOfPost (p := ⟨"p", "d", "u", "", "", 0⟩) (by decide +kernel) (by decide +kernel)

end Properties
end PropertyBoard
