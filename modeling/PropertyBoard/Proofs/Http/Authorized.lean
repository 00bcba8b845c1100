import PropertyBoard.Proofs.Access
import PropertyBoard.Proofs.Http.Answer

/-!
# PropertyBoard.Proofs.Http.Authorized

Who changes properties by a request.

* `Exchange.MakesOnly`: an exchange leaves the store as it is, or makes of it what some condition
  allows. What was checked before a call is known when the call is made.
* `Request.Concerns`: the object whose properties a request is about. `Request.Manages`: the user may
  change these, and does so by one call. No other change is made (`manages_of_answer`).
* `property_requests_are_authorized`: so the properties that change are of objects that the user may
  manage.
-/

namespace PropertyBoard
namespace Http

open Store

namespace Exchange

variable {α : Type} {b : Board} {Q : Store → Prop} {f : α → Exchange Response}

/-- The store stays as it is, or becomes one that the condition allows. -/
def MakesOnly (b : Board) (Q : Store → Prop) (e : Exchange Response) : Prop :=
  (e.on b).2.store = b.store ∨ Q (e.on b).2.store

theorem makesOnly_pure (response : Response) : MakesOnly b Q (pure response) :=
  .inl rfl

theorem makesOnly_check {x : Except Refusal α} (h : ∀ a, x = .ok a → (f a).MakesOnly b Q) :
    (check x >>= f).MakesOnly b Q := by
  unfold MakesOnly
  rw [on_bind]
  cases x with
  | error e => exact .inl rfl
  | ok a => exact h a rfl

theorem makesOnly_look {read : Store → Except Refusal α}
    (h : ∀ a, read b.store = .ok a → (f a).MakesOnly b Q) : (look read >>= f).MakesOnly b Q := by
  have hcheck := makesOnly_check h
  unfold MakesOnly at hcheck ⊢
  rw [on_bind] at hcheck ⊢
  exact hcheck

theorem makesOnly_pathId {f : String → Exchange Response} {segment : String}
    (h : ∀ id, Percent.decodeText? segment = some id → (f id).MakesOnly b Q) :
    (pathId segment >>= f).MakesOnly b Q := by
  unfold MakesOnly
  rw [on_bind, on, pathId]
  cases hid : Percent.decodeText? segment with
  | none => exact .inl rfl
  | some id => exact h id hid

theorem makesOnly_authorize {f : Unit → Exchange Response} {userId objectId : String}
    {type : ObjectType}
    (h : ∀ access, Access.toProperty b.store userId type objectId = .ok access →
      (f ()).MakesOnly b Q) :
    (Answer.authorize userId type objectId >>= f).MakesOnly b Q := by
  unfold Answer.authorize
  rw [bind_assoc]
  refine makesOnly_look fun access haccess => ?_
  cases access with
  | granted => exact h _ haccess
  | unchecked => exact h _ haccess

/-- A call that is refused changes nothing. -/
theorem makesOnly_call {c : Call α} {respond : α → Response} (hc : c.Atomic)
    (h : ∀ a b', c.on b = (.ok a, b') → Q b'.store) :
    (call c >>= fun a => pure (respond a)).MakesOnly b Q := by
  have hatomic := hc b
  unfold MakesOnly
  rw [on_bind, on, call]
  rcases hon : c.on b with ⟨e | a, b'⟩
  · rw [hon] at hatomic
    rw [show c b = (.error e, b') from hon]
    exact .inl (hatomic e rfl)
  · rw [show c b = (.ok a, b') from hon]
    exact .inr (h a b' hon)

end Exchange

/-! ## Requests about properties -/

/-- The resources by which properties are changed. -/
def Route.isForProperties : Route → Bool
  | properties => true
  | property _ => true
  | objectResync _ => true
  | _ => false

namespace Request

/-- The resource of a request that is well formed. -/
def route? (r : Request) : Option Route :=
  r.target?.bind fun t => Route.ofPath? t.path

/-- The object whose properties a request is about: the one of the property that the body or the path
tells, or the one in the path, whose type is that of its first property. -/
inductive Concerns (r : Request) (s : Store) : Route → ObjectType → String → Prop
  | create {body : PropertyRequest} {input : PropertyInput}
      (hbody : r.readBody PropertyRequest.codec = .ok body) (hinput : body.check = .ok input) :
      Concerns r s .properties input.objectType input.objectId
  | change {segment id : String} {p : Property} (hid : Percent.decodeText? segment = some id)
      (hp : Properties.get s id = .ok p) :
      Concerns r s (.property segment) p.objectType p.objectId
  | resync {segment objectId : String} {first : Property} {rest : List Property}
      (hid : Percent.decodeText? segment = some objectId)
      (hobject : Properties.ofObject s objectId = .ok (first :: rest)) :
      Concerns r s (.objectResync segment) first.objectType objectId

theorem Concerns.unique {r : Request} {s : Store} {route : Route} {type type' : ObjectType}
    {id id' : String} (h : r.Concerns s route type id) (h' : r.Concerns s route type' id') :
    type = type' ∧ id = id' := by
  cases h with
  | create hbody hinput =>
    cases h' with
    | create hbody' hinput' =>
      cases hbody.symm.trans hbody'
      cases hinput.symm.trans hinput'
      exact ⟨rfl, rfl⟩
  | change hid hp =>
    cases h' with
    | change hid' hp' =>
      cases hid.symm.trans hid'
      cases hp.symm.trans hp'
      exact ⟨rfl, rfl⟩
  | resync hid hobject =>
    cases h' with
    | resync hid' hobject' =>
      cases hid.symm.trans hid'
      cases hobject.symm.trans hobject'
      exact ⟨rfl, rfl⟩

/-- The user may change the properties of the object that the request is about, and does so by one
call. -/
def Manages (r : Request) (route : Route) (b : Board) (s' : Store) : Prop :=
  ∃ userId type id access c,
    r.user = .ok userId ∧ r.Concerns b.store route type id ∧
    Access.toProperty b.store userId type id = .ok access ∧
    ServiceCall.Aims b.store c type id ∧ ServiceCall.Writes b c s'

end Request

namespace Answer

open Exchange

variable {settings : Settings} {r : Request} {b : Board}

theorem makesOnly_createProperty (hk : b.store.Keyed) :
    (createProperty settings r).MakesOnly b (r.Manages .properties b) := by
  refine makesOnly_check fun userId huser => ?_
  refine makesOnly_check fun body hbody => ?_
  refine makesOnly_check fun input hinput => ?_
  refine makesOnly_authorize fun access haccess => ?_
  refine makesOnly_call (Properties.atomic_create input userId) fun p b' hok => ?_
  exact ⟨userId, _, _, access, .createProperty input userId, huser, .create hbody hinput, haccess,
    .create input userId, ServiceCall.writes_of_ok hk.properties (ServiceCall.silent_eq_ok.2 ⟨p, hok⟩)⟩

theorem makesOnly_updateProperty (hk : b.store.Keyed) (segment : String) :
    (updateProperty r segment).MakesOnly b (r.Manages (.property segment) b) := by
  refine makesOnly_check fun userId huser => ?_
  refine makesOnly_pathId fun id hid => ?_
  refine makesOnly_check fun body hbody => ?_
  refine makesOnly_look fun old hold => ?_
  refine makesOnly_authorize fun access haccess => ?_
  refine makesOnly_call (Properties.atomic_update id _ userId) fun p b' hok => ?_
  exact ⟨userId, _, _, access, .updateProperty id _ userId, huser, .change hid hold, haccess,
    .update _ userId (Properties.get_eq_ok.1 hold),
    ServiceCall.writes_of_ok hk.properties (ServiceCall.silent_eq_ok.2 ⟨p, hok⟩)⟩

theorem makesOnly_deleteProperty (hk : b.store.Keyed) (segment : String) :
    (deleteProperty r segment).MakesOnly b (r.Manages (.property segment) b) := by
  refine makesOnly_check fun userId huser => ?_
  refine makesOnly_pathId fun id hid => ?_
  refine makesOnly_look fun old hold => ?_
  refine makesOnly_authorize fun access haccess => ?_
  refine makesOnly_call (Call.atomic_make _) fun _ b' hok => ?_
  exact ⟨userId, _, _, access, .deleteProperty id, huser, .change hid hold, haccess,
    .delete (Properties.get_eq_ok.1 hold), ServiceCall.writes_of_ok hk.properties hok⟩

theorem makesOnly_resyncObject (hk : b.store.Keyed) (segment : String) :
    (resyncObject r segment).MakesOnly b (r.Manages (.objectResync segment) b) := by
  refine makesOnly_check fun userId huser => ?_
  refine makesOnly_pathId fun objectId hid => ?_
  refine makesOnly_look fun ps hps => ?_
  cases ps with
  | nil => exact makesOnly_pure _
  | cons first rest =>
    refine makesOnly_authorize fun access haccess => ?_
    refine makesOnly_call (Properties.atomic_resync objectId) fun n b' hok => ?_
    exact ⟨userId, _, _, access, .resyncObject objectId, huser, .resync hid hps, haccess,
      .resync hps, ServiceCall.writes_of_ok hk.properties (ServiceCall.silent_eq_ok.2 ⟨n, hok⟩)⟩

theorem makesOnly_toRoute (hk : b.store.Keyed) (t : Target) {route : Route}
    (h : route.isForProperties = true) (verb : Verb) :
    (toRoute settings r t route verb).MakesOnly b (r.Manages route b) := by
  unfold toRoute
  split
  case h_7 => exact makesOnly_createProperty hk
  case h_8 segment => exact makesOnly_updateProperty hk segment
  case h_9 segment => exact makesOnly_deleteProperty hk segment
  case h_11 segment => exact makesOnly_resyncObject hk segment
  case h_18 => exact makesOnly_pure _
  all_goals cases h

/-- No method on such a resource does anything else. -/
theorem makesOnly_toVerb (hk : b.store.Keyed) {t : Target} {route : Route}
    (hroute : Route.ofPath? t.path = some route) (h : route.isForProperties = true) (verb : Verb) :
    (toVerb settings r t verb b).2.store = b.store ∨
      r.Manages route b (toVerb settings r t verb b).2.store := by
  by_cases hhead : verb = .head
  · rw [hhead]
    exact .inl (board_toVerb_head settings r t b)
  · have hmakes : (toRoute settings r t route verb).MakesOnly b (r.Manages route b) :=
      makesOnly_toRoute hk t h verb
    unfold toVerb
    simp only [hroute]
    rw [board_run]
    exact hmakes

end Answer

variable {settings : Settings} {r : Request} {route : Route} {response : Response} {b b' : Board}

/-- A request about properties changes nothing, unless its user may change those of the object that it
is about. -/
theorem manages_of_answer (hk : b.store.Keyed) (hroute : r.route? = some route)
    (hproperties : route.isForProperties = true) (h : answer settings r b = some (response, b')) :
    b'.store = b.store ∨ r.Manages route b b'.store := by
  obtain ⟨t, ht, hpath⟩ := Option.bind_eq_some_iff.1 hroute
  unfold answer at h
  simp only [ht] at h
  split at h
  · cases h
    exact .inl rfl
  · obtain ⟨_, rfl⟩ := Prod.mk.inj (Option.some.inj h)
    exact Answer.makesOnly_toVerb hk hpath hproperties _

/-- After any run, each property that a request about properties adds, takes away or changes has the
identifier of the object that the request is about, which the user of the request may manage: a post,
whose channel is there and has the user as a member, or an open or private channel in which the user
is an admin. If no identifier is ever both that of a post and that of a channel, the property is of
this object. A request about a conversation of a few changes nothing. -/
theorem property_requests_are_authorized {source : Identifier.Source} {now : Int64} {actions : List Action}
    (hroute : r.route? = some route) (hproperties : route.isForProperties = true)
    (h : answer settings r (Board.run { now, source } actions) = some (response, b')) :
    (∀ row, (Board.run { now, source } actions).store.Touches b'.store row →
      ∃ userId type, r.user = .ok userId ∧
        r.Concerns (Board.run { now, source } actions).store route type row.objectId ∧
        (Board.run { now, source } actions).store.MayManage userId type row.objectId ∧
        (Board.Unmixed source now actions → row.objectType = type.name)) ∧
    ∀ id c, r.Concerns (Board.run { now, source } actions).store route .channel id →
      (Board.run { now, source } actions).store.channelRow? id = some c → (c.type = "D" ∨ c.type = "G") →
      b'.store = (Board.run { now, source } actions).store := by
  have hkeyed := (Board.reachable_run now actions source).keyed
  have hmanages := manages_of_answer hkeyed hroute hproperties h
  constructor
  · intro row htouched
    rcases hmanages with hsame | ⟨userId, type, id, access, c, huser, hconcerns, haccess, haims, hw⟩
    · rw [hsame] at htouched
      exact absurd Iff.rfl htouched
    · obtain rfl := hw.touched_object hkeyed haims htouched
      exact ⟨userId, type, huser, hconcerns, Access.mayManage_of_ok haccess,
        fun hunmixed => hunmixed.type_of_touched hw htouched (Access.hasObject_of_ok haccess)⟩
  · intro id c hconcerns hc htype
    refine hmanages.resolve_right ?_
    rintro ⟨userId, type, id', access, call, _, hconcerns', haccess, _, _⟩
    obtain ⟨rfl, rfl⟩ := hconcerns.unique hconcerns'
    obtain ⟨c', hc', htype', _⟩ := Access.mayManage_of_ok haccess
    cases hc.symm.trans hc'
    rcases htype with htype | htype <;> rcases htype' with htype' | htype' <;>
      exact absurd (htype.symm.trans htype') (by decide)

/-- A post gets a property and moves to a channel where a user is a member. -/
def movedPost : List Action := [
  .host (.addChannel { id := "c", teamId := "t", name := "town", type := "O" }),
  .host (.addChannel { id := "d", teamId := "t", name := "dock", type := "P" }),
  .host (.addRole { channelId := "d", userId := "ana", role := "" }),
  .host (.addPost
    { id := "p", channelId := "c", userId := "u", message := "", type := "", createdAt := 0 }),
  .call (.createField { name := "state", type := "text" } "u"),
  .call (.createField { name := "owner", type := "text" } "u"),
  .call (.createProperty
    { objectId := "p", objectType := .post, fieldId := Identifier.nth 1, value := [] } "u"),
  .host (.movePost "p" "d")]

/-- The user adds another property to the post. -/
def postedProperty : Request where
  method := "POST"
  target := "/api/v1/property"
  headers := [("X-User-Id", "ana"), ("Content-Type", "application/json")]
  body := some ("\x7b\"object_id\":\"p\",\"object_type\":\"post\",\"property_field_id\":\"" ++
    Identifier.nth 2 ++ "\"\x7d")

/-- The request gives the older property the scope of the channel in which the user is a member. -/
theorem posted_property_is_authorized :
    Board.Unmixed .scattered 0 movedPost ∧ ∃ response b' row,
      answer {} postedProperty (Board.run { now := 0 } movedPost) = some (response, b') ∧
      row.fieldId = Identifier.nth 1 ∧ row.channelId = "d" ∧
      (Board.run { now := 0 } movedPost).store.Touches b'.store row ∧
      ∃ userId type, postedProperty.user = .ok userId ∧ row.objectType = ObjectType.name type ∧
        (Board.run { now := 0 } movedPost).store.MayManage userId type row.objectId := by
  have hrows : (answer {} postedProperty (Board.run { now := 0 } movedPost)).map
      (fun a => a.2.store.properties.map fun row => (row.fieldId, row.channelId)) =
        some [(Identifier.nth 1, "d"), (Identifier.nth 2, "d")] := by
    decide +kernel
  have hbefore : (Board.run { now := 0 } movedPost).store.properties.map PropertyRow.channelId =
      ["c"] := by
    decide +kernel
  have hunmixed : Board.Unmixed .scattered 0 movedPost := by
    rw [Board.unmixed_iff]
    decide +kernel
  have hroute : postedProperty.route? = some .properties := by
    decide +kernel
  obtain ⟨⟨response, b'⟩, hanswer, hafter⟩ := Option.map_eq_some_iff.1 hrows
  obtain ⟨row, hrow, hkeys⟩ : ∃ row ∈ b'.store.properties,
      (row.fieldId, row.channelId) = (Identifier.nth 1, "d") := by
    refine List.mem_map.1 ?_
    rw [hafter]
    exact List.mem_cons_self
  obtain ⟨hfield, hchannel⟩ := Prod.mk.inj hkeys
  have htouched : (Board.run { now := 0 } movedPost).store.Touches b'.store row := by
    intro hsame
    have hold := List.mem_map_of_mem (f := PropertyRow.channelId) (hsame.2 hrow)
    rw [hbefore, hchannel] at hold
    exact absurd hold (by decide)
  obtain ⟨userId, type, huser, _, hmanage, htype⟩ :=
    (property_requests_are_authorized hroute rfl hanswer).1 row htouched
  exact ⟨hunmixed, response, b', row, hanswer, hfield, hchannel, htouched, userId, type, huser,
    htype hunmixed, hmanage⟩

end Http
end PropertyBoard
