import PropertyBoard.Proofs.Http.Exchange
import PropertyBoard.Proofs.Run

/-!
# PropertyBoard.Proofs.Http.Answer

When a request changes the store.

* `Exchange.Guarded`: an exchange that changes the store only if the request names a user, and with
  success only. Every resource has such an answer (`guarded_toRoute`), and one that changes nothing
  where the method only asks (`quiet_toRoute`).
* `failures_are_atomic`: a call that is refused changes nothing; a request that changes something
  asked for it, named a user and succeeded.
-/

namespace PropertyBoard
namespace Http

/-! ## What a request says -/

theorem isFieldText_append (a b : String) :
    isFieldText (a ++ b) = (isFieldText a && isFieldText b) := by
  simp [isFieldText]

theorem isFieldChar_of_digit {c : Char} (h : Identifier.IsDigit c) : isFieldChar c = true := by
  obtain ⟨d, hd, rfl⟩ := h
  have key : ∀ d < 16, isFieldChar (Json.hexDigit d) = true := by decide
  exact key d hd

/-- A header can hold an identifier. -/
theorem isFieldText_nextId (b : Board) : isFieldText b.nextId = true := by
  rw [isFieldText, List.all_eq_true]
  intro c hc
  exact isFieldChar_of_digit (b.source.hexadecimal hc)

theorem isFieldText_location {settings : Settings} (h : isFieldText settings.baseUrl = true)
    {kind : String} (hkind : isFieldText kind = true) (b : Board) :
    isFieldText (settings.location (kind ++ b.nextId)) = true := by
  have hroot : isFieldText Settings.apiRoot = true := by decide
  have hslash : isFieldText "/" = true := by decide
  simp only [Settings.location, isFieldText_append, h, hroot, hslash, hkind, isFieldText_nextId,
    Bool.and_self]

theorem Request.header_of_user {r : Request} {userId : String} (h : r.user = .ok userId) :
    ∃ header ∈ r.headers, sameName header.1 Request.userHeader = true ∧
      Text.trim header.2 = userId ∧ userId ≠ "" := by
  unfold user at h
  split at h
  · rename_i text htext
    cases h
    obtain ⟨value, hvalue, hblank⟩ := Option.bind_eq_some_iff.1 htext
    obtain ⟨hheader, _⟩ := Option.filter_eq_some_iff.1 hvalue
    obtain ⟨header, hfind, rfl⟩ := Option.map_eq_some_iff.1 hheader
    obtain ⟨htrim, hne⟩ := Text.nonBlank?_eq_some_iff.1 hblank
    exact ⟨header, List.mem_of_find?_eq_some hfind, by simpa using List.find?_some hfind,
      htrim.symm, hne⟩
  · cases h

/-- Whether a method may change anything. -/
def Verb.Writes (v : Verb) : Prop :=
  v = .post ∨ v = .put ∨ v = .patch ∨ v = .delete

theorem Verb.method_of_writes {method : String} (h : (Verb.ofMethod method).Writes) :
    method = "POST" ∨ method = "PUT" ∨ method = "PATCH" ∨ method = "DELETE" := by
  unfold ofMethod at h
  repeat' split at h
  all_goals simp_all [Writes]

namespace Exchange

/-- The store is changed for a user only, and with success only. -/
def Guarded (r : Request) (e : Exchange Response) : Prop :=
  e.Careful ∧ ∀ b, (e.on b).2.store ≠ b.store → ∃ userId, r.user = .ok userId

theorem Quiet.guarded {e : Exchange Response} (h : e.Quiet) (r : Request) : e.Guarded r := by
  refine ⟨h.careful, ?_⟩
  intro b hb
  exact absurd (h b) hb

theorem guarded_user {r : Request} {f : String → Exchange Response}
    (h : ∀ userId, (f userId).Careful) : Guarded r (check r.user >>= f) := by
  refine ⟨.after_quiet (quiet_check _) h, ?_⟩
  intro b hb
  cases huser : r.user with
  | ok userId => exact ⟨userId, rfl⟩
  | error e =>
    rw [on_bind, huser] at hb
    exact absurd rfl hb

end Exchange

namespace Answer

open Exchange

variable {settings : Settings} {r : Request}

/-! ## Fields -/

theorem quiet_authorizeField (userId : String) (fieldId : Option String) :
    (authorizeField userId fieldId).Quiet := by
  exact quiet_pure ()

theorem guarded_createField (hbase : isFieldText settings.baseUrl = true) :
    (createField settings r).Guarded r := by
  refine guarded_user fun userId => ?_
  refine .after_quiet (quiet_check _) fun body => ?_
  refine .after_quiet (quiet_authorizeField userId none) fun _ => ?_
  refine careful_call (Fields.atomic_create body userId) ?_
  intro b f b' hok
  obtain ⟨_, input, _, hf, _⟩ := Fields.create_eq_ok.1 hok
  have hid : f.id = b.nextId := by
    rw [hf, Fields.ofInput]
  rw [hid]
  exact Response.isSuccess_created (isFieldText_location hbase (by decide) _) _

theorem guarded_updateField (segment : String) : (updateField r segment).Guarded r := by
  refine guarded_user fun userId => ?_
  refine .after_quiet (quiet_pathId _) fun id => ?_
  refine .after_quiet (quiet_check _) fun body => ?_
  refine .after_quiet (quiet_authorizeField userId (some id)) fun _ => ?_
  exact careful_call (Fields.atomic_update id body userId) fun _ _ _ _ =>
    Response.isSuccess_json _

theorem guarded_deleteField (segment : String) : (deleteField r segment).Guarded r := by
  refine guarded_user fun userId => ?_
  refine .after_quiet (quiet_pathId _) fun id => ?_
  refine .after_quiet (quiet_authorizeField userId (some id)) fun _ => ?_
  exact careful_call (Call.atomic_make _) fun _ _ _ _ => Response.isSuccess_json _

/-! ## Properties -/

theorem quiet_authorize (userId : String) (type : ObjectType) (objectId : String) :
    (authorize userId type objectId).Quiet := by
  refine .bind (quiet_look _) fun access => ?_
  cases access with
  | granted => exact quiet_pure ()
  | unchecked => exact quiet_pure ()

theorem guarded_createProperty (hbase : isFieldText settings.baseUrl = true) :
    (createProperty settings r).Guarded r := by
  refine guarded_user fun userId => ?_
  refine .after_quiet (quiet_check _) fun body => ?_
  refine .after_quiet (quiet_check _) fun input => ?_
  refine .after_quiet (quiet_authorize _ _ _) fun _ => ?_
  refine careful_call (Properties.atomic_create input userId) ?_
  intro b p b' hok
  obtain ⟨f, value, scope, text, _, _, _, _, _, hp, _⟩ := Properties.create_eq_ok.1 hok
  have hid : p.id = b.nextId := by
    rw [hp, Properties.created]
  rw [hid]
  exact Response.isSuccess_created (isFieldText_location hbase (by decide) _) _

theorem guarded_updateProperty (segment : String) : (updateProperty r segment).Guarded r := by
  refine guarded_user fun userId => ?_
  refine .after_quiet (quiet_pathId _) fun id => ?_
  refine .after_quiet (quiet_check _) fun body => ?_
  refine .after_quiet (quiet_look _) fun old => ?_
  refine .after_quiet (quiet_authorize _ _ _) fun _ => ?_
  exact careful_call (Properties.atomic_update id _ userId) fun _ _ _ _ =>
    Response.isSuccess_json _

theorem guarded_deleteProperty (segment : String) : (deleteProperty r segment).Guarded r := by
  refine guarded_user fun userId => ?_
  refine .after_quiet (quiet_pathId _) fun id => ?_
  refine .after_quiet (quiet_look _) fun old => ?_
  refine .after_quiet (quiet_authorize _ _ _) fun _ => ?_
  exact careful_call (Call.atomic_make _) fun _ _ _ _ => Response.isSuccess_json _

theorem guarded_resyncObject (segment : String) : (resyncObject r segment).Guarded r := by
  refine guarded_user fun userId => ?_
  refine .after_quiet (quiet_pathId _) fun objectId => ?_
  refine .after_quiet (quiet_look _) fun ps => ?_
  cases ps with
  | nil => exact (quiet_pure _).careful
  | cons first rest =>
    refine .after_quiet (quiet_authorize _ _ _) fun _ => ?_
    exact careful_call (Properties.atomic_resync objectId) fun _ _ _ _ =>
      Response.isSuccess_json _

/-! ## Views -/

theorem guarded_createView (hbase : isFieldText settings.baseUrl = true) :
    (createView settings r).Guarded r := by
  refine guarded_user fun _ => ?_
  refine .after_quiet (quiet_check _) fun body => ?_
  refine careful_call (Views.atomic_create body) ?_
  intro b v b' hok
  obtain ⟨input, _, _, _, hv, _⟩ := Views.create_eq_ok.1 hok
  have hid : v.id = b.nextId := by
    rw [hv, Views.created]
  rw [hid]
  exact Response.isSuccess_created (isFieldText_location hbase (by decide) _) _

theorem guarded_patchView (segment : String) : (patchView r segment).Guarded r := by
  refine guarded_user fun _ => ?_
  refine .after_quiet (quiet_pathId _) fun id => ?_
  refine .after_quiet (quiet_check _) fun patch => ?_
  exact careful_call (Views.atomic_update id patch) fun _ _ _ _ => Response.isSuccess_json _

theorem guarded_addViewMember (segment : String) : (addViewMember r segment).Guarded r := by
  refine guarded_user fun _ => ?_
  refine .after_quiet (quiet_pathId _) fun id => ?_
  refine .after_quiet (quiet_check _) fun body => ?_
  exact careful_call (Views.atomic_addMember body.userId id) fun _ _ _ _ =>
    Response.isSuccess_createdJson _

/-! ## Reading -/

theorem quiet_searchFields (settings : Settings) (query : Option String) :
    (searchFields settings query).Quiet := by
  refine .bind (quiet_params _ _) fun params => ?_
  exact .bind (quiet_look _) fun fs => quiet_pure _

theorem quiet_queryView (settings : Settings) (segment : String) (query : Option String) :
    (queryView settings segment query).Quiet := by
  refine .bind (quiet_pathId _) fun id => ?_
  refine .bind (quiet_params _ _) fun params => ?_
  exact .bind (quiet_look _) fun resolved => quiet_pure _

/-- A resource that is found by an identifier and read. -/
theorem quiet_reading {α : Type} (segment : String) (read : String → Store → Except Refusal α)
    (respond : α → Response) :
    (do
      let id ← pathId segment
      let a ← look (read id)
      pure (respond a) : Exchange Response).Quiet := by
  refine .bind (quiet_pathId _) fun id => ?_
  exact .bind (quiet_look _) fun a => quiet_pure _

/-! ## All resources -/

theorem quiet_toRoute (settings : Settings) (r : Request) (t : Target) (route : Route) {verb : Verb}
    (h : ¬verb.Writes) : (toRoute settings r t route verb).Quiet := by
  unfold toRoute
  split
  case h_1 => exact quiet_pure _
  case h_3 => exact quiet_searchFields settings t.query
  case h_4 segment => exact quiet_reading segment (fun id s => Fields.get s id) _
  case h_10 segment => exact quiet_reading segment (fun id s => Properties.ofObject s id) _
  case h_13 segment => exact quiet_reading segment (fun id s => Views.visibleTo s id) _
  case h_14 segment => exact quiet_reading segment (fun id s => Views.get s id) _
  case h_16 segment => exact quiet_queryView settings segment t.query
  case h_18 => exact quiet_pure _
  all_goals simp [Verb.Writes] at h

theorem guarded_toRoute (hbase : isFieldText settings.baseUrl = true) (t : Target) (route : Route)
    (verb : Verb) : (toRoute settings r t route verb).Guarded r := by
  by_cases h : verb.Writes
  · unfold toRoute
    split
    case h_2 => exact guarded_createField hbase
    case h_5 => exact guarded_updateField _
    case h_6 => exact guarded_deleteField _
    case h_7 => exact guarded_createProperty hbase
    case h_8 => exact guarded_updateProperty _
    case h_9 => exact guarded_deleteProperty _
    case h_11 => exact guarded_resyncObject _
    case h_12 => exact guarded_createView hbase
    case h_15 => exact guarded_patchView _
    case h_17 => exact guarded_addViewMember _
    case h_18 => exact (quiet_pure _).guarded r
    all_goals simp [Verb.Writes] at h
  · exact (quiet_toRoute settings r t route h).guarded r

/-! ## Requests -/

theorem board_run (e : Exchange Response) (b : Board) : (run e b).2 = (e.on b).2 := by
  unfold run Exchange.on
  rcases e b with ⟨response | response, b'⟩ <;> rfl

theorem response_run {e : Exchange Response} {b : Board} {response : Response}
    (h : (e.on b).1 = .ok response) : (run e b).1 = response := by
  unfold Exchange.on at h
  unfold run
  rcases he : e b with ⟨error | ok, b'⟩
  · rw [he] at h
    cases h
  · rw [he] at h
    exact Except.ok.inj h

theorem run_of_guarded {e : Exchange Response} (h : e.Guarded r) {b : Board}
    (hstore : (run e b).2.store ≠ b.store) :
    (∃ userId, r.user = .ok userId) ∧ (run e b).1.IsSuccess := by
  rw [board_run] at hstore
  obtain ⟨response, hok, hsuccess⟩ := h.1 b hstore
  rw [response_run hok]
  exact ⟨h.2 b hstore, hsuccess⟩

/-- The head of a resource is asked for like the resource, and so changes nothing. -/
theorem board_toVerb_head (settings : Settings) (r : Request) (t : Target) (b : Board) :
    (toVerb settings r t .head b).2.store = b.store := by
  unfold toVerb
  cases Route.ofPath? t.path with
  | none => rfl
  | some route =>
    have hquiet : (toRoute settings r t route .get).Quiet :=
      quiet_toRoute settings r t route (by simp [Verb.Writes])
    show (run (toRoute settings r t route .get) b).2.store = b.store
    rw [board_run]
    exact hquiet b

theorem toVerb_of_changed (hbase : isFieldText settings.baseUrl = true) {t : Target} {verb : Verb}
    {b : Board} (hstore : (toVerb settings r t verb b).2.store ≠ b.store) :
    verb.Writes ∧ (∃ userId, r.user = .ok userId) ∧
      (toVerb settings r t verb b).1.IsSuccess := by
  by_cases hhead : verb = .head
  · rw [hhead] at hstore
    exact absurd (board_toVerb_head settings r t b) hstore
  · unfold toVerb at hstore ⊢
    cases hroute : Route.ofPath? t.path with
    | none =>
      rw [hroute] at hstore
      exact absurd rfl hstore
    | some route =>
      simp only [hroute] at hstore ⊢
      by_cases hwrites : verb.Writes
      · exact ⟨hwrites, run_of_guarded (guarded_toRoute hbase t route verb) hstore⟩
      · refine absurd ?_ hstore
        rw [board_run]
        exact quiet_toRoute settings r t route hwrites b

end Answer

/-- A request that changes the store has a method that may, names a user, and succeeds. -/
theorem answer_of_changed {settings : Settings} (hbase : isFieldText settings.baseUrl = true)
    {r : Request} {b b' : Board} {response : Response}
    (h : answer settings r b = some (response, b')) (hstore : b'.store ≠ b.store) :
    (Verb.ofMethod r.method).Writes ∧ (∃ userId, r.user = .ok userId) ∧ response.IsSuccess := by
  unfold answer at h
  cases ht : r.target? with
  | none => simp [ht] at h
  | some t =>
    simp only [ht] at h
    split at h
    · cases h
      exact absurd rfl hstore
    · obtain ⟨rfl, rfl⟩ := Prod.mk.inj (Option.some.inj h)
      exact Answer.toVerb_of_changed hbase hstore

/-- Every failure is atomic. A call that is refused changes nothing, whatever the store holds. A
request that changes something has a method for it, names a user, and is answered with success. -/
theorem failures_are_atomic :
    (∀ (c : ServiceCall) (b : Board) (e : Refusal),
      (c.run.on b).1 = .error e → (c.run.on b).2.store = b.store) ∧
    ∀ (settings : Settings) (r : Request) (b b' : Board) (response : Response),
      (∀ c ∈ settings.baseUrl.toList, 0x20 ≤ c.toNat ∧ c.toNat ≠ 0x7F) →
      answer settings r b = some (response, b') → b'.store ≠ b.store →
        (r.method = "POST" ∨ r.method = "PUT" ∨ r.method = "PATCH" ∨ r.method = "DELETE") ∧
        (∃ header ∈ r.headers, sameName header.1 Request.userHeader = true ∧
          Text.trim header.2 ≠ "") ∧
        200 ≤ response.status ∧ response.status < 300 := by
  constructor
  · intro c b e he
    exact c.atomic_run b e he
  · intro settings r b b' response hbase h hstore
    have hfield : isFieldText settings.baseUrl = true := by
      rw [isFieldText, List.all_eq_true]
      intro c hc
      obtain ⟨hlow, hdel⟩ := hbase c hc
      simp [isFieldChar, hlow, hdel]
    obtain ⟨hwrites, ⟨userId, huser⟩, hsuccess⟩ := answer_of_changed hfield h hstore
    obtain ⟨header, hheader, hname, htrim, hne⟩ := Request.header_of_user huser
    exact ⟨Verb.method_of_writes hwrites, ⟨header, hheader, hname, htrim ▸ hne⟩, hsuccess⟩

/-- A request that adds a field. -/
def postedField : Request where
  method := "POST"
  target := "/api/v1/field"
  headers := [("X-User-Id", " ana "), ("Content-Type", "application/json")]
  body := some "\x7b\"name\":\"state\",\"type\":\"text\"\x7d"

/-- A request that does change the store. -/
theorem posted_field_succeeds :
    ∃ response b', answer {} postedField { now := 0 } = some (response, b') ∧
      b'.store.fields.length = 1 ∧ 200 ≤ response.status ∧ response.status < 300 := by
  have hsome : (answer {} postedField { now := 0 }).map (fun a => a.2.store.fields.length) =
      some 1 := by
    decide +kernel
  obtain ⟨⟨response, b'⟩, hanswer, hlength⟩ := Option.map_eq_some_iff.1 hsome
  have hstore : b'.store ≠ ({ now := 0 } : Board).store := by
    intro h
    rw [h] at hlength
    cases hlength
  have hplain : ({} : Settings).baseUrl.toList.all
      (fun c => 0x20 ≤ c.toNat ∧ c.toNat ≠ 0x7F) = true := by
    decide
  have hbase : ∀ c ∈ ({} : Settings).baseUrl.toList, 0x20 ≤ c.toNat ∧ c.toNat ≠ 0x7F :=
    fun c hc => of_decide_eq_true (List.all_eq_true.1 hplain c hc)
  obtain ⟨_, _, hsuccess⟩ :=
    failures_are_atomic.2 {} postedField { now := 0 } b' response hbase hanswer hstore
  exact ⟨response, b', hanswer, hlength, hsuccess⟩

end Http
end PropertyBoard
