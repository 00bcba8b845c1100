import PropertyBoard.Proofs.Service.Properties
import PropertyBoard.Proofs.Service.Views
import PropertyBoard.Run

/-!
# PropertyBoard.Proofs.Run

What one action does to the store, and induction over actions.

* `ServiceCall.atomic_run`: a call that is refused leaves the store as it was.
* `ServiceCall.Writes`: what a call that succeeds makes of the store, in cases (`writes_of_ok`).
  Other theorems split on these cases and do not look into the calls.
* `HostWrite.Writes`: the same for what the platform writes. These are its own tables only, so an
  action leaves the tables of the board as they are, or it is a call that succeeds
  (`Board.after_cases`).
* `Board.Reachable.induct`: what holds of the empty store and is kept by each action holds of every
  board that can come about.
-/

namespace PropertyBoard

open Store

namespace ServiceCall

theorem on_silent {α : Type} (c : Call α) (b : Board) :
    (silent c).on b = ((c.on b).1.map fun _ => (), (c.on b).2) := by
  unfold Call.on silent
  rcases c b with ⟨e | a, b'⟩ <;> rfl

theorem silent_eq_ok {α : Type} {c : Call α} {b b' : Board} :
    (silent c).on b = (.ok (), b') ↔ ∃ a, c.on b = (.ok a, b') := by
  rw [on_silent]
  rcases c.on b with ⟨e | a, b₁⟩
  · simp [Except.map]
  · simp [Except.map]

theorem atomic_silent {α : Type} {c : Call α} (h : c.Atomic) : (silent c).Atomic := by
  intro b e he
  have hb := h b
  rw [on_silent] at he ⊢
  rcases hc : c.on b with ⟨e' | a, b'⟩
  · rw [hc] at hb
    exact hb e' rfl
  · rw [hc] at he
    cases he

theorem atomic_silent_look {α : Type} (read : Store → Except Refusal α) :
    (silent (Call.look read)).Atomic :=
  atomic_silent (Call.quiet_look read).atomic

/-- Every call that is refused leaves the store as it was, whatever the store holds. -/
theorem atomic_run (c : ServiceCall) : c.run.Atomic := by
  cases c <;> rw [run]
  case createField r userId => exact atomic_silent (Fields.atomic_create r userId)
  case updateField id r userId => exact atomic_silent (Fields.atomic_update id r userId)
  case deleteField id => exact atomic_silent (Call.atomic_make _)
  case createProperty input userId => exact atomic_silent (Properties.atomic_create input userId)
  case updateProperty id raw userId => exact atomic_silent (Properties.atomic_update id raw userId)
  case deleteProperty id => exact Call.atomic_make _
  case resyncObject objectId => exact atomic_silent (Properties.atomic_resync objectId)
  case createView r => exact atomic_silent (Views.atomic_create r)
  case updateView id p => exact atomic_silent (Views.atomic_update id p)
  case addMember userId viewId => exact Views.atomic_addMember userId viewId
  all_goals exact atomic_silent_look _

/-! ## What calls write -/

/-- What a call that succeeds on a board makes of its store. -/
inductive Writes (b : Board) : ServiceCall → Store → Prop
  | nothing (c : ServiceCall) : Writes b c b.store
  | createField {r : FieldRequest} {userId text : String} {input : FieldInput} {f : Field}
      (hinput : r.check = .ok input)
      (hf : f = Fields.ofInput input b.nextId b.now userId)
      (htext : Fields.encodeOptions f.id f.options = .ok text)
      (hnew : b.store.hasField f.id = false) :
      Writes b (.createField r userId)
        { b.store with fields := b.store.fields ++ [Fields.rowOf f text] }
  | updateField {id : String} {r : FieldRequest} {userId text : String} {input : FieldInput}
      {f : Field}
      (hinput : r.check = .ok input)
      (hf : f = Fields.ofInput input id b.now userId)
      (htext : Fields.encodeOptions f.id f.options = .ok text)
      (hfield : b.store.hasField f.id = true)
      (hall : ∀ p ∈ b.store.properties, p.fieldId = f.id →
        ∃ text?, Fields.conformed? f p = .ok text?) :
      Writes b (.updateField id r userId) (Fields.replaced f text b.store)
  | deleteField {id : String} (hfield : b.store.hasField id = true) :
      Writes b (.deleteField id) (Fields.withoutField id b.store)
  | createProperty {input : PropertyInput} {userId text : String} {f : Field} {value : Value}
      {scope : Scope} {r : PropertyRow}
      (hfield : Fields.find b.store input.fieldId = .ok (some f))
      (hvalue : Value.parse f input.value = .ok value)
      (hscope : Platform.scopeOf b.store input.objectType input.objectId = .ok scope)
      (htext : Fields.encodeValue b.nextId value.toList = .ok text)
      (hr : r = Properties.newRow input f scope b.nextId text)
      (hclash : b.store.properties.any r.clashes = false) :
      Writes b (.createProperty input userId)
        { b.store with
          properties := stamped input.objectId scope (b.store.properties ++ [r]) }
  | updateProperty {id : String} {raw : List Json} {userId text : String} {p : Property}
      {f : Field} {value : Value}
      (hp : Properties.find b.store id = .ok (some p))
      (hfield : Fields.find b.store p.fieldId = .ok (some f))
      (hvalue : Value.parse f raw = .ok value)
      (htext : Fields.encodeValue id value.toList = .ok text) :
      Writes b (.updateProperty id raw userId)
        { b.store with properties := withValue id text b.store.properties }
  | deleteProperty {id : String} :
      Writes b (.deleteProperty id)
        { b.store with properties := b.store.properties.filter fun r => r.id ≠ id }
  | resyncObject {objectId : String} {first : Property} {rest : List Property} {scope : Scope}
      (hobject : Properties.ofObject b.store objectId = .ok (first :: rest))
      (hscope : Platform.scopeOf b.store first.objectType objectId = .ok scope) :
      Writes b (.resyncObject objectId)
        { b.store with properties := stamped objectId scope b.store.properties }
  | createView {r : ViewRequest} {input : ViewInput} {v : View} {queryText layoutText : String}
      (hinput : r.check = .ok input)
      (hv : v = Views.created input b.nextId b.now)
      (hquery : Views.encodeQuery v.id v.query = .ok queryText)
      (hlayout : Views.encodeLayout v.id v.layout = .ok layoutText)
      (hnew : b.store.hasView v.id = false) :
      Writes b (.createView r)
        { b.store with views := b.store.views ++ [Views.rowOf v queryText layoutText] }
  | updateView {id : String} {p : ViewPatch} {parts : Statement.Views.Parts}
      {q : Sql.Update ViewRow}
      (hparts : Views.partsOf id p = .ok parts)
      (hq : Statement.Views.update? id parts = some q)
      (hfound : (q.on b.store.views).2 ≠ 0) :
      Writes b (.updateView id p) { b.store with views := (q.on b.store.views).1 }
  | addMember {userId user viewId : String} {v : View}
      (huser : Text.required "user_id" userId = .ok user)
      (hview : Views.find b.store viewId = .ok (some v))
      (hnew : { viewId, userId := user } ∉ b.store.members) :
      Writes b (.addMember userId viewId)
        { b.store with members := b.store.members ++ [{ viewId, userId := user }] }

theorem writes_of_look {α : Type} {read : Store → Except Refusal α} {b b' : Board}
    {c : ServiceCall} (h : (silent (Call.look read)).on b = (.ok (), b')) :
    Writes b c b'.store := by
  obtain ⟨a, ha⟩ := silent_eq_ok.1 h
  obtain ⟨_, rfl⟩ := Call.look_eq_ok.1 ha
  exact .nothing c

/-- A call that succeeds does one of these things. Fields are conformed by the identifiers of
properties, which have to be distinct. -/
theorem writes_of_ok {c : ServiceCall} {b b' : Board}
    (hids : (b.store.properties.map PropertyRow.id).Nodup) (h : c.run.on b = (.ok (), b')) :
    Writes b c b'.store := by
  cases c <;> rw [run] at h
  case createField r userId =>
    obtain ⟨f, hok⟩ := silent_eq_ok.1 h
    obtain ⟨_, input, hinput, hf, text, htext, hnew, rfl⟩ := Fields.create_eq_ok.1 hok
    exact .createField hinput hf htext hnew
  case updateField id r userId =>
    obtain ⟨f, hok⟩ := silent_eq_ok.1 h
    obtain ⟨_, input, hinput, rfl, text, htext, hfield, hall, rfl⟩ :=
      (Fields.update_eq_ok hids).1 hok
    exact .updateField hinput rfl htext hfield hall
  case deleteField id =>
    obtain ⟨n, hok⟩ := silent_eq_ok.1 h
    obtain ⟨hfield, _, rfl⟩ := Fields.delete_eq_ok.1 hok
    exact .deleteField hfield
  case createProperty input userId =>
    obtain ⟨p, hok⟩ := silent_eq_ok.1 h
    obtain ⟨f, value, scope, text, hfield, hvalue, hscope, htext, hclash, _, rfl⟩ :=
      Properties.create_eq_ok.1 hok
    exact .createProperty hfield hvalue hscope htext rfl hclash
  case updateProperty id raw userId =>
    obtain ⟨p, hok⟩ := silent_eq_ok.1 h
    obtain ⟨n, s', hset, _, rfl⟩ := Properties.update_eq_ok.1 hok
    obtain ⟨p, f, value, text, hp, hfield, hvalue, htext, _, rfl⟩ :=
      Properties.setValue_eq_ok.1 hset
    exact .updateProperty hp hfield hvalue htext
  case deleteProperty id =>
    obtain ⟨_, rfl⟩ := Properties.delete_eq_ok.1 h
    exact .deleteProperty
  case resyncObject objectId =>
    obtain ⟨n, hok⟩ := silent_eq_ok.1 h
    obtain ⟨_, _, rfl⟩ | ⟨first, rest, scope, hobject, hscope, _, rfl⟩ :=
      Properties.resync_eq_ok.1 hok
    · exact .nothing _
    · exact .resyncObject hobject hscope
  case createView r =>
    obtain ⟨v, hok⟩ := silent_eq_ok.1 h
    obtain ⟨input, queryText, layoutText, hinput, hv, hquery, hlayout, hnew, rfl⟩ :=
      Views.create_eq_ok.1 hok
    exact .createView hinput hv hquery hlayout hnew
  case updateView id p =>
    obtain ⟨v, hok⟩ := silent_eq_ok.1 h
    obtain ⟨parts, q, s', hparts, hq, hfound, rfl, _, rfl⟩ := Views.update_eq_ok.1 hok
    exact .updateView hparts hq hfound
  case addMember userId viewId =>
    obtain ⟨user, v, huser, hview, hnew, rfl⟩ := Views.addMember_eq_ok.1 h
    exact .addMember huser hview hnew
  all_goals exact writes_of_look h

end ServiceCall

/-! ## Actions -/

namespace HostWrite

/-- What a write of the platform makes of a store. -/
inductive Writes (s : Store) : HostWrite → Store → Prop
  | addChannel {row : ChannelRow} (hnew : ∀ c ∈ s.channels, c.id ≠ row.id) :
      Writes s (.addChannel row) { s with channels := s.channels ++ [row] }
  | addRole {row : RoleRow}
      (hnew : ∀ m ∈ s.roles, m.channelId = row.channelId → m.userId ≠ row.userId) :
      Writes s (.addRole row) { s with roles := s.roles ++ [row] }
  | addPost {row : Post} (hnew : ∀ p ∈ s.posts, p.id ≠ row.id) :
      Writes s (.addPost row) { s with posts := s.posts ++ [row] }
  | movePost {id channelId : String} :
      Writes s (.movePost id channelId)
        { s with posts := s.posts.map fun p => if p.id = id then { p with channelId } else p }
  | moveChannel {id teamId : String} :
      Writes s (.moveChannel id teamId)
        { s with channels := s.channels.map fun c => if c.id = id then { c with teamId } else c }
  | deletePost {id : String} :
      Writes s (.deletePost id) { s with posts := s.posts.filter fun p => p.id ≠ id }
  | deleteChannel {id : String} :
      Writes s (.deleteChannel id) { s with channels := s.channels.filter fun c => c.id ≠ id }

theorem writes_of_ok {w : HostWrite} {s s' : Store} {n : Nat} (h : w.on s = .ok (s', n)) :
    Writes s w s' := by
  cases w with
  | addChannel row =>
    simp only [on, Store.insertChannel] at h
    split at h <;> cases h
    rename_i hnew
    exact .addChannel (by simpa using hnew)
  | addRole row =>
    simp only [on, Store.insertRole] at h
    split at h <;> cases h
    rename_i hnew
    exact .addRole (by simpa using hnew)
  | addPost row =>
    simp only [on, Store.insertPost] at h
    split at h <;> cases h
    rename_i hnew
    exact .addPost (by simpa using hnew)
  | movePost id channelId =>
    cases h
    exact .movePost
  | moveChannel id teamId =>
    cases h
    exact .moveChannel
  | deletePost id =>
    cases h
    exact .deletePost
  | deleteChannel id =>
    cases h
    exact .deleteChannel

/-- The platform writes its own tables only. -/
theorem Writes.same_board {w : HostWrite} {s s' : Store} (h : Writes s w s') :
    s'.fields = s.fields ∧ s'.properties = s.properties ∧ s'.views = s.views ∧
      s'.members = s.members := by
  cases h <;> exact ⟨rfl, rfl, rfl, rfl⟩

end HostWrite

namespace Board

/-- An action leaves the tables of the board as they are, or it is a call that succeeds. -/
theorem after_cases (b : Board) (a : Action) :
    ((b.after a).store.fields = b.store.fields ∧
      (b.after a).store.properties = b.store.properties ∧
      (b.after a).store.views = b.store.views ∧
      (b.after a).store.members = b.store.members) ∨
      ∃ c, a = .call c ∧ c.run.on b = (.ok (), b.after a) := by
  cases a with
  | call c =>
    have hatomic := c.atomic_run b
    show (_ ∧ _) ∨ ∃ c', Action.call c = .call c' ∧ c'.run.on b = (.ok (), (c.run.on b).2)
    rcases hc : c.run.on b with ⟨e | _, b'⟩
    · rw [hc] at hatomic
      have hstore : (b.after (.call c)).store = b.store := by
        show (c.run.on b).2.store = b.store
        rw [hc]
        exact hatomic e rfl
      rw [hstore]
      exact .inl ⟨rfl, rfl, rfl, rfl⟩
    · exact .inr ⟨c, rfl, hc⟩
  | setClock now => exact .inl ⟨rfl, rfl, rfl, rfl⟩
  | host w =>
    rw [after]
    rcases hw : w.on b.store with e | ⟨s', n⟩
    · exact .inl ⟨rfl, rfl, rfl, rfl⟩
    · exact .inl (HostWrite.writes_of_ok hw).same_board

@[simp] theorem run_nil (b : Board) : b.run [] = b := rfl

@[simp] theorem run_cons (b : Board) (a : Action) (actions : List Action) :
    b.run (a :: actions) = (b.after a).run actions := rfl

theorem run_append (b : Board) (before after : List Action) :
    b.run (before ++ after) = (b.run before).run after := by
  simp [run, List.foldl_append]

/-- The board after a call whose answer does not matter. -/
theorem after_silent {α : Type} {c : ServiceCall} {call : Call α} (hrun : c.run = ServiceCall.silent call)
    (b : Board) : b.after (.call c) = (call.on b).2 := by
  show (c.run.on b).2 = _
  rw [hrun, ServiceCall.on_silent]

theorem reachable_run (now : Int64) (actions : List Action)
    (source : Identifier.Source := .scattered) : Reachable (run { now, source } actions) :=
  ⟨source, now, actions, rfl⟩

theorem Reachable.after {b : Board} (h : b.Reachable) (a : Action) : (b.after a).Reachable := by
  obtain ⟨source, now, actions, rfl⟩ := h
  exact ⟨source, now, actions ++ [a], by simp [run_append]⟩

/-- What one action keeps, a run keeps. -/
theorem run_induct {P : Board → Prop} (hstep : ∀ b a, P b → P (b.after a)) {b : Board} (h : P b)
    (actions : List Action) : P (b.run actions) := by
  induction actions generalizing b with
  | nil => exact h
  | cons a rest ih => exact ih (hstep b a h)

theorem Reachable.induct {P : Board → Prop} (hempty : ∀ now source, P { now, source })
    (hstep : ∀ b a, b.Reachable → P b → P (b.after a)) {b : Board} (h : b.Reachable) : P b := by
  obtain ⟨source, now, actions, rfl⟩ := h
  have hboth : Reachable (run { now, source } actions) ∧ P (run { now, source } actions) := by
    refine run_induct (P := fun b => b.Reachable ∧ P b) ?_
      ⟨reachable_run now [] source, hempty now source⟩ actions
    rintro b a ⟨hb, hP⟩
    exact ⟨hb.after a, hstep b a hb hP⟩
  exact hboth.2

end Board
end PropertyBoard
