import PropertyBoard.Http.Answer
import PropertyBoard.Proofs.Call

/-!
# PropertyBoard.Proofs.Http.Exchange

What an answer in the making does to the store.

* `Exchange.Quiet`: it leaves the store alone.
* `Exchange.Careful`: if it changes the store, the response is one of success. Atomic calls whose
  result is answered with success make careful exchanges (`careful_call`).
-/

namespace PropertyBoard
namespace Http

/-- Whether the status is one of success. -/
def Response.IsSuccess (r : Response) : Prop :=
  200 ≤ r.status ∧ r.status < 300

theorem Response.isSuccess_json (body : Json) : (Response.json body).IsSuccess := by
  simp [IsSuccess, json]

theorem Response.isSuccess_createdJson (body : Json) : (Response.createdJson body).IsSuccess := by
  simp [IsSuccess, createdJson]

theorem Response.isSuccess_created {location : String} (h : isFieldText location = true)
    (body : Json) : (Response.created location body).IsSuccess := by
  simp [IsSuccess, created, h]

namespace Exchange

variable {α β : Type}

/-- The outcome of an exchange, and the board that it leaves. -/
def on (e : Exchange α) (b : Board) : Except Response α × Board :=
  e b

theorem on_bind (x : Exchange α) (f : α → Exchange β) (b : Board) :
    on (x >>= f) b =
      match x.on b with
      | (.ok a, b₁) => (f a).on b₁
      | (.error e, b₁) => (.error e, b₁) := by
  show ExceptT.bindCont f (x b).1 (x b).2 = _
  unfold on
  rcases x b with ⟨e | a, b₁⟩ <;> rfl

/-! ## Exchanges that change nothing -/

def Quiet (e : Exchange α) : Prop :=
  ∀ b, (e.on b).2.store = b.store

theorem quiet_pure (a : α) : (pure a : Exchange α).Quiet := by
  intro b
  rfl

theorem quiet_check (x : Except Refusal α) : (check x).Quiet := by
  intro b
  unfold on check
  split <;> rfl

theorem quiet_look (read : Store → Except Refusal α) : (look read).Quiet := by
  intro b
  exact quiet_check (read b.store) b

theorem quiet_pathId (segment : String) : (pathId segment).Quiet := by
  intro b
  unfold on pathId
  split <;> rfl

theorem quiet_params (query : Option String) (names : List String) :
    (params query names).Quiet := by
  intro b
  unfold on params
  simp only
  split <;> rfl

theorem Quiet.bind {x : Exchange α} {f : α → Exchange β} (hx : x.Quiet) (hf : ∀ a, (f a).Quiet) :
    (x >>= f).Quiet := by
  intro b
  have hb := hx b
  rw [on_bind]
  rcases h : x.on b with ⟨e | a, b₁⟩
  · rw [h] at hb
    exact hb
  · rw [h] at hb
    exact (hf a b₁).trans hb

/-! ## Exchanges that change the store with success only -/

def Careful (e : Exchange Response) : Prop :=
  ∀ b, (e.on b).2.store ≠ b.store → ∃ response, (e.on b).1 = .ok response ∧ response.IsSuccess

theorem Quiet.careful {e : Exchange Response} (h : e.Quiet) : e.Careful := by
  intro b hb
  exact absurd (h b) hb

theorem Careful.after_quiet {x : Exchange α} {f : α → Exchange Response} (hx : x.Quiet)
    (hf : ∀ a, (f a).Careful) : (x >>= f).Careful := by
  intro b hb
  have hxb := hx b
  rw [on_bind] at hb ⊢
  rcases h : x.on b with ⟨e | a, b₁⟩
  · rw [h] at hxb hb
    exact absurd hxb hb
  · rw [h] at hxb hb
    refine hf a b₁ ?_
    rw [show b₁.store = b.store from hxb]
    exact hb

/-- A call that is refused changes nothing, and the result of any other is answered with success. -/
theorem careful_call {c : Call α} {respond : α → Response} (hc : c.Atomic)
    (hrespond : ∀ b a b', c.on b = (.ok a, b') → (respond a).IsSuccess) :
    (call c >>= fun a => pure (respond a)).Careful := by
  intro b hb
  have hatomic := hc b
  rw [on_bind] at hb ⊢
  rcases h : c.on b with ⟨e | a, b₁⟩
  · have hon : (call c).on b = (.error (.ofRefusal e), b₁) := by
      unfold on call
      rw [show c b = (.error e, b₁) from h]
    rw [hon] at hb
    rw [h] at hatomic
    exact absurd (hatomic e rfl) hb
  · have hon : (call c).on b = (.ok a, b₁) := by
      unfold on call
      rw [show c b = (.ok a, b₁) from h]
    rw [hon]
    exact ⟨respond a, rfl, hrespond b a b₁ h⟩

end Exchange
end Http
end PropertyBoard
