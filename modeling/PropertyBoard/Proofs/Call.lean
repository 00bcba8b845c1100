import PropertyBoard.Board

/-!
# PropertyBoard.Proofs.Call

How changes and calls succeed and fail, one step after the other.

* `Change.bind_eq_ok`, `Call.bind_eq_ok`: a sequence succeeds exactly if each of its parts does, each
  from where the part before it ended.
* For every single step, such as `Change.look` and `Call.make`, when it succeeds and with what.
* `Call.Quiet`: a call that leaves the store alone. `Call.Atomic`: a call that leaves the store alone
  whenever it is refused.
-/

namespace PropertyBoard

theorem Except.bind_eq_ok {ε α β : Type} {x : Except ε α} {f : α → Except ε β} {b : β} :
    (x >>= f) = .ok b ↔ ∃ a, x = .ok a ∧ f a = .ok b := by
  cases x with
  | error e => simp [bind, Except.bind]
  | ok a => simp [bind, Except.bind]

/-- Something that may be missing is there, or the refusal stands. -/
theorem Except.found_eq_ok {ε α : Type} {x : Except ε (Option α)} {f : Option α → Except ε α}
    {e : ε} {a : α} (hsome : ∀ a, f (some a) = .ok a) (hnone : f none = .error e) :
    (x >>= f) = .ok a ↔ x = .ok (some a) := by
  rw [Except.bind_eq_ok]
  constructor
  · rintro ⟨found, hx, h⟩
    cases found with
    | none =>
      rw [hnone] at h
      cases h
    | some a' =>
      rw [hsome] at h
      cases h
      exact hx
  · intro hx
    exact ⟨some a, hx, hsome a⟩

theorem Except.found_of_none {ε α : Type} {x : Except ε (Option α)} {f : Option α → Except ε α}
    {e : ε} (hnone : f none = .error e) (hx : x = .ok none) : (x >>= f) = .error e := by
  rw [hx]
  exact hnone

namespace Refusal

variable {α : Type}

@[simp] theorem ofInvalid_eq_ok {x : Except Invalid α} {a : α} :
    ofInvalid x = .ok a ↔ x = .ok a := by
  cases x <;> simp [ofInvalid]

@[simp] theorem ofStorage_eq_ok {context : String} {x : Except StorageError α} {a : α} :
    ofStorage context x = .ok a ↔ x = .ok a := by
  cases x <;> simp [ofStorage]

end Refusal

namespace Change

variable {α β ρ : Type} {s s' : Store}

theorem bind_eq_ok {x : Change α} {f : α → Change β} {b : β} :
    (x >>= f) s = .ok (b, s') ↔ ∃ a s₁, x s = .ok (a, s₁) ∧ f a s₁ = .ok (b, s') := by
  show (x s >>= fun p => f p.1 p.2) = _ ↔ _
  rw [Except.bind_eq_ok]
  constructor
  · rintro ⟨⟨a, s₁⟩, hx, hf⟩
    exact ⟨a, s₁, hx, hf⟩
  · rintro ⟨a, s₁, hx, hf⟩
    exact ⟨(a, s₁), hx, hf⟩

theorem bind_of_ok {x : Change α} {f : α → Change β} {a : α} (h : x s = .ok (a, s')) :
    (x >>= f) s = f a s' := by
  show (x s >>= fun p => f p.1 p.2) = _
  rw [h]
  rfl

theorem bind_of_error {x : Change α} {f : α → Change β} {e : Refusal} (h : x s = .error e) :
    (x >>= f) s = .error e := by
  show (x s >>= fun p => f p.1 p.2) = _
  rw [h]
  rfl

@[simp] theorem pure_eq_ok {a b : α} :
    (pure a : Change α) s = .ok (b, s') ↔ a = b ∧ s = s' := by
  show Except.ok (a, s) = .ok (b, s') ↔ _
  rw [Except.ok.injEq, Prod.mk.injEq]

@[simp] theorem map_eq_ok {x : Change α} {g : α → β} {b : β} :
    (g <$> x) s = .ok (b, s') ↔ ∃ a, x s = .ok (a, s') ∧ g a = b := by
  rw [← bind_pure_comp, bind_eq_ok]
  simp only [pure_eq_ok]
  constructor
  · rintro ⟨a, _, hx, rfl, rfl⟩
    exact ⟨a, hx, rfl⟩
  · rintro ⟨a, hx, rfl⟩
    exact ⟨a, s', hx, rfl, rfl⟩

@[simp] theorem check_eq_ok {x : Except Refusal α} {a : α} :
    check x s = .ok (a, s') ↔ x = .ok a ∧ s = s' := by
  cases x <;> simp [check, Except.map]

@[simp] theorem look_eq_ok {read : Store → Except Refusal α} {a : α} :
    look read s = .ok (a, s') ↔ read s = .ok a ∧ s = s' := by
  unfold look
  cases read s <;> simp [Except.map]

@[simp] theorem insert_eq_ok {context : String} {put : Store → ρ → Except StorageError Store}
    {q : Sql.Insert ρ} {u : Unit} : insert context put q s = .ok (u, s') ↔ put s q.row = .ok s' := by
  unfold insert
  cases put s q.row <;> simp

@[simp] theorem updateFields_eq_ok {q : Sql.Update Store.FieldRow} {n : Nat} :
    updateFields q s = .ok (n, s') ↔
      (q.on s.fields).2 = n ∧ { s with fields := (q.on s.fields).1 } = s' := by
  simp [updateFields]

@[simp] theorem updateProperties_eq_ok {q : Sql.Update Store.PropertyRow} {n : Nat} :
    updateProperties q s = .ok (n, s') ↔
      (q.on s.properties).2 = n ∧ { s with properties := (q.on s.properties).1 } = s' := by
  simp [updateProperties]

@[simp] theorem updateViews_eq_ok {q : Sql.Update Store.ViewRow} {n : Nat} :
    updateViews q s = .ok (n, s') ↔
      (q.on s.views).2 = n ∧ { s with views := (q.on s.views).1 } = s' := by
  simp [updateViews]

@[simp] theorem deleteFields_eq_ok {q : Sql.Delete Store.FieldRow} {n : Nat} :
    deleteFields q s = .ok (n, s') ↔
      (q.on s.fields).2 = n ∧ s.keepFields (q.on s.fields).1 = s' := by
  simp [deleteFields]

@[simp] theorem deleteProperties_eq_ok {q : Sql.Delete Store.PropertyRow} {n : Nat} :
    deleteProperties q s = .ok (n, s') ↔
      (q.on s.properties).2 = n ∧ { s with properties := (q.on s.properties).1 } = s' := by
  simp [deleteProperties]

end Change

namespace Call

variable {α β : Type} {b b' : Board}

/-- The outcome of a call, and the board that it leaves. -/
def on (c : Call α) (b : Board) : Except Refusal α × Board :=
  c b

theorem on_bind (x : Call α) (f : α → Call β) (b : Board) :
    on (x >>= f) b =
      match x.on b with
      | (.ok a, b₁) => (f a).on b₁
      | (.error e, b₁) => (.error e, b₁) := by
  show ExceptT.bindCont f (x b).1 (x b).2 = _
  unfold on
  rcases x b with ⟨e | a, b₁⟩ <;> rfl

theorem on_bind_of_ok {x : Call α} {f : α → Call β} {a : α} (h : x.on b = (.ok a, b')) :
    on (x >>= f) b = (f a).on b' := by
  rw [on_bind, h]

theorem on_bind_of_error {x : Call α} {f : α → Call β} {e : Refusal}
    (h : x.on b = (.error e, b')) : on (x >>= f) b = (.error e, b') := by
  rw [on_bind, h]

theorem bind_eq_ok {x : Call α} {f : α → Call β} {c : β} :
    on (x >>= f) b = (.ok c, b') ↔ ∃ a b₁, x.on b = (.ok a, b₁) ∧ (f a).on b₁ = (.ok c, b') := by
  rw [on_bind]
  rcases x.on b with ⟨e | a, b₁⟩
  · simp
  · constructor
    · intro h
      exact ⟨a, b₁, rfl, h⟩
    · rintro ⟨a', b₂, h, hf⟩
      cases h
      exact hf

@[simp] theorem pure_eq_ok {a a' : α} :
    on (pure a) b = (.ok a', b') ↔ a = a' ∧ b = b' := by
  show ((Except.ok a, b) : Except Refusal α × Board) = _ ↔ _
  simp

@[simp] theorem check_eq_ok {x : Except Refusal α} {a : α} :
    on (check x) b = (.ok a, b') ↔ x = .ok a ∧ b = b' := by
  simp [on, check]

@[simp] theorem look_eq_ok {read : Store → Except Refusal α} {a : α} :
    on (look read) b = (.ok a, b') ↔ read b.store = .ok a ∧ b = b' := by
  simp [on, look]

@[simp] theorem now_eq_ok {t : Int64} : on now b = (.ok t, b') ↔ b.now = t ∧ b = b' := by
  simp [on, now]

@[simp] theorem drawId_eq_ok {id : String} :
    on drawId b = (.ok id, b') ↔
      b.nextId = id ∧ { b with drawn := b.drawn + 1 } = b' := by
  simp [on, drawId]

@[simp] theorem make_eq_ok {change : Change α} {a : α} :
    on (make change) b = (.ok a, b') ↔
      ∃ s, change b.store = .ok (a, s) ∧ { b with store := s } = b' := by
  unfold on make
  rcases change b.store with e | ⟨a', s⟩
  · simp
  · constructor
    · intro h
      cases h
      exact ⟨s, rfl, rfl⟩
    · rintro ⟨s', h, rfl⟩
      cases h
      rfl

/-! ## Refused calls -/

def Quiet (c : Call α) : Prop :=
  ∀ b, (c.on b).2.store = b.store

def Atomic (c : Call α) : Prop :=
  ∀ b e, (c.on b).1 = .error e → (c.on b).2.store = b.store

theorem Quiet.atomic {c : Call α} (h : c.Quiet) : c.Atomic := by
  intro b _ _
  exact h b

theorem quiet_pure (a : α) : (pure a : Call α).Quiet := by
  intro b
  rfl

theorem quiet_check (x : Except Refusal α) : (check x).Quiet := by
  intro b
  rfl

theorem quiet_look (read : Store → Except Refusal α) : (look read).Quiet := by
  intro b
  rfl

theorem quiet_now : now.Quiet := by
  intro b
  rfl

theorem quiet_drawId : drawId.Quiet := by
  intro b
  rfl

/-- A change is made as a whole or not at all. -/
theorem atomic_make (change : Change α) : (make change).Atomic := by
  intro b e h
  rcases hc : change b.store with e' | ⟨a, s⟩
  · have hon : (make change).on b = (.error e', b) := make_of_error hc
    rw [hon]
  · have hon : (make change).on b = (.ok a, { b with store := s }) := make_of_ok hc
    rw [hon] at h
    cases h

theorem Quiet.bind {x : Call α} {f : α → Call β} (hx : x.Quiet) (hf : ∀ a, (f a).Quiet) :
    (x >>= f).Quiet := by
  intro b
  have hb := hx b
  rw [on_bind]
  rcases h : x.on b with ⟨e | a, b₁⟩
  · rw [h] at hb
    exact hb
  · rw [h] at hb
    exact (hf a b₁).trans hb

/-- Looking and checking before an atomic call does no harm. -/
theorem Atomic.after_quiet {x : Call α} {f : α → Call β} (hx : x.Quiet)
    (hf : ∀ a, (f a).Atomic) : (x >>= f).Atomic := by
  intro b e h
  have hb := hx b
  rw [on_bind] at h ⊢
  rcases hxb : x.on b with ⟨e' | a, b₁⟩
  · rw [hxb] at hb
    exact hb
  · rw [hxb] at h hb
    exact (hf a b₁ e h).trans hb

/-- An atomic call may be followed by what cannot be refused. -/
theorem Atomic.then_pure {x : Call α} (hx : x.Atomic) (g : α → β) :
    (x >>= fun a => pure (g a)).Atomic := by
  intro b e h
  rw [on_bind] at h ⊢
  rcases hxb : x.on b with ⟨e' | a, b₁⟩
  · have hb := hx b e' (by rw [hxb])
    rw [hxb] at hb
    exact hb
  · rw [hxb] at h
    cases h

end Call
end PropertyBoard
