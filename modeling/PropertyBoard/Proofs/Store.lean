import PropertyBoard.Board

/-!
# PropertyBoard.Proofs.Store

When rows can be added to the store, and when rows can be read.

* `insertField_eq_ok`, `insertView_eq_ok`, `insertMember_eq_ok`: the conditions of an insertion.
* `readFirst_eq_ok_some`, `readRows_eq_ok`: what was read is what each row says.
  `readRows_of_unreadable`: reading stops at the first row that says nothing.
  `PropertyRow.property?_eq_some`: what the row of a property says.
-/

namespace PropertyBoard
namespace Store

section Insert

variable {s s' : Store}

theorem hasField_iff {id : String} : s.hasField id = true ↔ ∃ r ∈ s.fields, r.id = id := by
  simp [hasField]

theorem hasView_iff {id : String} : s.hasView id = true ↔ ∃ r ∈ s.views, r.id = id := by
  simp [hasView]

theorem insertField_eq_ok {r : FieldRow} :
    s.insertField r = .ok s' ↔
      s.hasField r.id = false ∧ { s with fields := s.fields ++ [r] } = s' := by
  unfold insertField
  cases s.hasField r.id <;> simp

theorem insertView_eq_ok {r : ViewRow} :
    s.insertView r = .ok s' ↔
      s.hasView r.id = false ∧ { s with views := s.views ++ [r] } = s' := by
  unfold insertView
  cases s.hasView r.id <;> simp

theorem insertMember_eq_ok {m : Member} :
    s.insertMember m = .ok s' ↔
      m ∉ s.members ∧ s.hasView m.viewId = true ∧
        { s with members := s.members ++ [m] } = s' := by
  unfold insertMember
  by_cases hm : m ∈ s.members
  · simp [hm]
  · cases hv : s.hasView m.viewId <;> simp [hm]

end Insert

section Read

variable {ρ α : Type} {context table : String} {id : ρ → String} {read : ρ → Option α} {rows : List ρ}

theorem readFirst_eq_ok_some {a : α} :
    readFirst context table id read rows = .ok (some a) ↔ ∃ r, rows.head? = some r ∧ read r = some a := by
  cases rows with
  | nil => simp [readFirst]
  | cons r rest =>
    cases h : read r with
    | none => simp [readFirst, h]
    | some a' => simp [readFirst, h]

theorem readFirst_eq_ok_none :
    readFirst context table id read rows = .ok none ↔ rows.head? = none := by
  cases rows with
  | nil => simp [readFirst]
  | cons r rest =>
    cases h : read r with
    | none => simp [readFirst, h]
    | some a => simp [readFirst, h]

theorem readRows_eq_ok {done as : List α} :
    readRows context table id read rows done = .ok as ↔
      ∃ news, rows.map read = news.map some ∧ as = done.reverse ++ news := by
  induction rows generalizing done with
  | nil =>
    constructor
    · intro h
      cases h
      exact ⟨[], rfl, by simp⟩
    · rintro ⟨news, hmap, rfl⟩
      cases news with
      | nil => simp [readRows]
      | cons a news => cases hmap
  | cons r rest ih =>
    cases h : read r with
    | none =>
      simp only [readRows, h, List.map_cons]
      constructor
      · intro h'
        cases h'
      · rintro ⟨news, hmap, _⟩
        cases news <;> simp at hmap
    | some a =>
      simp only [readRows, h, List.map_cons, ih, List.reverse_cons, List.append_assoc]
      constructor
      · rintro ⟨news, hmap, rfl⟩
        exact ⟨a :: news, by simp [hmap], rfl⟩
      · rintro ⟨news, hmap, rfl⟩
        cases news with
        | nil => simp at hmap
        | cons a' news =>
          simp only [List.map_cons, List.cons.injEq, Option.some.injEq] at hmap
          obtain ⟨rfl, hmap⟩ := hmap
          exact ⟨news, hmap, rfl⟩

/-- Reading stops at the first row that does not say anything. -/
theorem readRows_of_unreadable {front : List ρ} {r : ρ} (back : List ρ) {done : List α}
    (hfront : ∀ x ∈ front, ∃ a, read x = some a) (hr : read r = none) :
    readRows context table id read (front ++ r :: back) done =
      .error (.storage (.undecodableRow table (id r)) context) := by
  induction front generalizing done with
  | nil => simp [readRows, hr]
  | cons x front ih =>
    obtain ⟨⟨a, ha⟩, hfront⟩ := List.forall_mem_cons.1 hfront
    simp only [List.cons_append, readRows, ha]
    exact ih hfront

/-- Each of some rows says something, or there is a first one that does not. -/
theorem readable_or_not (read : ρ → Option α) (rows : List ρ) :
    (∃ as : List α, rows.map read = as.map some) ∨
      ∃ front r back, (∀ x ∈ front, ∃ a, read x = some a) ∧ read r = none ∧
        rows = front ++ r :: back := by
  induction rows with
  | nil => exact .inl ⟨[], rfl⟩
  | cons x rows ih =>
    cases hx : read x with
    | none => exact .inr ⟨[], x, rows, fun _ h => absurd h List.not_mem_nil, hx, rfl⟩
    | some a =>
      rcases ih with ⟨as, has⟩ | ⟨front, r, back, hfront, hr, rfl⟩
      · exact .inl ⟨a :: as, by simp [hx, has]⟩
      · exact .inr ⟨x :: front, r, back, List.forall_mem_cons.2 ⟨⟨a, hx⟩, hfront⟩, hr, rfl⟩

end Read

theorem PropertyRow.property?_eq_some {r : PropertyRow} {f : FieldRow} {p : Property} :
    r.property? f = some p ↔
      ∃ fieldType stored objectType fieldOptions,
        Named.ofName? f.type = some fieldType ∧ stored? Codec.texts r.value = some stored ∧
        Named.ofName? r.objectType = some objectType ∧
        stored? Codec.texts f.options = some fieldOptions ∧
        p = {
          id := r.id
          objectId := r.objectId
          objectType
          fieldId := r.fieldId
          fieldName := f.name
          fieldType
          fieldOptions
          value := .fromStored fieldType stored
          scope := r.scope } := by
  simp only [property?, Option.bind_eq_bind, Option.bind_eq_some_iff, Option.some.injEq,
    eq_comm (b := p)]
  constructor
  · rintro ⟨fieldType, htype, stored, hstored, objectType, hobject, options, hoptions, hp⟩
    exact ⟨fieldType, stored, objectType, options, htype, hstored, hobject, hoptions, hp⟩
  · rintro ⟨fieldType, stored, objectType, options, htype, hstored, hobject, hoptions, hp⟩
    exact ⟨fieldType, htype, stored, hstored, objectType, hobject, options, hoptions, hp⟩

end Store
end PropertyBoard
