import PropertyBoard.Proofs.Listing
import PropertyBoard.Proofs.Views

/-!
# PropertyBoard.Proofs.Lookup

Looking things up, where all rows can be read.

* `Store.readFirst_of_key`, `Store.readRows_of_reads`: reading rows does not fail then.
* `Fields.find_cases`, `Properties.find_cases`, `Views.find_cases`: what is there is found, and what
  is not there is not. `Fields.get_cases`, `Properties.get_cases`, `Views.get_cases`: so a call for it
  can only fail because it is not there, and says so.
-/

namespace PropertyBoard

open Store

variable {s : Store}

namespace Store

variable {ρ α : Type} {read : ρ → Option α} {rows : List ρ}

/-- The first row of a key is read, unless there is none. -/
theorem readFirst_of_key (context table : String) (id key : ρ → String) (k : String)
    (h : ∀ r ∈ rows, ∃ a, read r = some a) :
    (∃ r ∈ rows, key r = k) ∧
        (∃ a, readFirst context table id read (rows.filter fun r => key r = k) = .ok (some a)) ∨
      (∀ r ∈ rows, key r ≠ k) ∧
        readFirst context table id read (rows.filter fun r => key r = k) = .ok none := by
  cases hfilter : rows.filter fun r => key r = k with
  | nil =>
    refine .inr ⟨?_, rfl⟩
    simpa [List.filter_eq_nil_iff] using hfilter
  | cons r rest =>
    have hr : r ∈ rows.filter fun r => key r = k := hfilter ▸ List.mem_cons_self
    obtain ⟨hmem, hkey⟩ := List.mem_filter.1 hr
    obtain ⟨a, ha⟩ := h r hmem
    exact .inl ⟨⟨r, hmem, of_decide_eq_true hkey⟩, a, by simp [readFirst, ha]⟩

theorem readRows_of_reads (context table : String) (id : ρ → String)
    (h : ∀ r ∈ rows, ∃ a, read r = some a) :
    ∃ as : List α, readRows context table id read rows [] = .ok as ∧ rows.map read = as.map some := by
  obtain ⟨as, has⟩ := exists_map_some h
  exact ⟨as, readRows_eq_ok.2 ⟨as, has, rfl⟩, has⟩

/-- What is read is what some row says. -/
theorem mem_iff_of_reads {as : List α} (h : rows.map read = as.map some) {a : α} :
    a ∈ as ↔ ∃ r ∈ rows, read r = some a := by
  have hmem : some a ∈ rows.map read ↔ some a ∈ as.map some := by
    rw [h]
  simpa using hmem.symm

/-- What is read stands in the order of the rows. -/
theorem pairwise_of_reads {R : ρ → ρ → Prop} {S : α → α → Prop} {as : List α}
    (h : rows.map read = as.map some) (hrows : rows.Pairwise R)
    (hread : ∀ r r' a a', R r r' → read r = some a → read r' = some a' → S a a') :
    as.Pairwise S := by
  have hpairs : (rows.map read).Pairwise fun x y => ∀ a a', x = some a → y = some a' → S a a' := by
    refine List.pairwise_map.2 (hrows.imp ?_)
    intro r r' hr a a' ha ha'
    exact hread r r' a a' hr ha ha'
  rw [h] at hpairs
  exact (List.pairwise_map.1 hpairs).imp fun h => h _ _ rfl rfl

end Store

namespace Fields

theorem find_cases (hw : s.Written) (id : String) :
    s.hasField id = true ∧ (∃ f, find s id = .ok (some f)) ∨
      s.hasField id = false ∧ find s id = .ok none := by
  have hkey := readFirst_of_key ("get property_field " ++ id) FieldRow.table FieldRow.id FieldRow.id id
    fun r hr => (hw.fields r hr).reads
  simpa [find, query, Refusal.ofStorage, bind, Except.bind, hasField] using hkey

theorem get_of_missing {id : String} (h : find s id = .ok none) :
    get s id = .error (.notFound .field id) :=
  Except.found_of_none rfl h

theorem get_cases (hw : s.Written) (id : String) :
    s.hasField id = true ∧ (∃ f, get s id = .ok f) ∨
      s.hasField id = false ∧ get s id = .error (.notFound .field id) := by
  refine (find_cases hw id).imp ?_ ?_
  · rintro ⟨hfield, f, hf⟩
    exact ⟨hfield, f, get_eq_ok.2 hf⟩
  · rintro ⟨hfield, hnone⟩
    exact ⟨hfield, get_of_missing hnone⟩

end Fields

namespace Properties

theorem find_cases (hk : s.Keyed) (hw : s.Written) (id : String) :
    (∃ r ∈ s.properties, r.id = id) ∧ (∃ p, find s id = .ok (some p)) ∨
      (∀ r ∈ s.properties, r.id ≠ id) ∧ find s id = .ok none := by
  have hreads : ∀ r ∈ s.joined, ∃ p, readJoined r = some p := by
    intro r hr
    rw [shown_of_mem_joined hk hr]
    exact hw.shown_eq_some hk (mem_joined.1 hr).1
  have hkey := readFirst_of_key ("get property " ++ id) PropertyRow.table joinedId (fun r => r.1.id) id hreads
  -- Each property is beside its field, and nothing else is.
  have hrows : ∀ P : PropertyRow → Prop, (∃ r ∈ s.joined, P r.1) ↔ ∃ r ∈ s.properties, P r := by
    intro P
    rw [← map_fst_joined hk]
    simp
  rw [hrows fun r => r.id = id] at hkey
  refine hkey.imp ?_ ?_
  · rintro ⟨hrow, hfound⟩
    refine ⟨hrow, ?_⟩
    simpa [find, query, Refusal.ofStorage, bind, Except.bind] using hfound
  · rintro ⟨hne, hnone⟩
    refine ⟨?_, by simpa [find, query, Refusal.ofStorage, bind, Except.bind] using hnone⟩
    intro r hr hid
    obtain ⟨x, hx, hxid⟩ := (hrows fun r => r.id = id).2 ⟨r, hr, hid⟩
    exact hne x hx hxid

theorem get_of_missing {id : String} (h : find s id = .ok none) :
    get s id = .error (.notFound .property id) :=
  Except.found_of_none rfl h

theorem get_cases (hk : s.Keyed) (hw : s.Written) (id : String) :
    (∃ r ∈ s.properties, r.id = id) ∧ (∃ p, get s id = .ok p) ∨
      (∀ r ∈ s.properties, r.id ≠ id) ∧ get s id = .error (.notFound .property id) := by
  refine (find_cases hk hw id).imp ?_ ?_
  · rintro ⟨hrow, p, hp⟩
    exact ⟨hrow, p, get_eq_ok.2 hp⟩
  · rintro ⟨hrow, hnone⟩
    exact ⟨hrow, get_of_missing hnone⟩

end Properties

namespace Views

/-- Identifiers are distinct, so a view is what its row says. -/
theorem get_of_row (hk : s.Keyed) {row : ViewRow} (hrow : row ∈ s.views) {v : View}
    (hv : row.view? = some v) : get s row.id = .ok v := by
  exact get_eq_ok.2 (find_eq_ok_some.2 ⟨row, find?_key_eq hk.views hrow, hv⟩)

theorem row_of_get {id : String} {v : View} (h : get s id = .ok v) :
    ∃ row ∈ s.views, row.id = id ∧ row.view? = some v := by
  obtain ⟨row, hrow, hv⟩ := find_eq_ok_some.1 (get_eq_ok.1 h)
  exact ⟨row, List.mem_of_find?_eq_some hrow, by simpa using List.find?_some hrow, hv⟩

theorem find_cases (hsound : ∀ r ∈ s.views, r.Sound) (id : String) :
    s.hasView id = true ∧ (∃ v, find s id = .ok (some v)) ∨
      s.hasView id = false ∧ find s id = .ok none := by
  have hreads : ∀ r ∈ s.views, ∃ v, r.view? = some v := by
    intro r hr
    obtain ⟨v, hv, _⟩ := hsound r hr
    exact ⟨v, hv⟩
  have hkey := readFirst_of_key ("get view " ++ id) ViewRow.table ViewRow.id ViewRow.id id hreads
  simpa [find, query, Refusal.ofStorage, bind, Except.bind, hasView] using hkey

theorem get_of_missing {id : String} (h : find s id = .ok none) :
    get s id = .error (.notFound .view id) :=
  Except.found_of_none rfl h

theorem get_cases (hsound : ∀ r ∈ s.views, r.Sound) (id : String) :
    s.hasView id = true ∧ (∃ v, get s id = .ok v) ∨
      s.hasView id = false ∧ get s id = .error (.notFound .view id) := by
  refine (find_cases hsound id).imp ?_ ?_
  · rintro ⟨hview, v, hv⟩
    exact ⟨hview, v, get_eq_ok.2 hv⟩
  · rintro ⟨hview, hnone⟩
    exact ⟨hview, get_of_missing hnone⟩

end Views
end PropertyBoard
