import PropertyBoard.Sql.Statement

/-!
# PropertyBoard.Proofs.Sql.Order

The order in which a statement shows its rows.

* `Cell.order` is a total order (`TransCmp`, `LawfulEqCmp`), and sorting by columns is a total
  preorder (`le_trans`, `le_total`), so sorted rows are in order (`pairwise_sorted`).
* `dropRepeats` keeps one row of each cell: on sorted rows the cells that are left ascend strictly
  (`pairwise_dropRepeats`) and none is lost (`mem_cells_dropRepeats`). `Select.found_ascending` is
  what this means for a statement.
* `Select.found_sorted`: rows sorted by one column ascend. `Select.found_strict`: rows sorted by one
  column and then by a key are in strict order.
-/

namespace PropertyBoard
namespace Sql
namespace Cell

instance : Std.OrientedCmp order where
  eq_swap {a b} := by
    cases a <;> cases b <;> simp only [order, Ordering.swap_eq, Ordering.swap_lt, Ordering.swap_gt]
    · exact Std.OrientedCmp.eq_swap
    · exact Std.OrientedCmp.eq_swap

instance : Std.TransCmp order where
  isLE_trans {a b c} hab hbc := by
    cases a <;> cases b <;> cases c <;>
      first
      | rfl
      | exact absurd hab Bool.false_ne_true
      | exact absurd hbc Bool.false_ne_true
      | exact @Std.TransCmp.isLE_trans _ compare _ _ _ _ hab hbc

instance : Std.LawfulEqCmp order where
  compare_self {a} := by
    cases a <;> simp [order]
  eq_of_compare {a b} h := by
    cases a <;> cases b <;> simp_all [order]

end Cell

namespace SortBy

variable {ρ : Type}

theorem order_swap (s : SortBy ρ) (a b : ρ) : s.order a b = (s.order b a).swap := by
  unfold order
  simp only
  split
  · rw [@Std.OrientedCmp.eq_swap _ Cell.order]
  · rw [@Std.OrientedCmp.eq_swap _ Cell.order]

theorem order_lt_trans {s : SortBy ρ} {a b c : ρ} (hab : s.order a b = .lt)
    (hbc : s.order b c = .lt) : s.order a c = .lt := by
  unfold order at *
  cases hd : s.descending with
  | false =>
    simp only [hd, Bool.false_eq_true, if_false] at hab hbc ⊢
    exact Std.TransCmp.lt_trans hab hbc
  | true =>
    simp only [hd, if_true, Ordering.swap_eq_lt] at hab hbc ⊢
    exact Std.TransCmp.gt_trans hab hbc

theorem order_eq_iff {s : SortBy ρ} {a b : ρ} :
    s.order a b = .eq ↔ s.column.cell a = s.column.cell b := by
  unfold order
  cases s.descending <;> simp

theorem le_total (ss : List (SortBy ρ)) (a b : ρ) : (le ss a b || le ss b a) = true := by
  induction ss with
  | nil => rfl
  | cons s ss ih =>
    simp only [le, order_swap s b a]
    cases s.order a b with
    | lt => rfl
    | gt => rfl
    | eq => exact ih

theorem le_trans (ss : List (SortBy ρ)) (a b c : ρ) (hab : le ss a b = true)
    (hbc : le ss b c = true) : le ss a c = true := by
  induction ss with
  | nil => rfl
  | cons s ss ih =>
    simp only [le] at hab hbc ⊢
    cases h₁ : s.order a b with
    | gt => simp [h₁] at hab
    | lt =>
      cases h₂ : s.order b c with
      | gt => simp [h₂] at hbc
      | lt => rw [order_lt_trans h₁ h₂]
      | eq =>
        have hcell := order_eq_iff.1 h₂
        have : s.order a c = .lt := by
          unfold order at h₁ ⊢
          rw [← hcell]
          exact h₁
        rw [this]
    | eq =>
      have hcell := order_eq_iff.1 h₁
      have hac : s.order a c = s.order b c := by
        unfold order
        rw [hcell]
      rw [hac]
      cases h₂ : s.order b c with
      | gt => simp [h₂] at hbc
      | lt => rfl
      | eq =>
        rw [h₁] at hab
        rw [h₂] at hbc
        exact ih hab hbc

theorem pairwise_sorted (ss : List (SortBy ρ)) (rows : List ρ) :
    (rows.mergeSort (le ss)).Pairwise fun a b => le ss a b = true :=
  List.pairwise_mergeSort (le_trans ss) (le_total ss) rows

/-- Where two columns sort, the second one counts among rows that agree in the first. -/
theorem le_pair {s t : SortBy ρ} {a b : ρ} (h : le [s, t] a b = true) :
    s.order a b = .lt ∨ s.order a b = .eq ∧ t.order a b ≠ .gt := by
  simp only [le] at h
  cases hs : s.order a b with
  | lt => exact .inl rfl
  | gt => simp [hs] at h
  | eq =>
    refine .inr ⟨rfl, ?_⟩
    intro ht
    simp [hs, ht] at h

/-- Rows that nothing orders stay as they are. -/
theorem mergeSort_nil_order (rows : List ρ) : rows.mergeSort (le []) = rows := by
  refine List.mergeSort_of_pairwise (List.pairwise_of_forall ?_)
  intro a b
  rfl

end SortBy

namespace Select

variable {ρ : Type}

theorem mem_of_mem_dropRepeats {column : Column ρ} {rows : List ρ} {r : ρ} :
    ∀ {last : Option Cell}, r ∈ dropRepeats column last rows → r ∈ rows := by
  induction rows with
  | nil => simp [dropRepeats]
  | cons r' rest ih =>
    intro last h
    simp only [dropRepeats] at h
    split at h
    · exact List.mem_cons_of_mem _ (ih h)
    · rcases List.mem_cons.1 h with rfl | h
      · exact List.mem_cons_self
      · exact List.mem_cons_of_mem _ (ih h)

/-- No cell is lost, but for the one that was shown last. -/
theorem mem_cells_dropRepeats {column : Column ρ} {rows : List ρ} {r : ρ} :
    ∀ last : Option Cell, r ∈ rows → last = some (column.cell r) ∨
      ∃ r' ∈ dropRepeats column last rows, column.cell r' = column.cell r := by
  induction rows with
  | nil => simp
  | cons r₀ rest ih =>
    intro last h
    simp only [dropRepeats]
    by_cases hl : last = some (column.cell r₀)
    · rw [if_pos hl]
      rcases List.mem_cons.1 h with rfl | h
      · exact .inl hl
      · exact ih last h
    · rw [if_neg hl]
      rcases List.mem_cons.1 h with rfl | h
      · exact .inr ⟨r, List.mem_cons_self, rfl⟩
      · rcases ih (some (column.cell r₀)) h with heq | ⟨r', hr', heq⟩
        · exact .inr ⟨r₀, List.mem_cons_self, Option.some.inj heq⟩
        · exact .inr ⟨r', List.mem_cons_of_mem _ hr', heq⟩

/-- The cells of sorted rows without repetitions ascend strictly, and so from the cell that was
shown last. -/
theorem pairwise_dropRepeats {column : Column ρ} {rows : List ρ}
    (h : rows.Pairwise fun a b => ((column.cell a).order (column.cell b)).isLE = true) :
    ∀ last : Option Cell,
      (∀ c, last = some c → ∀ r ∈ rows, (c.order (column.cell r)).isLE = true) →
      (∀ c, last = some c → ∀ r ∈ dropRepeats column last rows, c.order (column.cell r) = .lt) ∧
        (dropRepeats column last rows).Pairwise
          fun a b => (column.cell a).order (column.cell b) = .lt := by
  induction rows with
  | nil => simp [dropRepeats]
  | cons r rest ih =>
    obtain ⟨hr, hrest⟩ := List.pairwise_cons.1 h
    intro last hlast
    simp only [dropRepeats]
    by_cases hl : last = some (column.cell r)
    · rw [if_pos hl]
      exact ih hrest last fun c hc x hx => hlast c hc x (List.mem_cons_of_mem _ hx)
    · rw [if_neg hl]
      obtain ⟨hlt, hpair⟩ := ih hrest (some (column.cell r)) (by
        intro c hc x hx
        cases hc
        exact hr x hx)
      refine ⟨?_, List.pairwise_cons.2 ⟨hlt _ rfl, hpair⟩⟩
      intro c hc x hx
      have hcr : c.order (column.cell r) = .lt := by
        have hle := hlast c hc r List.mem_cons_self
        cases ho : c.order (column.cell r) with
        | lt => rfl
        | gt => simp [ho] at hle
        | eq =>
          have := Std.LawfulEqCmp.compare_eq_iff_eq.1 ho
          exact absurd (by rw [hc, this]) hl
      rcases List.mem_cons.1 hx with rfl | hx
      · exact hcr
      · exact Std.TransCmp.lt_trans hcr (hlt _ rfl x hx)

theorem compare_eq_lt {s t : String} : compare s t = .lt ↔ s < t := by
  show compareOfLessAndEq s t = .lt ↔ s < t
  exact compareOfLessAndEq_eq_lt

theorem compare_int64_eq_lt {m n : Int64} : compare m n = .lt ↔ m < n := by
  show compareOfLessAndEq m n = .lt ↔ m < n
  exact compareOfLessAndEq_eq_lt

theorem found_perm {q : Select ρ} (h : q.distinct = none) (rows : List ρ) :
    (q.found rows).Perm (rows.filter fun r => Condition.allHold q.conditions r) := by
  simp only [found, h]
  exact List.mergeSort_perm _ _

/-- Rows that one column of texts sorts, each of them shown. -/
theorem found_sorted {q : Select ρ} {column : Column ρ} (get : ρ → String)
    (hcell : ∀ r, column.cell r = .text (get r)) (hdistinct : q.distinct = none)
    (horder : q.order = [{ column }]) (rows : List ρ) :
    (q.found rows).Pairwise fun a b => get a ≤ get b := by
  have hsorted : (q.found rows).Pairwise fun a b => SortBy.le [{ column }] a b = true := by
    simp only [found, hdistinct, horder]
    exact SortBy.pairwise_sorted _ _
  refine hsorted.imp ?_
  intro a b hle hlt
  have hgt : SortBy.order { column } a b = .gt := by
    rw [SortBy.order_swap, Ordering.swap_eq_gt]
    show (column.cell b).order (column.cell a) = .lt
    rw [hcell, hcell]
    exact compare_eq_lt.2 hlt
  simp [SortBy.le, hgt] at hle

/-- Rows that two columns sort, the second of which holds no text twice, are in strict order. -/
theorem found_strict {q : Select ρ} {s t : SortBy ρ} (get : ρ → String)
    (hcell : ∀ r, t.column.cell r = .text (get r)) (hdistinct : q.distinct = none)
    (horder : q.order = [s, t]) {rows : List ρ} (hkey : (rows.map get).Nodup) :
    (q.found rows).Pairwise fun a b =>
      s.order a b = .lt ∨ s.order a b = .eq ∧ t.order a b = .lt := by
  have hsorted : (q.found rows).Pairwise fun a b => SortBy.le [s, t] a b = true := by
    simp only [found, hdistinct, horder]
    exact SortBy.pairwise_sorted _ _
  have hnodup : ((q.found rows).map get).Nodup := by
    rw [((found_perm hdistinct rows).map _).nodup_iff]
    exact hkey.sublist (List.filter_sublist.map _)
  refine (hsorted.and (List.pairwise_map.1 hnodup)).imp ?_
  rintro a b ⟨hle, hne⟩
  refine (SortBy.le_pair hle).imp_right ?_
  rintro ⟨heq, hgt⟩
  refine ⟨heq, ?_⟩
  cases ht : t.order a b with
  | lt => rfl
  | gt => exact absurd ht hgt
  | eq =>
    have heq := SortBy.order_eq_iff.1 ht
    rw [hcell, hcell] at heq
    exact absurd (Cell.text.inj heq) hne

/-- Ascending texts are told by which they are. -/
theorem ascending_ext {ts us : List String} (ht : ts.Pairwise (· < ·)) (hu : us.Pairwise (· < ·))
    (h : ∀ t, t ∈ ts ↔ t ∈ us) : ts = us := by
  have hnodup {texts : List String} (h : texts.Pairwise (· < ·)) : texts.Nodup :=
    h.imp fun {a b} (hlt : a < b) (heq : a = b) => String.lt_irrefl b (heq ▸ hlt)
  refine ((List.perm_ext_iff_of_nodup (hnodup ht) (hnodup hu)).2 h).eq_of_pairwise ?_ ht hu
  intro a b _ _ hab hba
  exact absurd hba (String.lt_asymm hab)

/-- A statement that shows each text of a column once, in order: the texts ascend strictly, and they
are those of the rows that meet the conditions. -/
theorem found_ascending {q : Select ρ} {column : Column ρ} (get : ρ → String)
    (hcell : ∀ r, column.cell r = .text (get r)) (hdistinct : q.distinct = some column)
    (horder : q.order = [{ column }]) (rows : List ρ) :
    ((q.found rows).map get).Pairwise (· < ·) ∧
      ∀ t, t ∈ (q.found rows).map get ↔
        ∃ r ∈ rows, Condition.allHold q.conditions r = true ∧ get r = t := by
  have hfound : q.found rows = dropRepeats column none
      ((rows.filter fun r => Condition.allHold q.conditions r).mergeSort
        (SortBy.le [{ column }])) := by
    simp only [found, hdistinct, horder]
  have hmem : ∀ r, r ∈ (rows.filter fun r => Condition.allHold q.conditions r).mergeSort
      (SortBy.le [{ column }]) ↔ r ∈ rows ∧ Condition.allHold q.conditions r = true := by
    intro r
    rw [(List.mergeSort_perm _ _).mem_iff, List.mem_filter]
  have hsorted : ((rows.filter fun r => Condition.allHold q.conditions r).mergeSort
      (SortBy.le [{ column }])).Pairwise
        fun a b => ((column.cell a).order (column.cell b)).isLE = true := by
    refine (SortBy.pairwise_sorted _ _).imp ?_
    intro a b h
    simp only [SortBy.le, SortBy.order, Bool.false_eq_true, if_false] at h
    cases ho : (column.cell a).order (column.cell b) <;> simp_all
  rw [hfound]
  constructor
  · obtain ⟨_, hpair⟩ := pairwise_dropRepeats hsorted none (by simp)
    refine List.pairwise_map.2 (hpair.imp ?_)
    intro a b h
    rw [hcell, hcell] at h
    exact compare_eq_lt.1 h
  · intro t
    rw [List.mem_map]
    constructor
    · rintro ⟨r, hr, rfl⟩
      obtain ⟨hrow, hall⟩ := (hmem r).1 (mem_of_mem_dropRepeats hr)
      exact ⟨r, hrow, hall, rfl⟩
    · rintro ⟨r, hrow, hall, rfl⟩
      obtain hnone | ⟨r', hr', heq⟩ :=
        mem_cells_dropRepeats none ((hmem r).2 ⟨hrow, hall⟩)
      · cases hnone
      · rw [hcell, hcell] at heq
        exact ⟨r', hr', Cell.text.inj heq⟩

end Select
end Sql
end PropertyBoard
