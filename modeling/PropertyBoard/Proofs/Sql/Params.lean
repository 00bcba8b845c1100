import PropertyBoard.Sql.Statement

/-!
# PropertyBoard.Proofs.Sql.Params

The values that a statement carries.

* `Lookup.params_fragment`: a subquery carries the values of its comparisons.
* `Condition.params_whereClause`: the values of a list of conditions are those of the conditions.
* `Select.params_fragment`: a statement carries the values of its conditions and the two of its
  window; columns and orders carry none. `Select.params_of_condition`: so it carries at least those of
  any one condition.
* `Select.limitFault_of_params`: with too many values it is not run.
-/

namespace PropertyBoard
namespace Sql
namespace Fragment

@[simp] theorem params_nil : params [] = [] := rfl

@[simp] theorem params_words (s : String) (f : Fragment) : params (.words s :: f) = params f := rfl

@[simp] theorem params_hole (p : Param) (f : Fragment) :
    params (.hole p :: f) = p :: params f := rfl

@[simp] theorem params_ofWords (s : String) : (ofWords s).params = [] := rfl

attribute [simp] params_append

@[simp] theorem params_parenthesised (f : Fragment) : f.parenthesised.params = f.params := by
  simp [parenthesised]

@[simp] theorem params_following (separator : String) (fs : List Fragment) :
    (following separator fs).params = fs.flatMap params := by
  induction fs with
  | nil => rfl
  | cons f rest ih =>
    rw [following, List.flatMap_cons, params_append, ← following, ih]
    rfl

@[simp] theorem params_joined (separator : String) (fs : List Fragment) :
    (joined separator fs).params = fs.flatMap params := by
  cases fs with
  | nil => rfl
  | cons f rest => simp [joined]

@[simp] theorem params_holes (ps : List Param) : (holes ps).params = ps := by
  simp [holes, List.flatMap_map]

end Fragment

section Comparisons

variable {ρ : Type}

@[simp] theorem Comparison.params_equals (column : Column ρ) (value : Param) :
    (equals column value).fragment.params = [value] := rfl

theorem Comparison.params_isIn (column : Column ρ) {values : List Param} (h : values ≠ []) :
    (isIn column values).fragment.params = values := by
  simp [fragment, h]

/-- A subquery carries the values of its comparisons. -/
theorem Lookup.params_fragment (l : Lookup ρ) :
    l.fragment.params = l.comparisons.flatMap Fragment.params := by
  unfold fragment
  cases hc : l.comparisons <;> simp

@[simp] theorem Handwritten.params_like (column : Column ρ) (pattern : String) :
    (like column pattern).fragment.params = [.text pattern] := rfl

@[simp] theorem Handwritten.params_hasRow (l : Lookup ρ) :
    (hasRow l).fragment.params = l.comparisons.flatMap Fragment.params := by
  simp [fragment, Lookup.params_fragment]

@[simp] theorem Handwritten.params_not (c : Handwritten ρ) :
    (not c).fragment.params = c.fragment.params := rfl

@[simp] theorem Handwritten.params_both (a b : Handwritten ρ) :
    (both a b).fragment.params = a.fragment.params ++ b.fragment.params := by
  simp [fragment]

end Comparisons

namespace Condition

variable {ρ : Type}

@[simp] theorem params_operand (c : Condition ρ) (f : Fragment) :
    (c.operand f).params = f.params := by
  unfold operand
  split
  · rfl
  · exact Fragment.params_parenthesised f

theorem params_whereClause (cs : List (Condition ρ)) :
    (whereClause cs).params = cs.flatMap fun c => c.fragment.params := by
  match cs with
  | [] => rfl
  | [c] => simp [whereClause, conjunction]
  | c :: d :: rest => simp [whereClause, conjunction, List.flatMap_map]

end Condition

namespace Select

variable {ρ : Type}

/-- Words and orders carry no values. -/
theorem params_fragment (q : Select ρ) :
    q.fragment.params = (q.conditions.flatMap fun c => c.fragment.params) ++
      match q.window with
      | some w => [.nat64 w.limit, .nat64 w.offset]
      | none => [] := by
  have horder : Fragment.params (if q.order.isEmpty then []
      else .words " ORDER BY " :: Fragment.joined ", " (q.order.map SortBy.fragment)) = [] := by
    split
    · rfl
    · simp [List.flatMap_map, SortBy.fragment]
  rw [fragment, Fragment.params_append, Fragment.params_append, horder]
  cases q.window <;> simp [Condition.params_whereClause, Window.fragment]

/-- A statement carries at least the values of each of its conditions. -/
theorem params_of_condition {q : Select ρ} {c : Condition ρ} (h : c ∈ q.conditions) :
    c.fragment.params.length ≤ q.fragment.params.length := by
  have hle : c.fragment.params.length ≤
      (q.conditions.flatMap fun c => c.fragment.params).length := by
    rw [List.flatMap_def]
    have hmem := List.mem_map_of_mem (f := fun c : Condition ρ => c.fragment.params) h
    exact (List.sublist_flatten_of_mem hmem).length_le
  rw [params_fragment, List.length_append]
  omega

theorem limitFault_of_params {q : Select ρ} (h : maxParams < q.fragment.params.length) :
    ∃ e, q.limitFault = some e := by
  rw [limitFault, if_pos h]
  split
  · exact ⟨_, rfl⟩
  · exact ⟨_, rfl⟩

end Select
end Sql
end PropertyBoard
