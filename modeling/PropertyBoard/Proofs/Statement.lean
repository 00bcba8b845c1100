import Mathlib.Algebra.Group.Nat.Defs
import PropertyBoard.Proofs.Sql.Order
import PropertyBoard.Statement.Fields
import PropertyBoard.Statement.Platform
import PropertyBoard.Statement.Properties
import PropertyBoard.Statement.Views

/-!
# PropertyBoard.Proofs.Statement

What the statements of the board do to the rows of a table, without conditions and fragments.

* `Select.on_of_open`: a statement without a window that no limit stops shows all rows it finds.
  `Select.on_of_window`: a statement with a window. `Window.apply_page_exact`: the window of a page.
* For each statement that looks up rows by a key, the rows of that key.
* For each update and deletion, the rows afterwards and how many there were. `stamped` and
  `withValue` are the rows with another scope and with another value.
-/

namespace PropertyBoard
namespace Sql

section Conditions

variable {ρ σ : Type}

@[simp] theorem Condition.allHold_nil (r : ρ) : Condition.allHold [] r = true := rfl

@[simp] theorem Condition.allHold_cons (c : Condition ρ) (cs : List (Condition ρ)) (r : ρ) :
    Condition.allHold (c :: cs) r = (c.holds r && Condition.allHold cs r) := rfl

@[simp] theorem Condition.allHold_append (cs ds : List (Condition ρ)) (r : ρ) :
    Condition.allHold (cs ++ ds) r = (Condition.allHold cs r && Condition.allHold ds r) := by
  simp [Condition.allHold]

theorem Cell.equals_text (a b : String) : (Cell.text a).equals (.text b) = decide (a = b) := by
  simp [Cell.equals]

theorem Cell.differs_text (a b : String) : (Cell.text a).differs (.text b) = decide (a ≠ b) := by
  simp [Cell.differs]

theorem Comparison.holds_isIn {column : Column ρ} {r : ρ} {s : String}
    (h : column.cell r = .text s) (vs : List String) :
    (Comparison.isIn column (vs.map .text)).holds r = vs.contains s := by
  have hvalue (v : String) : (column.cell r).equals (Param.text v).cell = decide (s = v) := by
    rw [h]
    exact Cell.equals_text s v
  rw [Comparison.holds, List.any_map, List.contains_eq_any_beq]
  exact List.any_congr rfl hvalue

/-- A subquery on rows that can all be read has a row if one of them meets the comparisons. -/
theorem Condition.holds_hasRow {relation : Relation ρ σ} {comparisons : List (Comparison (ρ × σ))}
    {r : ρ} {rows : List σ} (hrows : relation.rows r = rows.map fun s => some s) :
    (Condition.hasRow (.among relation comparisons .here)).holds r = true ↔
      ∃ s ∈ rows, Comparison.allHold comparisons (r, s) = true := by
  rw [Condition.holds, Lookup.found?_among hrows fun _ _ => rfl, Option.getD_some, List.any_eq_true]
  simp only [Bool.and_true]

@[simp] theorem Condition.holds_equals_text (name : String) (get : ρ → String) (v : String)
    (r : ρ) : (Condition.equals (.text name get) (.text v)).holds r = decide (get r = v) :=
  Cell.equals_text (get r) v

@[simp] theorem Condition.holds_differs_text (name : String) (get : ρ → String) (v : String)
    (r : ρ) : (Condition.differs (.text name get) (.text v)).holds r = decide (get r ≠ v) :=
  Cell.differs_text (get r) v

@[simp] theorem Condition.holds_either (a b : Condition ρ) (r : ρ) :
    (Condition.either a b).holds r = (a.holds r || b.holds r) := rfl

@[simp] theorem Condition.holds_equals_within (table name : String) (part : σ → ρ)
    (get : ρ → String) (v : String) (r : σ) :
    (Condition.equals ((Column.text name get).within table part) (.text v)).holds r =
      decide (get (part r) = v) :=
  Cell.equals_text (get (part r)) v

end Conditions

/-! ## Windows -/

namespace Window

variable {α β : Type}

theorem map_apply (f : α → β) (w : PropertyBoard.Window) (rows : List α) :
    (apply w rows).map f = apply w (rows.map f) := by
  simp [apply, List.map_take, List.map_drop]

/-- The window of a page, whose size is a signed number already. -/
theorem apply_page (p : Page) (rows : List α) :
    apply p.window rows =
      (rows.drop (min (p.number.toInt.toNat * p.size.toInt.toNat) maxInt64.toNat)).take
        p.size.toInt.toNat := by
  have hsize : p.size.toInt < 2 ^ 63 := p.size.toInt_lt
  have hoffset : clamp p.window.offset =
      min (p.number.toInt.toNat * p.size.toInt.toNat) maxInt64.toNat := by
    rw [clamp, Page.toNat_offset, Nat.min_assoc]
    rfl
  have hlimit : clamp p.window.limit = p.size.toInt.toNat := by
    rw [clamp, Page.toNat_limit]
    have hmax : maxInt64.toNat = 2 ^ 63 - 1 := by decide
    omega
  rw [apply, hoffset, hlimit]

/-- Where there are fewer rows than a signed number can count, nothing is cut. -/
theorem apply_page_exact (p : Page) {rows : List α} (h : rows.length < 2 ^ 63) :
    apply p.window rows =
      (rows.drop (p.number.toInt.toNat * p.size.toInt.toNat)).take p.size.toInt.toNat := by
  have hmax : maxInt64.toNat = 2 ^ 63 - 1 := by decide
  rw [apply_page]
  by_cases hle : p.number.toInt.toNat * p.size.toInt.toNat ≤ maxInt64.toNat
  · rw [Nat.min_eq_left hle]
  · rw [Nat.min_eq_right (by omega), List.drop_eq_nil_of_le (by omega),
      List.drop_eq_nil_of_le (by omega)]

end Window

namespace Select

variable {ρ : Type}

theorem on_of_open {q : Select ρ} {rows : List ρ} (hdepth : q.depth ≤ maxConditionDepth)
    (hparams : q.fragment.params.length ≤ maxParams) (hwindow : q.window = none)
    (hfault : ∀ r, q.fault r = none) : q.on rows = .ok (q.found rows) := by
  have hlimit : q.limitFault = none := by
    unfold limitFault
    rw [if_neg (by omega), if_neg (by omega)]
  have hnone : rows.findSome? q.fault = none := by
    rw [List.findSome?_eq_none_iff]
    intro r _
    exact hfault r
  simp [on, hlimit, showsNothing, hwindow, hnone]

/-- A statement with a window that finds nothing it cannot test shows what is in the window. -/
theorem on_of_window {q : Select ρ} {w : Window} {rows : List ρ} (hwindow : q.window = some w)
    (hfault : ∀ r ∈ rows, q.fault r = none) :
    q.on rows =
      match q.limitFault with
      | some e => .error e
      | none => .ok (Window.apply w (q.found rows)) := by
  have hnone : rows.findSome? q.fault = none := List.findSome?_eq_none_iff.2 hfault
  unfold on
  cases q.limitFault with
  | some e => rfl
  | none =>
    simp only [hnone, hwindow, showsNothing, decide_eq_true_eq]
    split
    · rename_i hlimit
      simp [Window.apply, Window.clamp, hlimit]
    · rfl

/-- What a statement shows are rows that it finds, in the same order. -/
theorem sublist_found_of_on {q : Select ρ} {rows shown : List ρ} (h : q.on rows = .ok shown) :
    shown.Sublist (q.found rows) := by
  unfold on at h
  cases hlimit : q.limitFault with
  | some e =>
    rw [hlimit] at h
    cases h
  | none =>
    simp only [hlimit] at h
    split at h
    · cases h
      exact List.nil_sublist _
    · split at h
      · cases h
      · split at h
        · cases h
          exact (List.take_sublist _ _).trans (List.drop_sublist _ _)
        · cases h
          exact List.Sublist.refl _

/-- A statement without a window and without an order shows the rows that it asks for as they
stand. -/
theorem on_of_unordered {q : Select ρ} {rows : List ρ} (hdepth : q.depth ≤ maxConditionDepth)
    (hparams : q.fragment.params.length ≤ maxParams) (hwindow : q.window = none)
    (hfault : ∀ r, q.fault r = none) (hdistinct : q.distinct = none) (horder : q.order = []) :
    q.on rows = .ok (rows.filter fun r => Condition.allHold q.conditions r) := by
  have hfound : q.found rows = rows.filter fun r => Condition.allHold q.conditions r := by
    simp [found, hdistinct, horder, SortBy.mergeSort_nil_order]
  rw [on_of_open hdepth hparams hwindow hfault, hfound]

end Select

section Effects

variable {ρ : Type}

theorem Count.on_eq (q : Count ρ) (rows : List ρ) :
    q.on rows = rows.countP fun r => Condition.allHold q.conditions r := rfl

theorem Update.on_eq (q : Update ρ) (rows : List ρ) :
    q.on rows = (rows.map fun r => if Condition.allHold q.conditions r then q.change r else r,
      rows.countP fun r => Condition.allHold q.conditions r) := rfl

theorem Delete.on_eq (q : Delete ρ) (rows : List ρ) :
    q.on rows = (rows.filter fun r => !Condition.allHold q.conditions r,
      rows.countP fun r => Condition.allHold q.conditions r) := rfl

end Effects
end Sql

namespace Statement

open Sql Store

@[simp] theorem Fields.holds_nameCondition (pattern : String) (r : FieldRow) :
    (Fields.nameCondition pattern).holds r =
      Like.isLike (Text.Lowercase.ascii r.name) pattern := rfl

/-! ## Rows of a key -/

section Keys

variable (id : String)

@[simp] theorem Fields.on_byId (rows : List FieldRow) :
    (Fields.byId id).on rows = .ok (rows.filter fun r => r.id = id) := by
  rw [Select.on_of_unordered (Nat.zero_le _) (Nat.le_of_ble_eq_true rfl) rfl (fun _ => rfl) rfl rfl]
  simp [Fields.byId, FieldRow.idColumn]

@[simp] theorem Properties.on_byId (rows : List Properties.Joined) :
    (Properties.byId id).on rows = .ok (rows.filter fun r => r.1.id = id) := by
  rw [Select.on_of_unordered (Nat.zero_le _) (Nat.le_of_ble_eq_true rfl) rfl (fun _ => rfl) rfl rfl]
  simp [Properties.byId, Properties.own, PropertyRow.idColumn]

@[simp] theorem Views.on_byId (rows : List ViewRow) :
    (Views.byId id).on rows = .ok (rows.filter fun r => r.id = id) := by
  rw [Select.on_of_unordered (Nat.zero_le _) (Nat.le_of_ble_eq_true rfl) rfl (fun _ => rfl) rfl rfl]
  simp [Views.byId, Views.own, ViewRow.idColumn]

@[simp] theorem Posts.on_byId (rows : List Post) :
    (Posts.byId id).on rows = .ok (rows.filter fun p => p.id = id) := by
  rw [Select.on_of_unordered (Nat.zero_le _) (Nat.le_of_ble_eq_true rfl) rfl (fun _ => rfl) rfl rfl]
  simp [Posts.byId, PostRow.idColumn]

@[simp] theorem Channels.on_byId (rows : List ChannelRow) :
    (Channels.byId id).on rows = .ok (rows.filter fun r => r.id = id) := by
  rw [Select.on_of_unordered (Nat.zero_le _) (Nat.le_of_ble_eq_true rfl) rfl (fun _ => rfl) rfl rfl]
  simp [Channels.byId, ChannelRow.idColumn]

end Keys

/-- The properties of a field, ascending by their identifiers. -/
theorem Properties.on_valuesOfField (fieldId : String) (rows : List PropertyRow) :
    ∃ found, (Properties.valuesOfField fieldId).on rows = .ok found ∧
      found.Perm (rows.filter fun r => r.fieldId = fieldId) ∧
      found.Pairwise fun a b => a.id ≤ b.id := by
  refine ⟨_, Select.on_of_open (Nat.zero_le _) (Nat.le_of_ble_eq_true rfl) rfl
    (fun _ => rfl), ?_, Select.found_sorted PropertyRow.id (fun _ => rfl) rfl rfl rows⟩
  refine (List.mergeSort_perm _ _).trans (.of_eq (List.filter_congr ?_))
  intro r _
  simp [Properties.valuesOfField, PropertyRow.fieldColumn]

/-- The properties of an object beside their fields, in whatever order. -/
theorem Properties.on_ofObject (objectId : String) (rows : List Properties.Joined) :
    ∃ found, (Properties.ofObject objectId).on rows = .ok found ∧
      found.Perm (rows.filter fun r => r.1.objectId = objectId) := by
  refine ⟨_, Select.on_of_open (Nat.zero_le _) (Nat.le_of_ble_eq_true rfl) rfl
    (fun _ => rfl), ?_⟩
  refine (List.mergeSort_perm _ _).trans (.of_eq (List.filter_congr ?_))
  intro r _
  simp [Properties.ofObject, Properties.own, PropertyRow.objectColumn]

@[simp] theorem Properties.on_countOf (objectId fieldId : String) (rows : List PropertyRow) :
    (Properties.countOf objectId fieldId).on rows =
      rows.countP fun r => r.objectId = objectId && r.fieldId = fieldId := by
  simp [Properties.countOf, Count.on_eq, PropertyRow.objectColumn, PropertyRow.fieldColumn]

@[simp] theorem Members.on_countOf (viewId userId : String) (rows : List Member) :
    (Members.countOf viewId userId).on rows =
      rows.countP fun m => m.viewId = viewId && m.userId = userId := by
  simp [Members.countOf, Count.on_eq, MemberRow.viewColumn, MemberRow.userColumn]

/-! ## Updates and deletions -/

@[simp] theorem Fields.on_update (row : FieldRow) (rows : List FieldRow) :
    (Fields.update row).on rows =
      (rows.map fun r => if r.id = row.id then row else r, rows.countP fun r => r.id = row.id) := by
  simp only [Fields.update, Update.on_eq, FieldRow.idColumn, Condition.allHold_cons,
    Condition.allHold_nil, Condition.holds_equals_text, Bool.and_true, decide_eq_true_eq,
    Prod.mk.injEq, and_true]
  refine List.map_congr_left ?_
  intro r _
  by_cases h : r.id = row.id
  · rw [if_pos h, if_pos h]
    cases row
    simp_all [Update.change]
  · rw [if_neg h, if_neg h]

@[simp] theorem Fields.on_delete (id : String) (rows : List FieldRow) :
    (Fields.delete id).on rows =
      (rows.filter fun r => r.id ≠ id, rows.countP fun r => r.id = id) := by
  simp [Fields.delete, Delete.on_eq, FieldRow.idColumn]

@[simp] theorem Properties.on_delete (id : String) (rows : List PropertyRow) :
    (Properties.delete id).on rows =
      (rows.filter fun r => r.id ≠ id, rows.countP fun r => r.id = id) := by
  simp [Properties.delete, Delete.on_eq, PropertyRow.idColumn]

@[simp] theorem Properties.on_deleteOfField (fieldId : String) (rows : List PropertyRow) :
    (Properties.deleteOfField fieldId).on rows =
      (rows.filter fun r => r.fieldId ≠ fieldId, rows.countP fun r => r.fieldId = fieldId) := by
  simp [Properties.deleteOfField, Delete.on_eq, PropertyRow.fieldColumn]

/-- The parts that are given replace those of the view. -/
theorem Views.change_eq {id : String} {p : Views.Parts} {q : Update ViewRow}
    (h : Views.update? id p = some q) (r : ViewRow) :
    q.change r = { r with
      title := p.title.getD r.title
      query := p.query.getD r.query
      layout := p.layout.getD r.layout } := by
  unfold Views.update? at h
  split at h
  · cases h
  · cases h
    obtain ⟨title, query, layout⟩ := p
    cases title <;> cases query <;> cases layout <;> rfl

/-- New parts leave a view its identifier. -/
theorem Views.id_change {id : String} {p : Views.Parts} {q : Update ViewRow}
    (h : Views.update? id p = some q) (r : ViewRow) : (q.change r).id = r.id := by
  rw [Views.change_eq h]

/-- It is the view of the identifier that gets new parts. -/
theorem Views.allHold_update {id : String} {p : Views.Parts} {q : Update ViewRow}
    (h : Views.update? id p = some q) {r : ViewRow} :
    Condition.allHold q.conditions r = true ↔ r.id = id := by
  unfold Views.update? at h
  split at h
  · cases h
  · cases h
    simp [ViewRow.idColumn]

end Statement

namespace Store
namespace PropertyRow

/-- The row with the scope of its object. -/
def stamp (scope : Scope) (r : PropertyRow) : PropertyRow :=
  { r with channelId := scope.channelId, teamId := scope.teamId }

@[simp] theorem scope_stamp (scope : Scope) (r : PropertyRow) : (r.stamp scope).scope = scope := rfl

theorem stamp_eq_self {scope : Scope} {r : PropertyRow} : r.stamp scope = r ↔ r.scope = scope := by
  cases r
  cases scope
  simp [stamp, PropertyRow.scope, eq_comm]

end PropertyRow

/-- The rows after all properties of an object got one scope. -/
def stamped (objectId : String) (scope : Scope) (rows : List PropertyRow) : List PropertyRow :=
  rows.map fun r => if r.objectId = objectId then r.stamp scope else r

/-- The rows after a property got another value. -/
def withValue (id value : String) (rows : List PropertyRow) : List PropertyRow :=
  rows.map fun r => if r.id = id then { r with value } else r

theorem map_id_withValue (id value : String) (rows : List PropertyRow) :
    (withValue id value rows).map PropertyRow.id = rows.map PropertyRow.id := by
  unfold withValue
  rw [List.map_map]
  refine List.map_congr_left ?_
  intro r _
  by_cases h : r.id = id <;> simp [h]

theorem mem_withValue_of_ne {id value : String} {rows : List PropertyRow} {r : PropertyRow}
    (hr : r ∈ rows) (h : r.id ≠ id) : r ∈ withValue id value rows := by
  refine List.mem_map.2 ⟨r, hr, ?_⟩
  rw [if_neg h]

end Store

namespace Statement

open Sql Store

@[simp] theorem Properties.on_updateValue (id value : String) (rows : List PropertyRow) :
    (Properties.updateValue id value).on rows =
      (withValue id value rows, rows.countP fun r => r.id = id) := by
  simp [Properties.updateValue, withValue, Update.on_eq, Update.change, PropertyRow.idColumn]

/-- Rows that have the scope already are left out of the update, which makes no difference but for
their number. -/
@[simp] theorem Properties.on_restamp (objectId : String) (scope : Scope)
    (rows : List PropertyRow) :
    (Properties.restamp objectId scope).on rows =
      (stamped objectId scope rows,
        rows.countP fun r => r.objectId = objectId && r.scope ≠ scope) := by
  have hcond : ∀ r : PropertyRow,
      Condition.allHold (Properties.restamp objectId scope).conditions r =
        (decide (r.objectId = objectId) && decide (r.scope ≠ scope)) := by
    intro r
    cases scope
    simp [Properties.restamp, PropertyRow.objectColumn, PropertyRow.channelColumn,
      PropertyRow.teamColumn, PropertyRow.scope]
  have hchange : ∀ r : PropertyRow, (Properties.restamp objectId scope).change r = r.stamp scope :=
    fun r => rfl
  simp only [Update.on_eq, hcond, hchange, stamped, Prod.mk.injEq, and_true]
  refine List.map_congr_left ?_
  intro r _
  by_cases ho : r.objectId = objectId
  · by_cases hs : r.scope = scope
    · simp [ho, hs, PropertyRow.stamp_eq_self.2 hs]
    · simp [ho, hs]
  · simp [ho]

end Statement
end PropertyBoard
