import PropertyBoard.Proofs.Json.Loose
import PropertyBoard.Proofs.Scope

/-!
# PropertyBoard.Proofs.Query

What a query finds, in every board that can come about.

* `Store.Meets`: which objects meet a query, told by the properties of the object.
* `Objects.allHold_iff_meets`: the conditions of the statement hold of the row of an object exactly
  if the object meets the query. `Objects.fault_eq_none`: no row stops the statement.
* `Views.runQuery_exact`: so a query finds the objects that meet it, ascending, and shows a page of
  them.
-/

namespace PropertyBoard

open Store

namespace Store

variable {s : Store}

/-! ## What an object holds -/

/-- The texts that a property holds. -/
def PropertyRow.texts (p : PropertyRow) : List String :=
  (stored? Codec.texts p.value).getD []

theorem PropertyRow.Written.texts_eq {p : PropertyRow} (h : p.Written) :
    stored? Codec.texts p.value = some p.texts ∧
      Loose.ofText? p.value = some (.list (p.texts.map Loose.quoted)) := by
  obtain ⟨texts, hvalue, hstored⟩ := h.reads
  have htexts : p.texts = texts := by
    rw [PropertyRow.texts, hstored, Option.getD_some]
  rw [htexts, hvalue, stored?_texts, Loose.ofText?_texts]
  exact ⟨rfl, rfl⟩

/-- The identifiers of fields hold no NUL, so the names of members are whole. -/
theorem memberName_eq (hk : s.Keyed) (hw : s.Written) {p : PropertyRow} (hp : p ∈ s.properties) :
    memberName p.fieldId = p.fieldId := by
  obtain ⟨r, hr, hid⟩ := hasField_iff.1 (hk.fieldOf p hp)
  rw [memberName, ← hid, List.takeWhile_eq_self_iff.2, String.ofList_toList]
  intro c hc
  simpa using ((hw.fields r hr).digits c hc).ne_nul

/-- The properties of an object. -/
def rowsOf (s : Store) (key : String × String) : List PropertyRow :=
  s.properties.filter fun p => p.objectKey = key

theorem mem_rowsOf {key : String × String} {p : PropertyRow} :
    p ∈ s.rowsOf key ↔ p ∈ s.properties ∧ p.objectKey = key := by
  simp [rowsOf]

theorem held_objectRow (hk : s.Keyed) (hw : s.Written) (key : String × String) :
    (s.objectRow key).held =
      (s.rowsOf key).map fun p => (p.fieldId, some (.list (p.texts.map Loose.quoted))) := by
  refine List.map_congr_left ?_
  intro p hp
  obtain ⟨hp, _⟩ := mem_rowsOf.1 hp
  show (memberName p.fieldId, Loose.ofText? p.value) = _
  rw [memberName_eq hk hw hp, ((hw.properties p hp).texts_eq).2]

/-! ## The row of an object -/

namespace ObjectRow

theorem nestingOfMembers_lists {members : List (Wide × Loose)}
    (h : ∀ m ∈ members, Loose.nesting m.2 = 1) {deepest : Nat} (hd : deepest ≤ 1) :
    Loose.nestingOfMembers members deepest ≤ 1 := by
  induction members generalizing deepest with
  | nil => exact hd
  | cons m rest ih =>
    obtain ⟨hm, hrest⟩ := List.forall_mem_cons.1 h
    rw [Loose.nestingOfMembers, hm]
    exact ih hrest (by omega)

theorem isReadable_objectRow (hk : s.Keyed) (hw : s.Written) (key : String × String) :
    (s.objectRow key).isReadable = true := by
  rw [isReadable, held_objectRow hk hw]
  simp

theorem isSearchable_objectRow (hk : s.Keyed) (hw : s.Written) (key : String × String) :
    (s.objectRow key).isSearchable = true := by
  have hdepth : ∀ m ∈ (s.objectRow key).held.filterMap fun e =>
      e.2.map fun h => (Wide.ofChars (e.1.toList.flatMap Json.escape), h), Loose.nesting m.2 = 1 := by
    intro m hm
    rw [held_objectRow hk hw] at hm
    simp only [List.filterMap_map, List.mem_filterMap, Function.comp, Option.map_some,
      Option.some.injEq] at hm
    obtain ⟨p, _, rfl⟩ := hm
    exact Loose.nesting_texts p.texts
  have hle := nestingOfMembers_lists hdepth (Nat.zero_le 1)
  rw [isSearchable, properties, Loose.nesting, decide_eq_true_eq]
  exact Nat.le_trans (Nat.succ_le_succ hle) (by decide)

end ObjectRow

/-! ## Queries -/

/-- An object meets a query, where it has a property at all. A scope of the query is the one that
all properties of the object have. -/
structure Meets (s : Store) (q : Query) (type : Option ObjectType) (key : String × String) :
    Prop where
  present : ∃ p ∈ s.properties, p.objectKey = key
  ofType : ∀ t, type = some t → key.2 = t.name
  wanted : ∀ fieldId texts, (fieldId, texts) ∈ q.includes.entries →
    ∃ p ∈ s.properties, p.objectKey = key ∧ p.fieldId = fieldId ∧
      (texts = [] ∨ ∃ t ∈ p.texts, t ∈ texts)
  unwanted : ∀ fieldId texts, (fieldId, texts) ∈ q.excludes.entries →
    if texts = [] then ∀ p ∈ s.properties, p.objectKey = key → p.fieldId ≠ fieldId
    else ∃ p ∈ s.properties, p.objectKey = key ∧ p.fieldId = fieldId ∧ ∀ t ∈ p.texts, t ∉ texts
  inChannel : ∀ c, q.channelScope = some c →
    ∀ p ∈ s.properties, p.objectKey = key → p.channelId = c
  inTeam : ∀ t, q.teamScope = some t → ∀ p ∈ s.properties, p.objectKey = key → p.teamId = t

end Store

namespace Statement
namespace Objects

open Sql

variable {s : Store} {key : String × String}

namespace Clause

theorem holds_oneOf (texts : List String) (e : ObjectRow × Entry) (text : String) :
    (oneOf texts).holds (e, .text text) = texts.contains text := by
  match texts with
  | [] => rfl
  | [t] =>
    show (Cell.text text).equals (.text t) = _
    rw [Cell.equals_text, List.contains_cons, List.contains_nil, Bool.or_false]
    rfl
  | t :: u :: rest => exact Comparison.holds_isIn rfl (t :: u :: rest)

/-- A stored list of texts is looked through as it is. -/
theorem found?_held (row : ObjectRow) (fieldId : String) (held texts : List String) :
    (Lookup.among heldElements [oneOf texts] .here).found?
        (row, fieldId, some (.list (held.map Loose.quoted))) =
      some (held.any fun t => texts.contains t) := by
  have hrows : heldElements.rows (row, fieldId, some (.list (held.map Loose.quoted))) =
      held.map fun t => some (.text t) := by
    show (Held.elements _).map Loose.Element.readable? = _
    rw [elements_texts, List.map_map]
    rfl
  rw [Lookup.found?_among hrows fun _ _ => rfl]
  simp [Comparison.allHold, holds_oneOf]

/-- What a lookup among the entries of an object finds, told by the rows of the object. -/
theorem found?_entries (hk : s.Keyed) (hw : s.Written) (fieldId : String)
    {rest : Lookup (ObjectRow × Entry)} {found : PropertyRow → Bool}
    (hrest : ∀ p : PropertyRow, rest.found? (s.objectRow key, p.fieldId,
      some (.list (p.texts.map Loose.quoted))) = some (found p)) :
    (Lookup.among entries [.equals keyColumn (.text fieldId)] rest).found? (s.objectRow key) =
      some ((s.rowsOf key).any fun p => decide (p.fieldId = fieldId) && found p) := by
  have hrows : entries.rows (s.objectRow key) = (s.rowsOf key).map fun p =>
      some (p.fieldId, some (.list (p.texts.map Loose.quoted))) := by
    show (s.objectRow key).held.map some = _
    rw [held_objectRow hk hw, List.map_map]
    rfl
  rw [Lookup.found?_among hrows fun p _ => hrest p]
  simp [Comparison.allHold, Comparison.holds, keyColumn, Param.cell, Cell.equals_text]

theorem found?_present (hk : s.Keyed) (hw : s.Written) (fieldId : String) :
    (present fieldId).found? (s.objectRow key) =
      some ((s.rowsOf key).any fun p => p.fieldId = fieldId) := by
  rw [present, found?_entries hk hw fieldId fun _ => rfl]
  simp

theorem found?_contains (hk : s.Keyed) (hw : s.Written) (fieldId : String) (texts : List String) :
    (contains fieldId texts).found? (s.objectRow key) =
      some ((s.rowsOf key).any fun p =>
        decide (p.fieldId = fieldId) && p.texts.any fun t => texts.contains t) :=
  found?_entries hk hw fieldId fun p => found?_held _ p.fieldId p.texts texts

theorem any_rowsOf_field {fieldId : String} :
    ((s.rowsOf key).any fun p => p.fieldId = fieldId) = true ↔
      ∃ p ∈ s.properties, p.objectKey = key ∧ p.fieldId = fieldId := by
  simp only [List.any_eq_true, mem_rowsOf, decide_eq_true_eq, and_assoc]

theorem any_rowsOf_held {fieldId : String} {texts : List String} :
    ((s.rowsOf key).any fun p =>
        decide (p.fieldId = fieldId) && p.texts.any fun t => texts.contains t) = true ↔
      ∃ p ∈ s.properties, p.objectKey = key ∧ p.fieldId = fieldId ∧ ∃ t ∈ p.texts, t ∈ texts := by
  simp only [List.any_eq_true, mem_rowsOf, Bool.and_eq_true, decide_eq_true_eq,
    List.contains_iff_mem, and_assoc]

theorem holds_wanted (hk : s.Keyed) (hw : s.Written) {fieldId : String} {texts : List String} :
    (wanted fieldId texts).holds (s.objectRow key) = true ↔
      ∃ p ∈ s.properties, p.objectKey = key ∧ p.fieldId = fieldId ∧
        (texts = [] ∨ ∃ t ∈ p.texts, t ∈ texts) := by
  cases texts with
  | nil =>
    show ((present fieldId).found? _).getD false = true ↔ _
    rw [found?_present hk hw, Option.getD_some, any_rowsOf_field]
    simp
  | cons t rest =>
    show ((contains fieldId (t :: rest)).found? _).getD false = true ↔ _
    rw [found?_contains hk hw, Option.getD_some, any_rowsOf_held]
    simp

theorem holds_unwanted (hk : s.Keyed) (hw : s.Written) {fieldId : String} {texts : List String} :
    (unwanted fieldId texts).holds (s.objectRow key) = true ↔
      if texts = [] then ∀ p ∈ s.properties, p.objectKey = key → p.fieldId ≠ fieldId
      else ∃ p ∈ s.properties, p.objectKey = key ∧ p.fieldId = fieldId ∧
        ∀ t ∈ p.texts, t ∉ texts := by
  have hfield : (present fieldId).found? (s.objectRow key) = _ := found?_present hk hw fieldId
  have hany : (contains fieldId texts).found? (s.objectRow key) = _ :=
    found?_contains hk hw fieldId texts
  by_cases htexts : texts = []
  · subst htexts
    have hholds : (unwanted fieldId []).holds (s.objectRow key) =
        !((s.rowsOf key).any fun p => p.fieldId = fieldId) := by
      rw [holds, term, Handwritten.holds, Handwritten.verdict?, Handwritten.verdict?, hfield]
      rfl
    rw [if_pos rfl, hholds, Bool.not_eq_true', ← Bool.not_eq_true, any_rowsOf_field]
    simp
  · have hholds : (unwanted fieldId texts).holds (s.objectRow key) =
        (((s.rowsOf key).any fun p => p.fieldId = fieldId) &&
          !(s.rowsOf key).any fun p =>
            decide (p.fieldId = fieldId) && p.texts.any fun t => texts.contains t) := by
      cases texts with
      | nil => exact absurd rfl htexts
      | cons t rest =>
        simp only [holds, term, Handwritten.holds, Handwritten.verdict?, hfield, hany]
        cases (s.rowsOf key).any fun p => p.fieldId = fieldId <;> rfl
    rw [if_neg htexts, hholds, Bool.and_eq_true, Bool.not_eq_true', ← Bool.not_eq_true,
      any_rowsOf_field, any_rowsOf_held]
    constructor
    · rintro ⟨⟨p, hp, hkey, hid⟩, hnone⟩
      refine ⟨p, hp, hkey, hid, ?_⟩
      intro t ht hmem
      exact hnone ⟨p, hp, hkey, hid, t, ht, hmem⟩
    · rintro ⟨p, hp, hkey, hid, hall⟩
      refine ⟨⟨p, hp, hkey, hid⟩, ?_⟩
      rintro ⟨p', hp', hkey', hid', t, ht, hmem⟩
      -- An object has one property for a field.
      have hpair : (p'.objectId, p'.fieldId) = (p.objectId, p.fieldId) := by
        rw [(Prod.mk.inj (hkey'.trans hkey.symm)).1, hid', hid]
      have hsame : p' = p := List.inj_on_of_nodup_map hk.pairs hp' hp hpair
      exact hall t (hsame ▸ ht) hmem

theorem fault_eq_none (hk : s.Keyed) (hw : s.Written) (c : Clause) :
    c.fault (s.objectRow key) = none := by
  have hfield (f : String) : (present f).found? (s.objectRow key) = _ := found?_present hk hw f
  have hany (f : String) (texts : List String) :
      (contains f texts).found? (s.objectRow key) = _ := found?_contains hk hw f texts
  have hverdict : (c.term.verdict? (s.objectRow key)).isSome = true := by
    obtain ⟨f, _ | ⟨t, rest⟩⟩ | ⟨f, _ | ⟨t, rest⟩⟩ := c
    · simp [term, Handwritten.verdict?, hfield]
    · simp [term, Handwritten.verdict?, hany]
    · simp [term, Handwritten.verdict?, hfield]
    · simp only [term, Handwritten.verdict?, hfield, hany]
      cases (s.rowsOf key).any fun p => p.fieldId = f <;> rfl
  rw [fault, if_pos hverdict]

end Clause

theorem clausesFault_eq_none (hk : s.Keyed) (hw : s.Written) (cs : List Clause) :
    clausesFault cs (s.objectRow key) = none := by
  induction cs with
  | nil => rfl
  | cons c cs ih =>
    rw [clausesFault, Clause.fault_eq_none hk hw, ih]
    simp

/-- All that is stored can be looked at. -/
theorem fault_eq_none (hk : s.Keyed) (hw : s.Written) (q : Query) (type : Option ObjectType) :
    ∀ row ∈ s.objects, fault q type row = none := by
  intro row hrow
  obtain ⟨p, _, rfl⟩ := mem_objects.1 hrow
  rw [fault, ObjectRow.isReadable_objectRow hk hw, ObjectRow.isSearchable_objectRow hk hw,
    clausesFault_eq_none hk hw]
  simp

/-! ## The conditions -/

theorem allHold_clauses (q : Query) (row : ObjectRow) :
    Condition.allHold ((clauses q).map Clause.condition) row = true ↔
      (∀ fieldId texts, (fieldId, texts) ∈ q.includes.entries →
        (Clause.wanted fieldId texts).holds row = true) ∧
      ∀ fieldId texts, (fieldId, texts) ∈ q.excludes.entries →
        (Clause.unwanted fieldId texts).holds row = true := by
  simp only [Condition.allHold, clauses, List.map_append, List.map_map, List.all_append,
    Bool.and_eq_true, List.all_map, List.all_eq_true, Prod.forall]
  rfl

theorem allHold_scope (q : Query) (row : ObjectRow) :
    Condition.allHold (scopeConditions q) row = true ↔
      (∀ c, q.channelScope = some c → row.channelId = c) ∧
        ∀ t, q.teamScope = some t → row.teamId = t := by
  cases hc : q.channelScope <;> cases ht : q.teamScope <;>
    simp [scopeConditions, hc, ht, own, ObjectRow.channelColumn, ObjectRow.teamColumn]

theorem allHold_type (type : Option ObjectType) (row : ObjectRow) :
    Condition.allHold (typeConditions type) row = true ↔
      ∀ t, type = some t → row.objectType = t.name := by
  cases type <;> simp [typeConditions, own, ObjectRow.typeColumn]

/-- The conditions of the statement hold of the row of an object exactly if the object meets the
query. -/
theorem allHold_iff_meets {b : Board} (hb : b.Reachable) {p : PropertyRow}
    (hp : p ∈ b.store.properties) (q : Query) (type : Option ObjectType) (page : Page) :
    Condition.allHold (select q type page).conditions (b.store.objectRow p.objectKey) = true ↔
      b.store.Meets q type p.objectKey := by
  have hk := hb.keyed
  have hw := hb.written
  have hscope := hb.same_scope p hp
  obtain ⟨hchannel, hteam⟩ := scope_objectRow hp hscope
  have hall : ∀ r ∈ b.store.properties, r.objectKey = p.objectKey →
      r.channelId = p.channelId ∧ r.teamId = p.teamId := by
    intro r hr hkey
    have := hscope r hr (Prod.mk.inj hkey).1
    simpa [PropertyRow.scope] using this
  show Condition.allHold ((clauses q).map Clause.condition ++ scopeConditions q ++
    typeConditions type) _ = true ↔ _
  rw [Condition.allHold_append, Condition.allHold_append, Bool.and_eq_true, Bool.and_eq_true,
    allHold_clauses, allHold_scope, allHold_type, hchannel, hteam]
  simp only [Clause.holds_wanted hk hw, Clause.holds_unwanted hk hw]
  constructor
  · rintro ⟨⟨⟨hwanted, hunwanted⟩, hc, ht⟩, htype⟩
    refine ⟨⟨p, hp, rfl⟩, htype, hwanted, hunwanted, ?_, ?_⟩
    · intro c hqc r hr hkey
      rw [(hall r hr hkey).1]
      exact hc c hqc
    · intro t hqt r hr hkey
      rw [(hall r hr hkey).2]
      exact ht t hqt
  · rintro ⟨_, htype, hwanted, hunwanted, hc, ht⟩
    exact ⟨⟨⟨hwanted, hunwanted⟩, fun c hqc => hc c hqc p hp rfl,
      fun t hqt => ht t hqt p hp rfl⟩, htype⟩

/-- What the statement finds: the identifiers of the objects that meet the query, ascending. -/
theorem found_exact {b : Board} (hb : b.Reachable) (q : Query) (type : Option ObjectType)
    (page : Page) :
    (((select q type page).found b.store.objects).map ObjectRow.objectId).Pairwise (· < ·) ∧
      ∀ i, i ∈ ((select q type page).found b.store.objects).map ObjectRow.objectId ↔
        ∃ t, b.store.Meets q type (i, t) := by
  obtain ⟨hascending, hmem⟩ := Select.found_ascending (q := select q type page)
    ObjectRow.objectId (fun _ => rfl) rfl rfl b.store.objects
  refine ⟨hascending, ?_⟩
  intro i
  rw [hmem]
  constructor
  · rintro ⟨row, hrow, hall, rfl⟩
    obtain ⟨p, hp, rfl⟩ := mem_objects.1 hrow
    exact ⟨p.objectType, (allHold_iff_meets hb hp q type page).1 hall⟩
  · rintro ⟨t, hmeets⟩
    obtain ⟨p, hp, hkey⟩ := hmeets.present
    refine ⟨b.store.objectRow p.objectKey, mem_objects.2 ⟨p, hp, rfl⟩, ?_, (Prod.mk.inj hkey).1⟩
    rw [allHold_iff_meets hb hp, hkey]
    exact hmeets

end Objects
end Statement

namespace Views

open Statement

theorem runQuery_of_no_criteria {s : Store} {q : Query} (h : q.hasCriteria = false)
    (type : Option ObjectType) (page : Page) :
    runQuery s q type page = .error .noCriteria := by
  simp [runQuery, Objects.compile, h, bind, Except.bind]

theorem runQuery_of_criteria {s : Store} {q : Query} (h : q.hasCriteria = true)
    (type : Option ObjectType) (page : Page) :
    runQuery s q type page =
      (Refusal.ofStorage "query objects" ((Objects.select q type page).on s.objects)).map
        fun rows => rows.map ObjectRow.objectId := by
  simp only [runQuery, Objects.compile, h, if_true, query, bind, Except.bind]
  cases Refusal.ofStorage "query objects" ((Objects.select q type page).on s.objects) <;> rfl

theorem hasCriteria_iff {q : Query} :
    q.hasCriteria = true ↔ q.includes.entries ≠ [] ∨ q.excludes.entries ≠ [] := by
  simp [Query.hasCriteria, Dict.isEmpty]

/-- A query without criteria is refused. Any other query that no limit stops shows the page of the
identifiers, ascending and each once, of the objects that meet it. -/
theorem runQuery_exact {b : Board} (hb : b.Reachable) (q : Query) (type : Option ObjectType)
    (page : Page) :
    (q.includes.entries = [] → q.excludes.entries = [] →
      runQuery b.store q type page = .error .noCriteria ∧
        Refusal.noCriteria.report.kind = .badRequest) ∧
    (q.includes.entries ≠ [] ∨ q.excludes.entries ≠ [] →
      (∀ e, (Objects.select q type page).limitFault = some e →
        runQuery b.store q type page = .error (.storage e "query objects")) ∧
      ((Objects.select q type page).limitFault = none →
        ∃ ids : List String,
          ids.Pairwise (· < ·) ∧
          (∀ i, i ∈ ids ↔ ∃ t, b.store.Meets q type (i, t)) ∧
          runQuery b.store q type page =
            .ok ((ids.drop (min (page.number.toInt.toNat * page.size.toInt.toNat)
              maxInt64.toNat)).take page.size.toInt.toNat) ∧
          (ids.length < 2 ^ 63 → runQuery b.store q type page =
            .ok ((ids.drop (page.number.toInt.toNat * page.size.toInt.toNat)).take
              page.size.toInt.toNat)))) := by
  have hon := Sql.Select.on_of_window (q := Objects.select q type page) (w := page.window) rfl
    (Objects.fault_eq_none hb.keyed hb.written q type)
  constructor
  · intro hincludes hexcludes
    have hnone : q.hasCriteria = false := by
      simp [Query.hasCriteria, Dict.isEmpty, hincludes, hexcludes]
    exact ⟨runQuery_of_no_criteria hnone type page, rfl⟩
  · intro hcriteria
    have hrun := runQuery_of_criteria (s := b.store) (hasCriteria_iff.2 hcriteria) type page
    constructor
    · intro e he
      rw [hrun, hon, he]
      rfl
    · intro hlimit
      obtain ⟨hascending, hmem⟩ := Objects.found_exact hb q type page
      have hwindow : runQuery b.store q type page = .ok (Sql.Window.apply page.window
          (((Objects.select q type page).found b.store.objects).map ObjectRow.objectId)) := by
        rw [hrun, hon, hlimit, ← Sql.Window.map_apply]
        rfl
      refine ⟨_, hascending, hmem, ?_, ?_⟩
      · rw [hwindow, Sql.Window.apply_page]
      · intro hlength
        rw [hwindow, Sql.Window.apply_page_exact page hlength]

/-- The objects that still hold an option after the other one was removed. -/
def stillDone : Query where
  includes := { entries := [(Identifier.nth 1, ["done"])] }
  channelId := some " c "

theorem stillDone_finds_post :
    ∃ t, (Board.run { now := 0 } optionRemoved).store.Meets stillDone (some .post) ("p", t) := by
  have hcriteria : stillDone.includes.entries ≠ [] ∨ stillDone.excludes.entries ≠ [] := by
    simp [stillDone]
  have hlimit : (Objects.select stillDone (some .post) ⟨0, 10⟩).limitFault = none := by
    decide +kernel
  have hfound : runQuery (Board.run { now := 0 } optionRemoved).store stillDone (some .post)
      ⟨0, 10⟩ = .ok ["p"] := by
    decide +kernel
  obtain ⟨ids, _, hmem, hrun, _⟩ := ((runQuery_exact (Board.reachable_run 0 optionRemoved)
    stillDone (some .post) ⟨0, 10⟩).2 hcriteria).2 hlimit
  rw [hfound] at hrun
  have hp : "p" ∈ ["p"] := List.mem_singleton.2 rfl
  rw [Except.ok.inj hrun] at hp
  exact (hmem "p").1 (List.mem_of_mem_drop (List.mem_of_mem_take hp))

end Views
end PropertyBoard
