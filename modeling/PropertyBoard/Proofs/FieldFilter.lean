import Mathlib.Data.List.Infix
import PropertyBoard.Proofs.Search

/-!
# PropertyBoard.Proofs.FieldFilter

What a listing of fields shows, in every store and for every filter.

* `FieldFilter.Wants`: what a filter asks for, in its own words: a team, and a term that occurs in the
  name. `FieldFilter.admits_iff`: the conditions of the statement say the same.
* `Store.Selects`: the rows that a filter asks for, in order. There is one such list
  (`Fields.found_of_selects`).
* `Fields.list_exact`: a listing reads the page of these rows, a search the first of them.
* `Fields.other_character_found`: a pattern takes some characters for others, so a term can be found
  in a name that it does not occur in.
-/

namespace PropertyBoard

open Store Text.Lowercase

/-! ## What a filter asks for -/

/-- A filter wants the fields of its team, if it names one, and the global ones unless it says
otherwise. If it has a term, the term in lower case occurs in the name, in which `A` to `Z` are
small. All characters stand for themselves, but U+FFFD, U+FFFE and U+FFFF for each other. -/
structure FieldFilter.Wants (f : FieldFilter) (r : FieldRow) : Prop where
  team : Text.trim f.teamId = "" ∨ r.teamId = Text.trim f.teamId ∨ r.teamId = "" ∧ f.ownOnly = false
  term : Text.trim f.term = "" ∨
    (full (Text.trim f.term)).toList.map Sql.Like.counted <:+:
      (ascii r.name).toList.map Sql.Like.counted

namespace FieldFilter

open Sql Statement.Fields

variable {f : FieldFilter} {r : FieldRow}

theorem wants_iff : f.Wants r ↔
    (Text.trim f.teamId = "" ∨ r.teamId = Text.trim f.teamId ∨
      r.teamId = "" ∧ f.ownOnly = false) ∧
    (Text.trim f.term = "" ∨ (full (Text.trim f.term)).toList.map Like.counted <:+:
      (ascii r.name).toList.map Like.counted) := by
  constructor
  · rintro ⟨hteam, hterm⟩
    exact ⟨hteam, hterm⟩
  · rintro ⟨hteam, hterm⟩
    exact ⟨hteam, hterm⟩

instance : Decidable (f.Wants r) :=
  decidable_of_iff _ wants_iff.symm

theorem allHold_teamConditions : Condition.allHold (teamConditions f) r = true ↔
    Text.trim f.teamId = "" ∨ r.teamId = Text.trim f.teamId ∨ r.teamId = "" ∧ f.ownOnly = false := by
  unfold teamConditions
  cases hteam : Text.nonBlank? f.teamId with
  | none => simp [Text.nonBlank?_eq_none_iff.1 hteam]
  | some teamId =>
    obtain ⟨rfl, hne⟩ := Text.nonBlank?_eq_some_iff.1 hteam
    cases hown : f.ownOnly <;> simp [teamCondition, FieldRow.teamColumn, hne]

/-- The pattern of a term stands for the names that the term occurs in. -/
theorem allHold_nameConditions (hterm : '\x00' ∉ f.term.toList) (hname : '\x00' ∉ r.name.toList) :
    Condition.allHold (nameConditions f) r = true ↔
      Text.trim f.term = "" ∨
        (full (Text.trim f.term)).toList.map Like.counted <:+:
          (ascii r.name).toList.map Like.counted := by
  unfold nameConditions
  cases h : Text.nonBlank? f.term with
  | none => simp [pattern?, h, Text.nonBlank?_eq_none_iff.1 h]
  | some t =>
    obtain ⟨rfl, hne⟩ := Text.nonBlank?_eq_some_iff.1 h
    have htrim : '\x00' ∉ (full (Text.trim f.term)).toList :=
      noNul_full fun h => hterm ((Text.trim_within f.term).subset h)
    have hlike := Like.isLike_within (s := ascii r.name) htrim
    rw [Like.folded_of_small htrim (asciiChar_full _),
      Like.folded_of_small (noNul_ascii hname) (asciiChar_ascii _)] at hlike
    rw [Fields.pattern?_of_term h]
    show Condition.allHold [nameCondition (pattern (Text.trim f.term))] r = true ↔ _
    rw [Condition.allHold_cons, Condition.allHold_nil, Bool.and_true, holds_nameCondition,
      or_iff_right hne]
    exact hlike

/-- The conditions of the statement say what the filter wants. -/
theorem admits_iff (hterm : '\x00' ∉ f.term.toList) (hname : '\x00' ∉ r.name.toList) :
    f.admits r = true ↔ f.Wants r := by
  rw [← Fields.allHold_list, wants_iff]
  simp only [list, Condition.allHold_append, Bool.and_eq_true, allHold_teamConditions,
    allHold_nameConditions hterm hname]

end FieldFilter

/-- The rows that a filter asks for, by name and identifier. -/
structure Store.Selects (s : Store) (f : FieldFilter) (rows : List FieldRow) : Prop where
  ordered : rows.Pairwise FieldRow.Before
  mem_iff : ∀ r, r ∈ rows ↔ r ∈ s.fields ∧ f.Wants r

/-- The page is no part of what is asked for. -/
theorem Store.Selects.of_page {s : Store} {f : FieldFilter} {rows : List FieldRow}
    (h : s.Selects f rows) (page : Page) : s.Selects { f with page } rows where
  ordered := h.ordered
  mem_iff r := by
    rw [h.mem_iff, FieldFilter.wants_iff, FieldFilter.wants_iff]

/-- What reading rows one after the other gives: a field for each of them, or the complaint about
the first that is no field. -/
inductive Store.Reads : List FieldRow → Except Refusal (List Field) → Prop where
  | all {rows : List FieldRow} {fields : List Field}
      (h : rows.map FieldRow.field? = fields.map some) : Reads rows (.ok fields)
  | unreadable {front : List FieldRow} {r : FieldRow} (back : List FieldRow)
      (hfront : ∀ x ∈ front, ∃ f, x.field? = some f) (hr : r.field? = none) :
      Reads (front ++ r :: back)
        (.error (.storage (.undecodableRow FieldRow.table r.id) "list property_fields"))

theorem Store.reads (rows : List FieldRow) :
    Reads rows (readRows "list property_fields" FieldRow.table FieldRow.id FieldRow.field? rows []) := by
  rcases readable_or_not FieldRow.field? rows with ⟨fields, h⟩ | ⟨front, r, back, hfront, hr, rfl⟩
  · rw [readRows_eq_ok.2 ⟨fields, h, rfl⟩]
    exact .all h
  · rw [readRows_of_unreadable back hfront hr]
    exact .unreadable back hfront hr

namespace Fields

open Sql

variable {s : Store} {f : FieldFilter}

theorem before_irrefl (r : FieldRow) : ¬r.Before r := by
  rintro (h | ⟨_, h⟩)
  · exact lt_irrefl _ h
  · exact lt_irrefl _ h

/-- A statement finds the rows that the filter asks for. -/
theorem found_of_selects {rows : List FieldRow} (hids : (s.fields.map FieldRow.id).Nodup)
    (hnames : ∀ r ∈ s.fields, '\x00' ∉ r.name.toList) (hterm : '\x00' ∉ f.term.toList)
    (h : s.Selects f rows) : (Statement.Fields.list f).found s.fields = rows := by
  have hnodup : rows.Nodup := by
    refine h.ordered.imp ?_
    rintro a b hab rfl
    exact before_irrefl a hab
  have hperm : rows.Perm (s.fields.filter f.admits) := by
    refine (List.perm_ext_iff_of_nodup hnodup (hids.of_map.filter _)).2 fun r => ?_
    rw [h.mem_iff, List.mem_filter]
    refine and_congr_right fun hr => ?_
    exact (FieldFilter.admits_iff hterm (hnames r hr)).symm
  exact found_of_listing hperm h.ordered

theorem selects_found (hids : (s.fields.map FieldRow.id).Nodup)
    (hnames : ∀ r ∈ s.fields, '\x00' ∉ r.name.toList) (hterm : '\x00' ∉ f.term.toList) :
    s.Selects f ((Statement.Fields.list f).found s.fields) where
  ordered := (Select.found_strict FieldRow.id (fun _ => rfl) rfl rfl hids).imp before_iff.1
  mem_iff r := by
    rw [Select.mem_found rfl, allHold_list]
    refine and_congr_right fun hr => ?_
    exact FieldFilter.admits_iff hterm (hnames r hr)

/-- A pattern that is short enough can be tried on every name. -/
theorem fault_of_short_term
    (hpattern : (Statement.Fields.pattern (Text.trim f.term)).utf8ByteSize ≤ Like.maxPatternSize)
    (r : FieldRow) : Statement.Fields.fault f r = none := by
  cases h : Text.nonBlank? f.term with
  | none => simp [Statement.Fields.fault, Statement.Fields.pattern?, h]
  | some t =>
    obtain ⟨rfl, _⟩ := Text.nonBlank?_eq_some_iff.1 h
    exact fault_of_short h hpattern r

/-- A listing reads its page of the rows that the filter asks for. -/
theorem reads_page {rows : List FieldRow} (hids : (s.fields.map FieldRow.id).Nodup)
    (hlength : s.fields.length < 2 ^ 63) (hnames : ∀ r ∈ s.fields, '\x00' ∉ r.name.toList)
    (hterm : '\x00' ∉ f.term.toList) (hquiet : ∀ r, Statement.Fields.fault f r = none)
    (h : s.Selects f rows) : Reads (f.page.part rows) (list s f) := by
  have hfound := found_of_selects hids hnames hterm h
  have hrows : rows.length < 2 ^ 63 := by
    rw [← hfound, (Select.found_perm rfl s.fields).length_eq]
    exact (List.length_filter_le _ _).trans_lt hlength
  have hfault : ∀ r ∈ s.fields, (Statement.Fields.list f).fault r = none := fun r _ => hquiet r
  have hon := Select.on_of_window (q := Statement.Fields.list f) rfl hfault
  rw [limitFault_list, hfound, Window.apply_part f.page hrows] at hon
  rw [list, query, hon]
  exact reads _

theorem part_of_limit {α : Type} (limit : Int64) (rows : List α) :
    Page.part (.first limit) rows = rows.take (max limit.toInt 0).toNat := by
  have hnat : (max limit.toInt 0).toNat = limit.toInt.toNat := by omega
  rw [Page.part_eq, hnat, Page.first, Int64.toInt_zero, Int.toNat_zero, Nat.zero_mul,
    List.drop_zero]

/-- In a store of names without NUL, a filter whose term has no NUL and makes no pattern that is too
long shows its page of the rows that it asks for. A search shows the first of those that the filter
asks for when global fields are among them. -/
theorem list_exact (hids : (s.fields.map FieldRow.id).Nodup) (hlength : s.fields.length < 2 ^ 63)
    (hnames : ∀ r ∈ s.fields, '\x00' ∉ r.name.toList) (hterm : '\x00' ∉ f.term.toList)
    (hpattern : (Statement.Fields.pattern (Text.trim f.term)).utf8ByteSize ≤
      Like.maxPatternSize) :
    ∃ rows all, s.Selects f rows ∧ Reads (f.page.part rows) (list s f) ∧
      s.Selects { f with ownOnly := false } all ∧
      ∀ limit, Reads (all.take (max limit.toInt 0).toNat) (search s f.term f.teamId limit) := by
  have hrows : s.Selects f ((Statement.Fields.list f).found s.fields) :=
    selects_found hids hnames hterm
  have hall : s.Selects { f with ownOnly := false }
      ((Statement.Fields.list { f with ownOnly := false }).found s.fields) :=
    selects_found hids hnames hterm
  refine ⟨_, _, hrows, ?_, hall, fun limit => ?_⟩
  · exact reads_page hids hlength hnames hterm (fault_of_short_term hpattern) hrows
  · have hfirst := hall.of_page (.first limit)
    have hquiet := fault_of_short_term (f := { f with ownOnly := false, page := .first limit })
      hpattern
    rw [← part_of_limit]
    exact reads_page (f := { f with ownOnly := false, page := .first limit }) hids hlength hnames
      hterm hquiet hfirst

/-- A field of a team, one of all teams and one of another team. -/
def discounts : List Action := [
  .call (.createField { teamId := "t", name := "a 50%_!", type := "text" } "u"),
  .call (.createField { name := "B 50%_!", type := "text" } "u"),
  .call (.createField { teamId := "other", name := "c 50%_!", type := "text" } "u")]

/-- The fields of a team and of all teams that a term with signs occurs in. -/
def discountsOfTeam : FieldFilter :=
  { teamId := " t ", term := " 50%_!", page := ⟨0, 10⟩ }

theorem discounts_listed : ∃ rows,
    Reads (discountsOfTeam.page.part rows)
      (list (Board.run { now := 0 } discounts).store discountsOfTeam) ∧
    ∀ r ∈ (Board.run { now := 0 } discounts).store.fields, r ∈ rows ↔ r.name ≠ "c 50%_!" := by
  have hnames : ∀ r ∈ (Board.run { now := 0 } discounts).store.fields,
      '\x00' ∉ r.name.toList := by
    decide +kernel
  have hterm : '\x00' ∉ discountsOfTeam.term.toList := by
    decide +kernel
  have hwants : ∀ r ∈ (Board.run { now := 0 } discounts).store.fields,
      discountsOfTeam.Wants r ↔ r.name ≠ "c 50%_!" := by
    decide +kernel
  obtain ⟨rows, _, hrows, hreads, _⟩ := list_exact (f := discountsOfTeam) (by decide +kernel)
    (by decide +kernel) hnames hterm (by decide +kernel)
  refine ⟨rows, hreads, fun r hr => ?_⟩
  rw [hrows.mem_iff, hwants r hr]
  exact and_iff_right hr

/-- A field whose name is the sign for a character that cannot be shown. -/
def unshowable : List Action := [
  .call (.createField { name := "\uFFFD", type := "text" } "u")]

/-- A filter whose term is another character, which does not occur in the name. -/
def otherCharacter : FieldFilter :=
  { term := "\uFFFE", page := ⟨0, 1⟩ }

/-- The pattern takes the one character for the other. -/
theorem other_character_found : ∃ field fields,
    list (Board.run { now := 0 } unshowable).store otherCharacter = .ok fields ∧ field ∈ fields ∧
      Text.trim otherCharacter.term ≠ "" ∧
      ¬(full (Text.trim otherCharacter.term)).toList <:+: (ascii field.name).toList := by
  have hb := Board.reachable_run 0 unshowable
  have hr : ∃ r ∈ (Board.run { now := 0 } unshowable).store.fields, r.name = "\uFFFD" := by
    decide +kernel
  obtain ⟨r, hr, hname⟩ := hr
  obtain ⟨field, hfield⟩ := (hb.written.fields r hr).reads
  obtain ⟨fields, hlist, hmem⟩ := list_of_first (f := otherCharacter) hb
    (fun r _ => fault_of_short_term (by decide +kernel) r) (by decide +kernel) (by decide +kernel)
  have hwants : otherCharacter.Wants r := by
    refine ⟨.inl (by decide +kernel), .inr ?_⟩
    rw [hname]
    decide +kernel
  have hadmits : otherCharacter.admits r = true := by
    refine (FieldFilter.admits_iff (by decide +kernel) ?_).2 hwants
    rw [hname]
    decide +kernel
  refine ⟨field, fields, hlist, (hmem r hr field hfield).2 hadmits, by decide +kernel, ?_⟩
  rw [FieldRow.name_of_field? hfield, hname]
  decide +kernel

end Fields
end PropertyBoard
