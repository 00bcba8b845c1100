import PropertyBoard.Proofs.Paging
import PropertyBoard.Proofs.Sql.Like

/-!
# PropertyBoard.Proofs.Search

Which fields a search by name finds.

The term is put into lower case by the Unicode mapping, the stored name by the one that changes only
`A` to `Z`. What the two make of a text can differ, so a term is not always found in the name that it
was copied from.

* `Fields.list_of_first`: the first page, if it is long enough, shows all that is asked for.
* `Fields.found_by_term`: a field is found exactly if the term in lower case occurs in its name,
  `A` and `a` being the same. A part of the name is found if the two mappings agree on it.
* `Fields.capital_is_missed`: a capital letter with an accent is not found.
-/

namespace PropertyBoard

open Store Text.Lowercase

namespace Fields

open Sql

variable {f : FieldFilter} {t : String}

theorem pattern?_of_term (hterm : Text.nonBlank? f.term = some t) :
    Statement.Fields.pattern? f = some (Statement.Fields.pattern t) := by
  rw [Statement.Fields.pattern?, hterm]
  rfl

/-- Without a team, a filter asks for the names that the term in lower case occurs in. -/
theorem admits_term (hteam : Text.nonBlank? f.teamId = none)
    (hterm : Text.nonBlank? f.term = some t) (hnul : '\x00' ∉ f.term.toList) (r : FieldRow) :
    f.admits r = true ↔ Like.folded (full t) <:+: Like.folded r.name := by
  have ht : '\x00' ∉ t.toList := by
    obtain ⟨rfl, _⟩ := Text.nonBlank?_eq_some_iff.1 hterm
    exact fun h => hnul ((Text.trim_within f.term).subset h)
  have hlike := Like.isLike_within (s := ascii r.name) (noNul_full ht)
  rw [Like.folded_ascii] at hlike
  rw [FieldFilter.admits, hteam, pattern?_of_term hterm, Bool.true_and]
  exact hlike

/-- A pattern that is short enough can be tried on every name. -/
theorem fault_of_short (hterm : Text.nonBlank? f.term = some t)
    (hpattern : (Statement.Fields.pattern t).utf8ByteSize ≤ Like.maxPatternSize) (r : FieldRow) :
    Statement.Fields.fault f r = none := by
  rw [Statement.Fields.fault, pattern?_of_term hterm]
  have hshort : ¬Like.maxPatternSize < (Statement.Fields.pattern t).utf8ByteSize := by omega
  simp [hshort]

theorem part_of_first {α : Type} {p : Page} {rows : List α} (hfirst : p.number.toInt ≤ 0)
    (hall : rows.length ≤ p.size.toInt) : p.part rows = rows := by
  have hzero : p.number.toInt.toNat = 0 := by omega
  rw [Page.part_eq, hzero, Nat.zero_mul, List.drop_zero]
  exact List.take_of_length_le (by omega)

/-- The first page, if it is long enough, shows all fields that the filter asks for. -/
theorem list_of_first {b : Board} (hb : b.Reachable)
    (hquiet : ∀ r ∈ b.store.fields, Statement.Fields.fault f r = none)
    (hfirst : f.page.number.toInt ≤ 0) (hall : b.store.fields.length ≤ f.page.size.toInt) :
    ∃ fields, list b.store f = .ok fields ∧ ∀ r ∈ b.store.fields, ∀ field,
      r.field? = some field → (field ∈ fields ↔ f.admits r = true) := by
  obtain ⟨fields, hlisting⟩ := exists_listing hb f
  obtain ⟨rows, hperm, _, hreads⟩ := id hlisting
  have hlength : fields.length ≤ b.store.fields.length := by
    rw [← List.length_map (f := some), ← hreads, List.length_map, hperm.length_eq]
    exact List.length_filter_le _ _
  have hsize := f.page.size.toInt_lt
  have hlist := list_eq hlisting (by omega) hquiet
  rw [part_of_first hfirst (by omega)] at hlist
  refine ⟨fields, hlist, fun r hr field hfield => ?_⟩
  rw [mem_iff_of_reads hreads]
  constructor
  · rintro ⟨r', hr', hfield'⟩
    obtain ⟨hmem, hadmits⟩ := List.mem_filter.1 (hperm.mem_iff.1 hr')
    have hid : r'.id = r.id := by
      rw [← FieldRow.id_of_field? hfield, FieldRow.id_of_field? hfield']
    exact List.inj_on_of_nodup_map hb.keyed.fields hmem hr hid ▸ hadmits
  · intro hadmits
    exact ⟨r, hperm.mem_iff.2 (List.mem_filter.2 ⟨hr, hadmits⟩), hfield⟩

/-- On a first page that is long enough, a term finds a field exactly if it occurs in its name when
it is in lower case and `A` and `a` are the same. A part of the name finds the field if both lower
cases of the part are the same. -/
theorem found_by_term {b : Board} (hb : b.Reachable) {r : FieldRow} (hr : r ∈ b.store.fields)
    (hteam : Text.nonBlank? f.teamId = none) (hterm : Text.nonBlank? f.term = some t)
    (hnul : '\x00' ∉ f.term.toList)
    (hpattern : (Statement.Fields.pattern t).utf8ByteSize ≤ Like.maxPatternSize)
    (hfirst : f.page.number.toInt ≤ 0) (hall : b.store.fields.length ≤ f.page.size.toInt) :
    ∃ field fields, r.field? = some field ∧ list b.store f = .ok fields ∧
      (field ∈ fields ↔ Like.folded (full t) <:+: Like.folded r.name) ∧
      (f.term.toList <:+: r.name.toList → '\x00' ∉ r.name.toList → full t = ascii t →
        field ∈ fields) := by
  obtain ⟨field, hfield⟩ := (hb.written.fields r hr).reads
  obtain ⟨fields, hlist, hmem⟩ :=
    list_of_first hb (fun r _ => fault_of_short hterm hpattern r) hfirst hall
  have hfound : field ∈ fields ↔ Like.folded (full t) <:+: Like.folded r.name :=
    (hmem r hr field hfield).trans (admits_term hteam hterm hnul r)
  refine ⟨field, fields, hfield, hlist, hfound, fun hpart hname hcase => hfound.2 ?_⟩
  have ht : t.toList <:+: r.name.toList := by
    obtain ⟨rfl, _⟩ := Text.nonBlank?_eq_some_iff.1 hterm
    exact (Text.trim_within f.term).trans hpart
  rw [hcase, Like.folded_ascii]
  exact Like.folded_within ht hname

/-- A field whose name has characters that mean something in a pattern, and one with an accent. -/
def signs : List Action := [
  .call (.createField { name := "A 10%_Off! B", type := "text" } "u"),
  .call (.createField { name := "État", type := "text" } "u")]

theorem signs_are_found : ∃ field fields, field.name = "A 10%_Off! B" ∧
    list (Board.run { now := 0 } signs).store { term := " 10%_Off! ", page := ⟨0, 2⟩ } = .ok fields ∧
    field ∈ fields := by
  have hr : ∃ r ∈ (Board.run { now := 0 } signs).store.fields, r.name = "A 10%_Off! B" := by
    decide +kernel
  obtain ⟨r, hr, hname⟩ := hr
  obtain ⟨field, fields, hfield, hlist, _, hpart⟩ := found_by_term
    (f := { term := " 10%_Off! ", page := ⟨0, 2⟩ }) (t := "10%_Off!") (Board.reachable_run 0 signs)
    hr (by decide +kernel) (by decide +kernel) (by decide +kernel) (by decide +kernel)
    (by decide +kernel) (by decide +kernel)
  refine ⟨field, fields, (FieldRow.name_of_field? hfield).trans hname, hlist, ?_⟩
  rw [hname] at hpart
  exact hpart (by decide +kernel) (by decide +kernel) (by decide +kernel)

/-- The name of the other field as a term. -/
def capital : FieldFilter :=
  { term := "État", page := ⟨0, 2⟩ }

/-- The term is the name itself, but only the term loses its capital. -/
theorem capital_is_missed : ∃ field fields, field.name = capital.term ∧
    (∃ r ∈ (Board.run { now := 0 } signs).store.fields, r.field? = some field) ∧
    list (Board.run { now := 0 } signs).store capital = .ok fields ∧ field ∉ fields := by
  have hb := Board.reachable_run 0 signs
  have hr : ∃ r ∈ (Board.run { now := 0 } signs).store.fields, r.name = capital.term := by
    decide +kernel
  obtain ⟨r, hr, hname⟩ := hr
  obtain ⟨field, hfield⟩ := (hb.written.fields r hr).reads
  have hterm : Text.nonBlank? capital.term = some capital.term := by decide +kernel
  have hquiet : ∀ r ∈ (Board.run { now := 0 } signs).store.fields,
      Statement.Fields.fault capital r = none :=
    fun r _ => fault_of_short hterm (by decide +kernel) r
  obtain ⟨fields, hlist, hmem⟩ := list_of_first hb hquiet (by decide +kernel) (by decide +kernel)
  refine ⟨field, fields, (FieldRow.name_of_field? hfield).trans hname, ⟨r, hr, hfield⟩, hlist, ?_⟩
  rw [hmem r hr field hfield, admits_term (by decide +kernel) hterm (by decide +kernel), hname]
  decide +kernel

end Fields
end PropertyBoard
