import PropertyBoard.Value

/-!
# PropertyBoard.Proofs.Value

What values a field can hold.

* `Value.AsFirstSeen`: the order that leaving out repetitions gives (`distinct_asFirstSeen`).
* `Value.fromStored_of_parse`: a value that was parsed comes back from the list that is stored for it.
* `Value.conform_of_ofTexts`, `Value.ofTexts_conform`: conforming keeps what the field accepts, and
  what is left after it is accepted.
* `Value.Fits`: a list of texts that the field accepts as it stands. What parsing and conforming give
  fits (`fits_of_parse`, `fits_conform`).
* `Value.Shaped`: what such lists look like (`Fits.shaped`).
-/

namespace PropertyBoard

namespace Json

theorem textsFrom_texts (texts : List String) :
    ∀ (index : Nat) (done : List String),
      textsFrom index (texts.map str) done = .ok (done.reverse ++ texts) := by
  induction texts with
  | nil => intro index done; simp [textsFrom]
  | cons s rest ih => intro index done; simp [textsFrom, ih]

@[simp] theorem allTexts_texts (texts : List String) : allTexts (texts.map str) = .ok texts := by
  simp [allTexts, textsFrom_texts]

end Json

@[simp] theorem Field.offers_iff {f : Field} {s : String} : f.offers s = true ↔ s ∈ f.options := by
  simp [offers]

@[simp] theorem Field.offers_eq_false {f : Field} {s : String} :
    f.offers s = false ↔ s ∉ f.options := by
  simp [offers]

namespace Value

variable {f : Field} {texts : List String} {v : Value}

theorem distinctFrom_eq_self {seen : List String} (hnodup : texts.Nodup)
    (hnew : ∀ s ∈ texts, s ∉ seen) : distinctFrom seen texts = texts := by
  induction texts generalizing seen with
  | nil => rfl
  | cons s rest ih =>
    obtain ⟨hs, hrest⟩ := List.nodup_cons.1 hnodup
    have hseen : seen.contains s = false := by
      simpa using hnew s List.mem_cons_self
    rw [distinctFrom, hseen, if_neg Bool.false_ne_true, ih hrest]
    intro t ht hmem
    rcases List.mem_cons.1 hmem with rfl | hmem
    · exact hs ht
    · exact hnew t (List.mem_cons_of_mem _ ht) hmem

theorem distinct_eq_self (h : texts.Nodup) : distinct texts = texts :=
  distinctFrom_eq_self h fun _ _ => List.not_mem_nil

theorem distinct_distinct (texts : List String) : distinct (distinct texts) = distinct texts :=
  distinct_eq_self (nodup_distinct texts)

theorem distinct_ne_nil (h : texts ≠ []) : distinct texts ≠ [] := by
  obtain ⟨s, hs⟩ := List.exists_mem_of_ne_nil texts h
  exact List.ne_nil_of_mem (mem_distinct.2 hs)

theorem distinctFrom_sublist (seen texts : List String) :
    (distinctFrom seen texts).Sublist texts := by
  induction texts generalizing seen with
  | nil => exact List.Sublist.refl []
  | cons s rest ih =>
    simp only [distinctFrom]
    split
    · exact (ih seen).cons s
    · exact (ih (s :: seen)).cons_cons s

/-- Leaving out repetitions keeps the order. -/
theorem distinct_sublist (texts : List String) : (distinct texts).Sublist texts :=
  distinctFrom_sublist [] texts

/-- The texts of a list in the order in which they first come in another, each of them once. -/
def AsFirstSeen (texts chosen : List String) : Prop :=
  chosen.Pairwise fun s t => texts.idxOf s < texts.idxOf t

theorem distinctFrom_asFirstSeen (seen texts : List String) :
    AsFirstSeen texts (distinctFrom seen texts) := by
  induction texts generalizing seen with
  | nil => exact List.Pairwise.nil
  | cons s rest ih =>
    -- Behind the first text every other one comes one place later.
    have hlater : ∀ t, s ≠ t → (s :: rest).idxOf t = rest.idxOf t + 1 := by
      intro t hst
      rw [List.idxOf_cons, beq_eq_false_iff_ne.2 hst, cond_false]
    have hrest : ∀ seen', s ∈ seen' →
        (distinctFrom seen' rest).Pairwise fun t u =>
          (s :: rest).idxOf t < (s :: rest).idxOf u := by
      intro seen' hseen
      have hne : ∀ t ∈ distinctFrom seen' rest, s ≠ t := by
        rintro t ht rfl
        exact (mem_distinctFrom.1 ht).2 hseen
      refine (ih seen').imp_of_mem fun {t u} ht hu htu => ?_
      rw [hlater t (hne t ht), hlater u (hne u hu)]
      exact Nat.succ_lt_succ htu
    simp only [distinctFrom, List.contains_iff_mem]
    split
    · rename_i hs
      exact hrest seen hs
    · refine List.pairwise_cons.2 ⟨fun t ht => ?_, hrest (s :: seen) List.mem_cons_self⟩
      have hst : s ≠ t := by
        rintro rfl
        exact (mem_distinctFrom.1 ht).2 List.mem_cons_self
      rw [List.idxOf_cons_self, hlater t hst]
      exact Nat.succ_pos _

theorem distinct_asFirstSeen (texts : List String) : AsFirstSeen texts (distinct texts) :=
  distinctFrom_asFirstSeen [] texts

theorem AsFirstSeen.nodup {chosen : List String} (h : AsFirstSeen texts chosen) : chosen.Nodup := by
  refine List.Pairwise.imp ?_ h
  rintro s t hlt rfl
  exact Nat.lt_irrefl _ hlt

/-- There is one such list for each set of texts. -/
theorem AsFirstSeen.unique {left right : List String} (hleft : AsFirstSeen texts left)
    (hright : AsFirstSeen texts right) (hmem : ∀ s, s ∈ left ↔ s ∈ right) : left = right := by
  have hperm : left.Perm right := (List.perm_ext_iff_of_nodup hleft.nodup hright.nodup).2 hmem
  refine hperm.eq_of_pairwise ?_ hleft hright
  intro s t _ _ hst hts
  exact absurd (Nat.lt_trans hst hts) (Nat.lt_irrefl _)

/-! ## Parts of parsing -/

theorem single_eq_ok {type : FieldType} {s : String} : single type texts = .ok s ↔ texts = [s] := by
  match texts with
  | [] => simp [single]
  | [t] => simp [single]
  | t :: u :: rest => simp [single]

theorem reference_eq_ok {type : FieldType} {id : String} :
    reference type texts = .ok id ↔ ∃ s, texts = [s] ∧ Text.nonBlank? s = some id := by
  unfold reference
  cases hs : single type texts with
  | error e =>
    constructor
    · intro h
      cases h
    · rintro ⟨s, hs', _⟩
      rw [single_eq_ok.2 hs'] at hs
      cases hs
  | ok s =>
    have htexts := single_eq_ok.1 hs
    subst htexts
    cases hn : Text.nonBlank? s with
    | none => simp [bind, Except.bind, hn]
    | some id' => simp [bind, Except.bind, hn]

theorem choice_eq_ok {options : List String} :
    choice f texts = .ok options ↔ (∀ s ∈ texts, s ∈ f.options) ∧ options = distinct texts := by
  unfold choice
  cases h : texts.find? fun s => !f.offers s with
  | none =>
    have hall : ∀ s ∈ texts, s ∈ f.options := by
      simpa using h
    constructor
    · intro h'
      cases h'
      exact ⟨hall, rfl⟩
    · rintro ⟨_, rfl⟩
      rfl
  | some s =>
    have hs := List.find?_some h
    have hmem := List.mem_of_find?_eq_some h
    rw [Bool.not_eq_true', Field.offers_eq_false] at hs
    constructor
    · intro h'
      cases h'
    · rintro ⟨hall, _⟩
      exact absurd (hall s hmem) hs

theorem nonBlank?_of_nonBlank? {s t : String} (h : Text.nonBlank? s = some t) :
    Text.nonBlank? t = some t := by
  obtain ⟨rfl, hne⟩ := Text.nonBlank?_eq_some_iff.1 h
  exact Text.nonBlank?_eq_some_iff.2 ⟨(Text.trim_trim s).symm, hne⟩

@[simp] theorem ofTexts_nil (f : Field) : ofTexts f [] = .ok empty := rfl

theorem map_eq_ok {α β ε : Type} {x : Except ε α} {g : α → β} {b : β} :
    x.map g = .ok b ↔ ∃ a, x = .ok a ∧ b = g a := by
  cases x <;> simp [Except.map, eq_comm]

theorem map_reference_eq_ok {type : FieldType} {make : String → Value} :
    (reference type texts).map make = .ok v ↔
      ∃ s id, texts = [s] ∧ Text.nonBlank? s = some id ∧ v = make id := by
  simp only [map_eq_ok, reference_eq_ok]
  constructor
  · rintro ⟨id, ⟨s, hs, hid⟩, hv⟩
    exact ⟨s, id, hs, hid, hv⟩
  · rintro ⟨s, id, hs, hid, hv⟩
    exact ⟨id, ⟨s, hs, hid⟩, hv⟩

/-- When a list that is not empty is accepted, by the type of the field. -/
theorem ofTexts_eq_ok (h : texts ≠ []) :
    ofTexts f texts = .ok v ↔
      match f.type with
      | .text => ∃ s, texts = [s] ∧ v = text s
      | .user => ∃ s id, texts = [s] ∧ Text.nonBlank? s = some id ∧ v = user id
      | .post => ∃ s id, texts = [s] ∧ Text.nonBlank? s = some id ∧ v = post id
      | .select => (∀ s ∈ texts, s ∈ f.options) ∧ v = select (distinct texts) := by
  have hempty : texts.isEmpty = false := by
    simpa using h
  unfold ofTexts
  rw [hempty, if_neg Bool.false_ne_true]
  cases f.type with
  | text => simp [map_eq_ok, single_eq_ok]
  | user => exact map_reference_eq_ok
  | post => exact map_reference_eq_ok
  | select => simp [map_eq_ok, choice_eq_ok, and_assoc]

/-- What was accepted is accepted as it stands. -/
theorem ofTexts_toList (h : ofTexts f texts = .ok v) : ofTexts f v.toList = .ok v := by
  by_cases htexts : texts = []
  · rw [htexts, ofTexts_nil] at h
    cases h
    rfl
  · have hv := (ofTexts_eq_ok htexts).1 h
    cases htype : f.type with
    | text =>
      rw [htype] at hv
      obtain ⟨s, rfl, rfl⟩ := hv
      exact h
    | user =>
      rw [htype] at hv
      obtain ⟨s, id, rfl, hid, rfl⟩ := hv
      refine (ofTexts_eq_ok (by simp [toList])).2 ?_
      rw [htype]
      exact ⟨id, id, rfl, nonBlank?_of_nonBlank? hid, rfl⟩
    | post =>
      rw [htype] at hv
      obtain ⟨s, id, rfl, hid, rfl⟩ := hv
      refine (ofTexts_eq_ok (by simp [toList])).2 ?_
      rw [htype]
      exact ⟨id, id, rfl, nonBlank?_of_nonBlank? hid, rfl⟩
    | select =>
      rw [htype] at hv
      obtain ⟨hall, rfl⟩ := hv
      refine (ofTexts_eq_ok (distinct_ne_nil htexts)).2 ?_
      rw [htype]
      refine ⟨fun s hs => hall s (mem_distinct.1 hs), ?_⟩
      exact congrArg select (distinct_distinct texts).symm

theorem parse_texts (f : Field) (texts : List String) :
    parse f (texts.map .str) = ofTexts f texts := by
  simp [parse]

theorem parse_eq_ok {raw : List Json} :
    parse f raw = .ok v ↔ ∃ texts, Json.allTexts raw = .ok texts ∧ ofTexts f texts = .ok v := by
  unfold parse
  cases Json.allTexts raw <;> simp

/-! ## Values that are stored -/

theorem fromStored_select {stored : List String} (h : stored ≠ []) :
    fromStored .select stored = select (distinct stored) := by
  have hempty : stored.isEmpty = false := by
    simpa using h
  rw [fromStored, hempty, if_neg Bool.false_ne_true]

@[simp] theorem toList_fromStored_select (stored : List String) :
    (fromStored .select stored).toList = distinct stored := by
  cases stored with
  | nil => rfl
  | cons s rest => rfl

/-- A value that was accepted comes back from the list that is stored for it. -/
theorem fromStored_of_ofTexts (h : ofTexts f texts = .ok v) :
    fromStored f.type v.toList = v := by
  by_cases htexts : texts = []
  · rw [htexts, ofTexts_nil] at h
    cases h
    cases f.type <;> rfl
  · have hv := (ofTexts_eq_ok htexts).1 h
    cases htype : f.type with
    | text =>
      rw [htype] at hv
      obtain ⟨s, rfl, rfl⟩ := hv
      rfl
    | user =>
      rw [htype] at hv
      obtain ⟨s, id, rfl, _, rfl⟩ := hv
      rfl
    | post =>
      rw [htype] at hv
      obtain ⟨s, id, rfl, _, rfl⟩ := hv
      rfl
    | select =>
      rw [htype] at hv
      obtain ⟨_, rfl⟩ := hv
      -- What is stored has no repetitions any more, and is not empty.
      exact (fromStored_select (distinct_ne_nil htexts)).trans
        (congrArg select (distinct_distinct texts))

theorem fromStored_of_parse {raw : List Json} (h : parse f raw = .ok v) :
    fromStored f.type v.toList = v := by
  obtain ⟨_, _, h⟩ := parse_eq_ok.1 h
  exact fromStored_of_ofTexts h

theorem filter_offers (h : ∀ s ∈ texts, s ∈ f.options) : texts.filter f.offers = texts :=
  List.filter_eq_self.2 fun s hs => Field.offers_iff.2 (h s hs)

/-- Conforming keeps what the field accepts. -/
theorem conform_of_ofTexts (h : ofTexts f texts = .ok v) : conform f texts = v := by
  unfold conform
  split
  · rename_i htype
    by_cases htexts : texts = []
    · subst htexts
      rw [ofTexts_nil] at h
      cases h
      rfl
    · have hv := (ofTexts_eq_ok htexts).1 h
      rw [htype] at hv
      obtain ⟨hall, rfl⟩ := hv
      rw [filter_offers hall, fromStored_select htexts]
  · rw [h]

/-- What is left of a list after conforming is accepted as it stands. -/
theorem ofTexts_conform (f : Field) (stored : List String) :
    ofTexts f (conform f stored).toList = .ok (conform f stored) := by
  unfold conform
  split
  · rename_i htype
    by_cases hnone : stored.filter f.offers = []
    · rw [hnone]
      rfl
    · have hoffered : ∀ s ∈ stored.filter f.offers, s ∈ f.options :=
        fun s hs => Field.offers_iff.1 (List.mem_filter.1 hs).2
      have hok : ofTexts f (stored.filter f.offers) =
          .ok (select (distinct (stored.filter f.offers))) := by
        refine (ofTexts_eq_ok hnone).2 ?_
        rw [htype]
        exact ⟨hoffered, rfl⟩
      rw [fromStored_select hnone]
      exact ofTexts_toList hok
  · split
    · rename_i hok
      exact ofTexts_toList hok
    · rfl

/-! ## Lists that fit -/

def Fits (f : Field) (texts : List String) : Prop :=
  ∃ v, parse f (texts.map .str) = .ok v ∧ v.toList = texts

theorem fits_iff : Fits f texts ↔ ∃ v, ofTexts f texts = .ok v ∧ v.toList = texts := by
  simp only [Fits, parse_texts]

theorem fits_of_ofTexts (h : ofTexts f texts = .ok v) : Fits f v.toList :=
  fits_iff.2 ⟨v, ofTexts_toList h, rfl⟩

/-- What parsing gives fits the field. -/
theorem fits_of_parse {raw : List Json} (h : parse f raw = .ok v) : Fits f v.toList := by
  obtain ⟨_, _, h⟩ := parse_eq_ok.1 h
  exact fits_of_ofTexts h

theorem fits_empty (f : Field) : Fits f [] :=
  fits_iff.2 ⟨empty, rfl, rfl⟩

/-- What is left of a list after conforming fits the field. -/
theorem fits_conform (f : Field) (stored : List String) : Fits f (conform f stored).toList :=
  fits_of_ofTexts (ofTexts_conform f stored)

/-- Fields of one type accept the same lists, but for the options. -/
theorem Fits.of_same_type {g : Field} (h : Fits f texts) (htype : g.type = f.type)
    (hoptions : f.type = .select → ∀ s ∈ texts, s ∈ g.options) : Fits g texts := by
  by_cases htexts : texts = []
  · rw [htexts]
    exact fits_empty g
  · obtain ⟨v, hv, hlist⟩ := fits_iff.1 h
    have hf := (ofTexts_eq_ok htexts).1 hv
    refine fits_iff.2 ⟨v, (ofTexts_eq_ok htexts).2 ?_, hlist⟩
    rw [htype]
    cases hkind : f.type with
    | select =>
      rw [hkind] at hf
      exact ⟨hoptions hkind, hf.2⟩
    | _ =>
      rw [hkind] at hf
      exact hf

/-- A fitting list of a `select` field has each text once, and all are options of the field. -/
theorem fits_select (h : Fits f texts) (htype : f.type = .select) :
    texts.Nodup ∧ ∀ s ∈ texts, s ∈ f.options := by
  obtain ⟨v, hv, hlist⟩ := fits_iff.1 h
  by_cases htexts : texts = []
  · simp [htexts]
  · have hok := (ofTexts_eq_ok htexts).1 hv
    rw [htype] at hok
    obtain ⟨hall, rfl⟩ := hok
    refine ⟨?_, hall⟩
    rw [← hlist]
    exact nodup_distinct texts

theorem fits_text (h : Fits f texts) (htype : f.type = .text) : texts.length ≤ 1 := by
  obtain ⟨v, hv, _⟩ := fits_iff.1 h
  by_cases htexts : texts = []
  · simp [htexts]
  · have hok := (ofTexts_eq_ok htexts).1 hv
    rw [htype] at hok
    obtain ⟨s, rfl, _⟩ := hok
    simp

/-- A fitting list of a field of users or posts has at most one text, which is trimmed and not
blank. -/
theorem fits_reference (h : Fits f texts) (htype : f.type = .user ∨ f.type = .post) :
    texts.length ≤ 1 ∧ ∀ s ∈ texts, Text.trim s = s ∧ s ≠ "" := by
  obtain ⟨v, hv, hlist⟩ := fits_iff.1 h
  by_cases htexts : texts = []
  · simp [htexts]
  · have hok := (ofTexts_eq_ok htexts).1 hv
    have hone : ∃ s, texts = [s] ∧ Text.nonBlank? s = some s := by
      rcases htype with htype | htype
      · rw [htype] at hok
        obtain ⟨s, id, rfl, hid, rfl⟩ := hok
        obtain rfl : id = s := by simpa [toList] using hlist
        exact ⟨id, rfl, hid⟩
      · rw [htype] at hok
        obtain ⟨s, id, rfl, hid, rfl⟩ := hok
        obtain rfl : id = s := by simpa [toList] using hlist
        exact ⟨id, rfl, hid⟩
    obtain ⟨s, rfl, hs⟩ := hone
    obtain ⟨htrim, hne⟩ := Text.nonBlank?_eq_some_iff.1 hs
    simpa using ⟨htrim.symm, hne⟩

/-- What the lists of a field look like, by its type. -/
def Shaped (f : Field) (texts : List String) : Prop :=
  match f.type with
  | .select => texts.Nodup ∧ ∀ s ∈ texts, s ∈ f.options
  | .text => texts.length ≤ 1
  | .user => texts.length ≤ 1 ∧ ∀ s ∈ texts, Text.trim s = s ∧ s ≠ ""
  | .post => texts.length ≤ 1 ∧ ∀ s ∈ texts, Text.trim s = s ∧ s ≠ ""

theorem Fits.shaped (h : Fits f texts) : Shaped f texts := by
  unfold Shaped
  split
  · rename_i htype
    exact fits_select h htype
  · rename_i htype
    exact fits_text h htype
  · rename_i htype
    exact fits_reference h (.inl htype)
  · rename_i htype
    exact fits_reference h (.inr htype)

end Value
end PropertyBoard
