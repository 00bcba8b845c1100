import PropertyBoard.Proofs.Parsing

/-!
# PropertyBoard.Proofs.Retained

What conforming keeps of a stored list.

* `Value.distinct_filter`: leaving out repetitions and leaving out texts can change places.
* `Value.toList_conform_select`: a list of options keeps those that the field still offers.
* `Value.conform_conform_select`: options dropped one set after the other are dropped at once.
* `Value.conform_exact`: what is left is accepted, conforms to itself, is all that fitted, and does not
  depend on the way the options went.
-/

namespace PropertyBoard
namespace Value

variable {f : Field} {stored : List String}

/-- Texts that are left out anyway need not be remembered as seen. -/
theorem distinctFrom_filter {p : String → Bool} {seen seen' : List String}
    (h : ∀ s, p s = true → (s ∈ seen ↔ s ∈ seen')) (texts : List String) :
    distinctFrom seen (texts.filter p) = (distinctFrom seen' texts).filter p := by
  induction texts generalizing seen seen' with
  | nil => rfl
  | cons s rest ih =>
    by_cases hp : p s = true
    · have hcons : ∀ t, p t = true → (t ∈ s :: seen ↔ t ∈ s :: seen') := by
        intro t ht
        simp only [List.mem_cons, h t ht]
      by_cases hs : s ∈ seen'
      · simp [distinctFrom, hp, hs, h s hp, ih h]
      · simp [distinctFrom, hp, hs, h s hp, ih hcons]
    · by_cases hs : s ∈ seen'
      · simp [distinctFrom, hp, hs, ih h]
      · have hskip : ∀ t, p t = true → (t ∈ seen ↔ t ∈ s :: seen') := by
          intro t ht
          have hts : t ≠ s := by
            rintro rfl
            exact hp ht
          simp [hts, h t ht]
        simp [distinctFrom, hp, hs, ih hskip]

theorem distinct_filter (p : String → Bool) (texts : List String) :
    distinct (texts.filter p) = (distinct texts).filter p :=
  distinctFrom_filter (fun _ _ => Iff.rfl) texts

theorem fromStored_distinct (texts : List String) :
    fromStored .select (distinct texts) = fromStored .select texts := by
  by_cases h : texts = []
  · rw [h]
    rfl
  · rw [fromStored_select h, fromStored_select (distinct_ne_nil h), distinct_distinct]

/-! ## Options -/

theorem conform_select (htype : f.type = .select) (stored : List String) :
    conform f stored = fromStored .select (stored.filter f.offers) := by
  rw [conform, htype]

theorem toList_conform_select (htype : f.type = .select) (stored : List String) :
    (conform f stored).toList = (distinct stored).filter f.offers := by
  rw [conform_select htype, toList_fromStored_select, distinct_filter]

theorem mem_conform_select (htype : f.type = .select) {s : String} :
    s ∈ (conform f stored).toList ↔ s ∈ stored ∧ s ∈ f.options := by
  rw [toList_conform_select htype, List.mem_filter, mem_distinct, Field.offers_iff]

theorem asFirstSeen_conform (htype : f.type = .select) (stored : List String) :
    AsFirstSeen stored (conform f stored).toList := by
  rw [toList_conform_select htype]
  exact (distinct_asFirstSeen stored).filter _

/-- Conforming to one field and then to another is conforming to one that offers what both offer. -/
theorem conform_conform_select {g both : Field} (hf : f.type = .select) (hg : g.type = .select)
    (hboth : both.type = .select)
    (hoptions : ∀ s, s ∈ both.options ↔ s ∈ f.options ∧ s ∈ g.options) (stored : List String) :
    conform g (conform f stored).toList = conform both stored := by
  have hoffers : ∀ s, (g.offers s && f.offers s) = both.offers s := by
    intro s
    rw [Bool.eq_iff_iff]
    simp [hoptions s, and_comm]
  have hsame : ((distinct stored).filter f.offers).filter g.offers =
      distinct (stored.filter both.offers) := by
    rw [List.filter_filter, distinct_filter]
    exact List.filter_congr fun s _ => hoffers s
  rw [conform_select hg, toList_conform_select hf, hsame, fromStored_distinct,
    conform_select hboth]

/-! ## All of it -/

theorem conform_of_error {fault : Invalid} (htype : f.type ≠ .select)
    (h : ofTexts f stored = .error fault) : conform f stored = empty := by
  unfold conform
  split
  · rename_i hselect
    exact absurd hselect htype
  · rw [h]

/-- What conforming leaves of any stored list. A field with options keeps all of them that it still
offers, in their order, whatever happened to the other options in between; the other fields keep all
or nothing. -/
theorem conform_exact (f : Field) (stored : List String) :
    parse f ((conform f stored).toList.map .str) = .ok (conform f stored) ∧
      conform f (conform f stored).toList = conform f stored ∧
      (∀ v, parse f (stored.map .str) = .ok v → conform f stored = v) ∧
      (f.type ≠ .select → ∀ fault, parse f (stored.map .str) = .error fault →
        conform f stored = empty) ∧
      (f.type = .select →
        (∀ s, s ∈ (conform f stored).toList ↔ s ∈ stored ∧ s ∈ f.options) ∧
          AsFirstSeen stored (conform f stored).toList ∧
          ∀ g both : Field, g.type = .select → both.type = .select →
            (∀ s, s ∈ both.options ↔ s ∈ f.options ∧ s ∈ g.options) →
              conform g (conform f stored).toList = conform both stored) := by
  simp only [parse_texts]
  refine ⟨ofTexts_conform f stored, conform_of_ofTexts (ofTexts_conform f stored),
    fun _ => conform_of_ofTexts, fun htype _ => conform_of_error htype, fun htype => ?_⟩
  refine ⟨fun _ => mem_conform_select htype, asFirstSeen_conform htype stored, ?_⟩
  intro g both hg hboth hoptions
  exact conform_conform_select htype hg hboth hoptions stored

/-- Labels that were chosen before the field changed: one is no longer offered, one comes twice. -/
theorem labels_after_two_changes :
    conform labels ["urgent", "late", "low", "urgent"] = select ["urgent", "low"] ∧
      conform { labels with options := ["low", "late"] }
          (conform labels ["urgent", "late", "low", "urgent"]).toList =
        conform { labels with options := ["low"] } ["urgent", "late", "low", "urgent"] := by
  have hoptions : ∀ s, s ∈ ["low"] ↔ s ∈ labels.options ∧ s ∈ ["low", "late"] := by
    intro s
    simp only [labels, List.mem_cons, List.not_mem_nil, or_false]
    constructor
    · rintro rfl
      exact ⟨.inl rfl, .inl rfl⟩
    · rintro ⟨hs, rfl | rfl⟩
      · rfl
      · exact absurd hs (by decide)
  obtain ⟨_, _, _, _, hselect⟩ := conform_exact labels ["urgent", "late", "low", "urgent"]
  obtain ⟨_, _, hboth⟩ := hselect rfl
  exact ⟨rfl, hboth { labels with options := ["low", "late"] } { labels with options := ["low"] }
    rfl rfl hoptions⟩

end Value
end PropertyBoard
