import PropertyBoard.Proofs.Sql.Template
import PropertyBoard.Statement.Fields
import PropertyBoard.Statement.Objects

/-!
# PropertyBoard.Proofs.Template

The parts of statements that are written by hand.

* `Objects.Clause.gives_template`: the text of a clause, made from the number of its texts, and its
  values, listed apart, give the condition of the clause, each value in its own place.
  `Objects.Clause.statement_exact`: so the clause by hand is the statement of its condition.
* `Fields.gives_nameTemplate`: the text by hand and the value of the condition on the name give it.
-/

namespace PropertyBoard
namespace Statement

open Sql Store Fragment

namespace Objects
namespace Clause

/-! ## Values -/

theorem params_oneOf {texts : List String} (h : texts ≠ []) :
    (oneOf texts).fragment.params = texts.map .text := by
  match texts with
  | [] => exact absurd rfl h
  | [t] => rfl
  | t :: u :: rest => exact Comparison.params_isIn valueColumn (by simp)

theorem params_wanted (fieldId : String) (texts : List String) :
    (wanted fieldId texts).fragment.params = .text fieldId :: texts.map .text := by
  cases texts with
  | nil => rfl
  | cons t rest =>
    simp [fragment, term, contains, Lookup.among, Lookup.here, params_oneOf]

/-- An unwanted field is named once more if it has to be there. -/
theorem params_unwanted (fieldId : String) (texts : List String) :
    (unwanted fieldId texts).fragment.params =
      if texts = [] then [.text fieldId] else .text fieldId :: .text fieldId :: texts.map .text := by
  cases texts with
  | nil => rfl
  | cons t rest =>
    simp [fragment, term, present, contains, Lookup.among, Lookup.here, params_oneOf]

theorem values_template (c : Clause) : c.template.values = c.fragment.params := by
  obtain ⟨f, _ | ⟨t, rest⟩⟩ | ⟨f, _ | ⟨t, rest⟩⟩ := c
  · rfl
  · exact (params_wanted f (t :: rest)).symm
  · rfl
  · exact (params_unwanted f (t :: rest)).symm

/-! ## Texts -/

/-- What is written of a held text that is looked for, up to the comparison with it. -/
def containsStart (fieldId : String) : Fragment := [
  .words "EXISTS (SELECT 1",
  .words (" FROM " ++ ", ".intercalate [entries.written, heldElements.written]), .words " WHERE ",
  .words ("f.key" ++ " = "), .hole (.text fieldId), .words " AND "]

theorem fragment_contains (fieldId : String) (texts : List String) :
    (Handwritten.hasRow (contains fieldId texts)).fragment =
      containsStart fieldId ++ ((oneOf texts).fragment ++ [.words ")"]) := by
  have hwhere : Fragment.joined " AND " (contains fieldId texts).comparisons =
      .words ("f.key" ++ " = ") :: .hole (.text fieldId) :: .words " AND " ::
        (oneOf texts).fragment := by
    show Fragment.joined " AND " [(Comparison.equals keyColumn (.text fieldId)).fragment,
      (oneOf texts).fragment] = _
    simp only [Fragment.joined, following, List.flatMap_cons, List.flatMap_nil, List.append_nil]
    rfl
  show .words _ :: .words _ :: .words _ :: (Fragment.joined _ _ ++ [.words ")"]) = _
  rw [hwhere]
  rfl

theorem text_present (fieldId : String) :
    (Handwritten.hasRow (present fieldId)).fragment.text = fieldPresent := by
  rfl

theorem text_oneOf {texts : List String} (h : texts ≠ []) :
    (oneOf texts).fragment.text =
      if texts.length = 1 then "x.value = ?"
      else "x.value IN (" ++ Template.placeholders texts.length ++ ")" := by
  match texts with
  | [] => exact absurd rfl h
  | [t] => rfl
  | t :: u :: rest =>
    have hmany : ¬(t :: u :: rest).length = 1 := by simp
    have hvalues := text_holes ((t :: u :: rest).map .text)
    rw [List.length_map] at hvalues
    rw [if_neg hmany, ← hvalues]
    show text (.words ("x.value" ++ " IN (") :: holes _ ++ [.words ")"]) = _
    rw [text_append, text_cons]
    rfl

theorem text_contains (fieldId : String) {texts : List String} (h : texts ≠ []) :
    (Handwritten.hasRow (contains fieldId texts)).fragment.text = containsText texts.length := by
  have hstart : text (containsStart fieldId) = fieldContains := by rfl
  have hend : text [.words ")"] = ")" := rfl
  rw [fragment_contains, text_append, text_append, hstart, hend, text_oneOf h, containsText]
  split
  · rfl
  · simp only [String.append_assoc]
    rfl

theorem text_template (c : Clause) : c.template.text = c.fragment.text := by
  obtain ⟨f, _ | ⟨t, rest⟩⟩ | ⟨f, _ | ⟨t, rest⟩⟩ := c
  · exact (text_present f).symm
  · exact (text_contains f (List.cons_ne_nil t rest)).symm
  · show _ = text (Handwritten.not _).fragment
    rw [Handwritten.text_not, text_present]
    rfl
  · have hwords (s : String) : " AND NOT " ++ s = " AND " ++ ("NOT " ++ s) := by
      rw [← String.append_assoc]
      rfl
    show "(" ++ fieldPresent ++ " AND NOT " ++ containsText _ ++ ")" =
      text (Handwritten.both _ _).fragment
    rw [Handwritten.text_both, Handwritten.text_not, text_present,
      text_contains f (List.cons_ne_nil t rest)]
    simp only [String.append_assoc, hwords]

/-! ## Holes -/

theorem quiet_entries : Quiet entries.written :=
  quiet_ofList (by decide) (by decide)

theorem quiet_heldElements : Quiet heldElements.written :=
  quiet_ofList (by decide) (by decide)

theorem settable_present (fieldId : String) :
    (Handwritten.hasRow (present fieldId)).fragment.Settable := by
  have hfrom : Quiet (" FROM " ++ ", ".intercalate [entries.written]) :=
    Quiet.append (by decide)
      (quiet_intercalate (by decide) (List.forall_mem_singleton.2 quiet_entries))
  exact ⟨by decide, hfrom, by decide, by decide, head?_close, settable_close⟩

theorem settable_oneOf {texts : List String} (h : texts ≠ []) :
    (oneOf texts).fragment.Settable := by
  match texts with
  | [] => exact absurd rfl h
  | [t] => exact ⟨by decide, by decide, trivial⟩
  | t :: u :: rest => exact ⟨by decide, (settable_holes _).append settable_close head?_close⟩

theorem head?_oneOf {texts : List String} (h : texts ≠ []) :
    (text ((oneOf texts).fragment ++ [.words ")"])).toList.head? ≠ some '?' := by
  rw [text_append, text_oneOf h]
  split
  · decide
  · simp

theorem settable_contains (fieldId : String) {texts : List String} (h : texts ≠ []) :
    (Handwritten.hasRow (contains fieldId texts)).fragment.Settable := by
  have hfrom : Quiet (" FROM " ++ ", ".intercalate [entries.written, heldElements.written]) :=
    Quiet.append (by decide) (quiet_intercalate (by decide)
      (List.forall_mem_cons.2 ⟨quiet_entries, List.forall_mem_singleton.2 quiet_heldElements⟩))
  have hstart : (containsStart fieldId).Settable :=
    ⟨by decide, hfrom, by decide, by decide, by decide, by decide, trivial⟩
  rw [fragment_contains]
  exact hstart.append ((settable_oneOf h).append settable_close head?_close) (head?_oneOf h)

theorem settable_fragment (c : Clause) : c.fragment.Settable := by
  obtain ⟨f, _ | ⟨t, rest⟩⟩ | ⟨f, _ | ⟨t, rest⟩⟩ := c
  · exact settable_present f
  · exact settable_contains f (List.cons_ne_nil t rest)
  · exact Handwritten.settable_not (settable_present f)
  · exact Handwritten.settable_both (settable_present f)
      (Handwritten.settable_not (settable_contains f (List.cons_ne_nil t rest)))

/-- The text of a clause by hand and its values, listed apart, give its condition. -/
theorem gives_template (c : Clause) : c.template.Gives c.fragment :=
  Template.gives_of_settable c.text_template c.values_template c.settable_fragment

/-- So the clause by hand, as a statement, is the statement of its condition. -/
theorem statement_exact (c : Clause) :
    c.statement.text = "SELECT " ++ c.fragment.text ∧ c.statement.params = c.fragment.params := by
  have hstatement : c.statement = .words "SELECT " :: c.fragment.spelled := by
    rw [statement, c.gives_template.set, Option.getD_some]
  rw [hstatement, text_cons, text_spelled, params_words, params_spelled]
  exact ⟨rfl, rfl⟩

end Clause
end Objects

/-- The text by hand of the condition on the name and its value give that condition. -/
theorem Fields.gives_nameTemplate (pattern : String) :
    (Fields.nameTemplate pattern).Gives (Fields.nameCondition pattern).fragment := by
  have hsettable : (Fields.nameCondition pattern).fragment.Settable :=
    ⟨by decide, by decide, by decide, trivial⟩
  exact Template.gives_of_settable rfl rfl hsettable

end Statement
end PropertyBoard
