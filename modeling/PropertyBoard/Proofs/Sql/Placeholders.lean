import PropertyBoard.Proofs.Sql.Params

/-!
# PropertyBoard.Proofs.Sql.Placeholders

What the text of a statement depends on, and which value each question mark in it stands for.

* `Fragment.form`: the words of a fragment and where its holes stand, without the values. Fragments
  of one form have one text (`text_eq_of_form`).
* `Unmarked`: a text without a question mark. `Fragment.Plain`: all words are such. Then the text
  holds one for each value (`count_text`), and values that are put in for the question marks, from
  left to right, come to stand in their own holes (`filled_text`).
* `Comparison`, `Join`, `Lookup`, `Handwritten`: the same for the parts of conditions.
* `Condition.shape`: what a condition gives to the form of a statement (`form_whereClause_eq`,
  `Select.form_fragment_eq`, `Update.form_fragment_eq`).
-/

namespace PropertyBoard
namespace Sql

/-- What two lists agree in, they agree in all that it tells. -/
theorem map_eq_of_map_eq {α β γ : Type} {f : α → β} {g : α → γ}
    (hfg : ∀ a b, f a = f b → g a = g b) :
    ∀ {as bs : List α}, as.map f = bs.map f → as.map g = bs.map g
  | [], [], _ => rfl
  | a :: as, b :: bs, h => by
    obtain ⟨hhead, htail⟩ := List.cons_eq_cons.1 h
    rw [List.map_cons, List.map_cons, hfg a b hhead, map_eq_of_map_eq hfg htail]

theorem both_or_neither {α : Type} {o o' : Option α} (h : o.isSome = o'.isSome) :
    (o = none ∧ o' = none) ∨ ∃ a a', o = some a ∧ o' = some a' := by
  cases o with
  | none =>
    cases o' with
    | none => exact .inl ⟨rfl, rfl⟩
    | some a' => cases h
  | some a =>
    cases o' with
    | none => cases h
    | some a' => exact .inr ⟨a, a', rfl, rfl⟩

/-! ## Texts without a question mark -/

def Unmarked (s : String) : Prop :=
  '?' ∉ s.toList

instance (s : String) : Decidable (Unmarked s) :=
  inferInstanceAs (Decidable ('?' ∉ s.toList))

/-- For a text that is written out: its characters are compared without reading its octets. -/
theorem unmarked_ofList {cs : List Char} (h : '?' ∉ cs) : Unmarked (String.ofList cs) := by
  unfold Unmarked
  rwa [String.toList_ofList]

@[simp] theorem unmarked_append {s t : String} :
    Unmarked (s ++ t) ↔ Unmarked s ∧ Unmarked t := by
  unfold Unmarked
  rw [String.toList_append, List.mem_append, not_or]

@[simp] theorem unmarked_quoted {name : String} : Unmarked (quoted name) ↔ Unmarked name := by
  have hquote : Unmarked "\"" := by decide
  simp [quoted, hquote]

theorem unmarked_intercalate {separator : String} (hs : Unmarked separator) :
    ∀ {texts : List String}, (∀ t ∈ texts, Unmarked t) →
      Unmarked (separator.intercalate texts)
  | [], _ => by
    rw [String.intercalate_nil]
    decide
  | [t], h => by simpa using h
  | t :: u :: rest, h => by
    obtain ⟨ht, hrest⟩ := List.forall_mem_cons.1 h
    rw [String.intercalate_cons_cons]
    exact unmarked_append.2 ⟨unmarked_append.2 ⟨ht, hs⟩, unmarked_intercalate hs hrest⟩

namespace Piece

/-- A hole has no words. -/
def words? : Piece → Option String
  | words s => some s
  | hole _ => none

/-- The characters of a piece where the value of a hole is written out. -/
def rendered (write : Param → List Char) : Piece → List Char
  | words s => s.toList
  | hole p => write p

end Piece

namespace Fragment

def form (f : Fragment) : List (Option String) :=
  f.map Piece.words?

def rendered (write : Param → List Char) (f : Fragment) : List Char :=
  f.flatMap (Piece.rendered write)

/-- The characters with the given ones put in for each question mark, from left to right. -/
def filled : List Char → List (List Char) → List Char
  | [], _ => []
  | c :: cs, vs =>
    if c = '?' then
      match vs with
      | v :: rest => v ++ filled cs rest
      | [] => c :: filled cs []
    else c :: filled cs vs

/-! ## Forms -/

@[simp] theorem form_append (f g : Fragment) : form (f ++ g) = f.form ++ g.form :=
  List.map_append

@[simp] theorem form_cons (piece : Piece) (f : Fragment) :
    form (piece :: f) = piece.words? :: form f := rfl

theorem text_eq_join (f : Fragment) :
    f.text = String.join (f.form.map fun w => w.getD "?") := by
  induction f with
  | nil => rfl
  | cons piece f ih =>
    have hpiece : piece.text = piece.words?.getD "?" := by cases piece <;> rfl
    rw [text_cons, ih, hpiece, form_cons, List.map_cons, String.join_cons]

theorem text_eq_of_form {f g : Fragment} (h : f.form = g.form) : f.text = g.text := by
  rw [text_eq_join, text_eq_join, h]

theorem form_following (separator : String) (fs : List Fragment) :
    (following separator fs).form = (fs.map form).flatMap fun w => some separator :: w := by
  induction fs with
  | nil => rfl
  | cons f rest ih =>
    rw [following, List.flatMap_cons, form_append, ← following, ih]
    rfl

theorem form_joined_eq {fs gs : List Fragment} (separator : String)
    (h : fs.map form = gs.map form) :
    (joined separator fs).form = (joined separator gs).form := by
  cases fs with
  | nil =>
    cases gs with
    | nil => rfl
    | cons g gs => cases h
  | cons f fs =>
    cases gs with
    | nil => cases h
    | cons g gs =>
      obtain ⟨hhead, htail⟩ := List.cons_eq_cons.1 h
      simp only [joined, form_append, form_following, hhead]
      rw [htail]

/-- A list of holes is told by its length. -/
theorem form_holes_eq {ps qs : List Param} (h : ps.length = qs.length) :
    (holes ps).form = (holes qs).form := by
  refine form_joined_eq _ ?_
  simp only [List.map_map]
  show ps.map (fun _ => [none]) = qs.map (fun _ => [none])
  rw [List.map_const', List.map_const', h]

/-! ## Question marks -/

/-- The words of a fragment hold no question mark. -/
def Plain (f : Fragment) : Prop :=
  ∀ s ∈ f.form.filterMap id, Unmarked s

instance (f : Fragment) : Decidable f.Plain :=
  inferInstanceAs (Decidable (∀ s ∈ f.form.filterMap id, Unmarked s))

theorem Plain.of_form {f g : Fragment} (hg : g.Plain) (h : f.form = g.form) : f.Plain := by
  unfold Plain
  rw [h]
  exact hg

@[simp] theorem plain_nil : Plain [] :=
  fun _ h => nomatch h

@[simp] theorem plain_words {s : String} {f : Fragment} :
    Plain (.words s :: f) ↔ Unmarked s ∧ Plain f := by
  exact List.forall_mem_cons

@[simp] theorem plain_hole {p : Param} {f : Fragment} : Plain (.hole p :: f) ↔ Plain f :=
  Iff.rfl

@[simp] theorem plain_append {f g : Fragment} : Plain (f ++ g) ↔ Plain f ∧ Plain g := by
  unfold Plain
  rw [form_append, List.filterMap_append, List.forall_mem_append]

theorem plain_following {separator : String} (hs : Unmarked separator) {fs : List Fragment}
    (h : ∀ f ∈ fs, f.Plain) : (following separator fs).Plain := by
  induction fs with
  | nil => exact plain_nil
  | cons f rest ih =>
    obtain ⟨hf, hrest⟩ := List.forall_mem_cons.1 h
    rw [following, List.flatMap_cons, ← following, plain_append, plain_words]
    exact ⟨⟨hs, hf⟩, ih hrest⟩

theorem plain_joined {separator : String} (hs : Unmarked separator) {fs : List Fragment}
    (h : ∀ f ∈ fs, f.Plain) : (joined separator fs).Plain := by
  cases fs with
  | nil => exact plain_nil
  | cons f rest =>
    obtain ⟨hf, hrest⟩ := List.forall_mem_cons.1 h
    exact plain_append.2 ⟨hf, plain_following hs hrest⟩

@[simp] theorem plain_holes (ps : List Param) : (holes ps).Plain := by
  refine plain_joined (by decide) ?_
  intro f hf
  obtain ⟨p, _, rfl⟩ := List.mem_map.1 hf
  exact plain_nil

@[simp] theorem plain_parenthesised {f : Fragment} : f.parenthesised.Plain ↔ f.Plain := by
  have hopen : Unmarked "(" := by decide
  have hclose : Unmarked ")" := by decide
  simp [parenthesised, hopen, hclose]

theorem count_text {f : Fragment} (h : f.Plain) :
    f.text.toList.count '?' = f.params.length := by
  induction f with
  | nil => rfl
  | cons piece f ih =>
    rw [text_cons, String.toList_append, List.count_append]
    cases piece with
    | words s =>
      obtain ⟨hs, hf⟩ := plain_words.1 h
      rw [ih hf, params_words, Piece.text, List.count_eq_zero.2 hs, Nat.zero_add]
    | hole p =>
      rw [ih (plain_hole.1 h), params_hole, List.length_cons, Nat.add_comm]
      simp [Piece.text]

theorem filled_of_ne {c : Char} (h : c ≠ '?') (cs : List Char) (vs : List (List Char)) :
    filled (c :: cs) vs = c :: filled cs vs := by
  cases vs <;> simp [filled, h]

theorem filled_append {cs : List Char} (h : '?' ∉ cs) (rest : List Char)
    (vs : List (List Char)) : filled (cs ++ rest) vs = cs ++ filled rest vs := by
  induction cs with
  | nil => rfl
  | cons c cs ih =>
    simp only [List.mem_cons, not_or] at h
    obtain ⟨hc, hcs⟩ := h
    rw [List.cons_append, filled_of_ne (Ne.symm hc), ih hcs, List.cons_append]

/-- Each question mark stands for the value of its own hole. -/
theorem filled_text {f : Fragment} (h : f.Plain) (write : Param → List Char) :
    filled f.text.toList (f.params.map write) = f.rendered write := by
  induction f with
  | nil => rfl
  | cons piece f ih =>
    rw [text_cons, String.toList_append, rendered, List.flatMap_cons, ← rendered]
    cases piece with
    | words s =>
      obtain ⟨hs, hf⟩ := plain_words.1 h
      rw [← ih hf]
      exact filled_append hs _ _
    | hole p =>
      rw [← ih (plain_hole.1 h), params_hole, List.map_cons]
      simp [Piece.text, Piece.rendered, filled]

end Fragment

namespace Column

variable {ρ σ : Type}

def Plain (c : Column ρ) : Prop :=
  Unmarked c.label

instance (c : Column ρ) : Decidable c.Plain :=
  inferInstanceAs (Decidable (Unmarked c.label))

theorem Plain.within {c : Column ρ} (h : c.Plain) {table : String} (htable : Unmarked table)
    (part : σ → ρ) : (c.within table part).Plain := by
  have hdot : Unmarked "." := by decide
  exact unmarked_append.2 ⟨unmarked_append.2 ⟨unmarked_quoted.2 htable, hdot⟩, h⟩

theorem unmarked_labels {columns : List (Column ρ)} (h : ∀ c ∈ columns, c.Plain) :
    Unmarked (", ".intercalate (columns.map Column.label)) := by
  refine unmarked_intercalate (by decide) ?_
  intro label hlabel
  obtain ⟨c, hc, rfl⟩ := List.mem_map.1 hlabel
  exact h c hc

end Column

theorem SortBy.plain_fragment {ρ : Type} {s : SortBy ρ} (h : s.column.Plain) :
    s.fragment.Plain := by
  have hdirection : Unmarked (if s.descending then " DESC" else " ASC") := by
    split <;> decide
  exact Fragment.plain_words.2 ⟨unmarked_append.2 ⟨h, hdirection⟩, Fragment.plain_nil⟩

namespace Comparison

variable {ρ : Type}

open Fragment

/-- A list of values is told by its length. -/
theorem form_isIn_eq {column : Column ρ} {vs ws : List Param} (h : vs.length = ws.length) :
    (isIn column vs).fragment.form = (isIn column ws).fragment.form := by
  match vs, ws with
  | [], [] => rfl
  | v :: vs, w :: ws =>
    simp only [fragment, List.isEmpty_cons, Bool.false_eq_true, if_false, List.cons_append,
      form_cons, form_append, form_holes_eq h]

theorem plain_equals {column : Column ρ} (h : column.Plain) (value : Param) :
    (equals column value).fragment.Plain :=
  plain_words.2 ⟨unmarked_append.2 ⟨h, by decide⟩, plain_nil⟩

theorem plain_differs {column : Column ρ} (h : column.Plain) (value : Param) :
    (differs column value).fragment.Plain :=
  plain_words.2 ⟨unmarked_append.2 ⟨h, by decide⟩, plain_nil⟩

theorem plain_isIn {column : Column ρ} (h : column.Plain) (values : List Param) :
    (isIn column values).fragment.Plain := by
  have hopen : Unmarked (column.label ++ " IN (") := unmarked_append.2 ⟨h, by decide⟩
  have hclose : Plain [.words ")"] := plain_words.2 ⟨by decide, plain_nil⟩
  simp only [fragment]
  split
  · decide
  · exact plain_append.2 ⟨plain_words.2 ⟨hopen, plain_holes values⟩, hclose⟩

theorem unmarked_agrees {left right : Column ρ} (hleft : left.Plain) (hright : right.Plain) :
    Unmarked (left.label ++ " = " ++ right.label) :=
  unmarked_append.2 ⟨unmarked_append.2 ⟨hleft, by decide⟩, hright⟩

theorem plain_agrees {left right : Column ρ} (hleft : left.Plain) (hright : right.Plain) :
    (agrees left right).fragment.Plain :=
  plain_words.2 ⟨unmarked_agrees hleft hright, plain_nil⟩

end Comparison

theorem Join.unmarked_source {ρ σ : Type} {j : Join ρ σ} (hleft : Unmarked j.left)
    (hright : Unmarked j.right) (hleftColumn : j.leftColumn.Plain)
    (hrightColumn : j.rightColumn.Plain) : Unmarked j.source := by
  have hon := Comparison.unmarked_agrees (hleftColumn.within hleft (Prod.fst : ρ × σ → ρ))
    (hrightColumn.within hright (Prod.snd : ρ × σ → σ))
  have hjoin : Unmarked " INNER JOIN " := by decide
  have hword : Unmarked " ON " := by decide
  simp only [source, on, Comparison.fragment, Fragment.text_cons, Piece.text, unmarked_append,
    unmarked_quoted]
  exact ⟨⟨⟨⟨hleft, hjoin⟩, hright⟩, hword⟩, by simpa using hon, by decide⟩

namespace Lookup

variable {ρ σ : Type}

open Fragment

/-- What a subquery gives to the form of a statement. -/
def shape (l : Lookup ρ) : List String × List (List (Option String)) :=
  (l.sources, l.comparisons.map form)

theorem form_fragment_eq {l l' : Lookup ρ} (h : l.shape = l'.shape) :
    l.fragment.form = l'.fragment.form := by
  obtain ⟨hsources, hcomparisons⟩ := Prod.mk.inj h
  have hempty : l.comparisons.isEmpty = l'.comparisons.isEmpty := by
    rw [← List.isEmpty_map (f := form), hcomparisons, List.isEmpty_map]
  unfold fragment
  rw [form_cons, form_cons, hsources, hempty]
  split
  · rfl
  · rw [form_cons, form_cons, form_joined_eq _ hcomparisons]

structure Plain (l : Lookup ρ) : Prop where
  sources : ∀ s ∈ l.sources, Unmarked s
  comparisons : ∀ f ∈ l.comparisons, f.Plain

theorem plain_here : (here : Lookup ρ).Plain :=
  ⟨List.forall_mem_nil _, List.forall_mem_nil _⟩

theorem plain_among {relation : Relation ρ σ} (hwritten : Unmarked relation.written)
    {comparisons : List (Comparison (ρ × σ))} (hcomparisons : ∀ c ∈ comparisons, c.fragment.Plain)
    {rest : Lookup (ρ × σ)} (hrest : rest.Plain) : (among relation comparisons rest).Plain := by
  refine ⟨List.forall_mem_cons.2 ⟨hwritten, hrest.sources⟩, ?_⟩
  intro f hf
  rcases List.mem_append.1 hf with hf | hf
  · obtain ⟨c, hc, rfl⟩ := List.mem_map.1 hf
    exact hcomparisons c hc
  · exact hrest.comparisons f hf

theorem plain_fragment {l : Lookup ρ} (h : l.Plain) : l.fragment.Plain := by
  have hsources : Unmarked (" FROM " ++ ", ".intercalate l.sources) :=
    unmarked_append.2 ⟨by decide, unmarked_intercalate (by decide) h.sources⟩
  refine plain_words.2 ⟨hsources, ?_⟩
  split
  · exact plain_nil
  · exact plain_words.2 ⟨by decide, plain_joined (by decide) h.comparisons⟩

end Lookup

namespace Handwritten

variable {ρ : Type}

open Fragment

theorem form_hasRow_eq {l l' : Lookup ρ} (h : l.shape = l'.shape) :
    (hasRow l).fragment.form = (hasRow l').fragment.form := by
  simp only [fragment, List.cons_append, form_cons, form_append, Lookup.form_fragment_eq h]

theorem form_not_eq {c d : Handwritten ρ} (h : c.fragment.form = d.fragment.form) :
    (not c).fragment.form = (not d).fragment.form := by
  simp only [fragment, form_cons, h]

theorem form_both_eq {a b c d : Handwritten ρ} (hleft : a.fragment.form = c.fragment.form)
    (hright : b.fragment.form = d.fragment.form) :
    (both a b).fragment.form = (both c d).fragment.form := by
  simp only [fragment, List.cons_append, form_cons, form_append, hleft, hright]

theorem plain_like {column : Column ρ} (h : column.Plain) (pattern : String) :
    (like column pattern).fragment.Plain := by
  have hlower : Unmarked ("LOWER(" ++ column.label ++ ") LIKE ") :=
    unmarked_append.2 ⟨unmarked_append.2 ⟨by decide, h⟩, by decide⟩
  exact plain_words.2 ⟨hlower, plain_words.2 ⟨by decide, plain_nil⟩⟩

theorem plain_hasRow {l : Lookup ρ} (h : l.Plain) : (hasRow l).fragment.Plain := by
  have hclose : Plain [.words ")"] := plain_words.2 ⟨by decide, plain_nil⟩
  exact plain_append.2 ⟨plain_words.2 ⟨by decide, Lookup.plain_fragment h⟩, hclose⟩

theorem plain_not {c : Handwritten ρ} (h : c.fragment.Plain) : (not c).fragment.Plain :=
  plain_words.2 ⟨by decide, h⟩

theorem plain_both {a b : Handwritten ρ} (ha : a.fragment.Plain) (hb : b.fragment.Plain) :
    (both a b).fragment.Plain := by
  simp only [fragment, List.cons_append, plain_words, plain_append]
  exact ⟨by decide, ⟨ha, by decide, hb⟩, by decide, plain_nil⟩

end Handwritten

namespace Condition

variable {ρ : Type}

open Fragment

/-- What a condition gives to the form of a statement. -/
def shape (c : Condition ρ) : Bool × List (Option String) :=
  (c.isPlain, c.fragment.form)

theorem form_operand_eq {c d : Condition ρ} (h : c.shape = d.shape) :
    (c.operand c.fragment).form = (d.operand d.fragment).form := by
  obtain ⟨hplain, hform⟩ := Prod.mk.inj h
  unfold operand
  rw [hplain]
  split
  · exact hform
  · simp only [parenthesised, List.cons_append, form_cons, form_append, hform]

theorem form_conjunction_eq {cs ds : List (Condition ρ)} (h : cs.map shape = ds.map shape) :
    (conjunction cs).form = (conjunction ds).form := by
  match cs, ds with
  | [], [] => rfl
  | [c], [d] => exact (Prod.mk.inj (List.cons_eq_cons.1 h).1).2
  | c :: c' :: cs, d :: d' :: ds =>
    simp only [conjunction]
    refine form_joined_eq _ ?_
    rw [List.map_map, List.map_map]
    exact map_eq_of_map_eq (fun _ _ hsame => form_operand_eq hsame) h
  | [], d :: ds => cases h
  | c :: cs, [] => cases h
  | [c], d :: d' :: ds => cases (List.cons_eq_cons.1 h).2
  | c :: c' :: cs, [d] => cases (List.cons_eq_cons.1 h).2

theorem form_whereClause_eq {cs ds : List (Condition ρ)} (h : cs.map shape = ds.map shape) :
    (whereClause cs).form = (whereClause ds).form := by
  have hempty : cs.isEmpty = ds.isEmpty := by
    rw [← List.isEmpty_map (f := shape), h, List.isEmpty_map]
  unfold whereClause
  rw [hempty]
  split
  · rfl
  · rw [form_cons, form_cons, form_conjunction_eq h]

theorem plain_operand {c : Condition ρ} {f : Fragment} (h : f.Plain) : (c.operand f).Plain := by
  unfold operand
  split
  · exact h
  · exact plain_parenthesised.2 h

theorem plain_hasRow {l : Lookup ρ} (h : l.Plain) : (hasRow l).fragment.Plain := by
  have hclose : Plain [.words ")"] := plain_words.2 ⟨by decide, plain_nil⟩
  exact plain_append.2 ⟨plain_words.2 ⟨by decide, Lookup.plain_fragment h⟩, hclose⟩

theorem plain_not {c : Condition ρ} (h : c.fragment.Plain) : (not c).fragment.Plain :=
  plain_words.2 ⟨by decide, plain_operand h⟩

theorem plain_either {a b : Condition ρ} (ha : a.fragment.Plain) (hb : b.fragment.Plain) :
    (either a b).fragment.Plain :=
  plain_append.2 ⟨plain_operand ha, plain_words.2 ⟨by decide, plain_operand hb⟩⟩

theorem plain_whereClause {cs : List (Condition ρ)} (h : ∀ c ∈ cs, c.fragment.Plain) :
    (whereClause cs).Plain := by
  match cs with
  | [] => exact plain_nil
  | [c] => exact plain_words.2 ⟨by decide, h c List.mem_cons_self⟩
  | c :: d :: rest =>
    have hjoined : (conjunction (c :: d :: rest)).Plain := by
      simp only [conjunction]
      refine plain_joined (by decide) ?_
      intro f hf
      obtain ⟨e, he, rfl⟩ := List.mem_map.1 hf
      exact plain_operand (h e he)
    exact plain_words.2 ⟨by decide, hjoined⟩

end Condition

namespace Select

variable {ρ : Type}

open Fragment

/-- Statements that differ in values only have one form. -/
theorem form_fragment_eq {q r : Select ρ} (hcolumns : q.columns = r.columns)
    (hsource : q.source = r.source)
    (hconditions : q.conditions.map Condition.shape = r.conditions.map Condition.shape)
    (hdistinct : q.distinct = r.distinct) (horder : q.order = r.order)
    (hwindow : q.window.isSome = r.window.isSome) : q.fragment.form = r.fragment.form := by
  have hwhere := Condition.form_whereClause_eq hconditions
  unfold fragment
  rw [hcolumns, hsource, hdistinct, horder]
  simp only [List.cons_append, form_cons, form_append, hwhere]
  obtain ⟨hq, hr⟩ | ⟨w, w', hq, hr⟩ := both_or_neither hwindow
  · rw [hq, hr]
  · rw [hq, hr]
    rfl

theorem plain_fragment {q : Select ρ} (hcolumns : ∀ c ∈ q.columns, c.Plain)
    (hsource : Unmarked q.source) (hconditions : ∀ c ∈ q.conditions, c.fragment.Plain)
    (horder : ∀ o ∈ q.order, o.column.Plain) : q.fragment.Plain := by
  have hdistinct : Unmarked (if q.distinct.isSome then "SELECT DISTINCT " else "SELECT ") := by
    split <;> decide
  have hlabels := Column.unmarked_labels hcolumns
  have hfrom : Unmarked " FROM " := by decide
  have hby : Unmarked " ORDER BY " := by decide
  have hsorted : Plain (if q.order.isEmpty then []
      else .words " ORDER BY " :: joined ", " (q.order.map SortBy.fragment)) := by
    split
    · exact plain_nil
    · refine plain_words.2 ⟨hby, plain_joined (by decide) ?_⟩
      intro f hf
      obtain ⟨o, ho, rfl⟩ := List.mem_map.1 hf
      exact SortBy.plain_fragment (horder o ho)
  unfold fragment
  simp only [List.cons_append, plain_words, plain_append]
  refine ⟨hdistinct, hlabels, hfrom, hsource,
    ⟨Condition.plain_whereClause hconditions, hsorted⟩, ?_⟩
  cases hwindow : q.window with
  | none => exact plain_nil
  | some w => exact Plain.of_form (g := Window.fragment ⟨0, 0⟩) (by decide) rfl

end Select

theorem Count.plain_fragment {ρ : Type} {q : Count ρ} (hsource : Unmarked q.source)
    (hconditions : ∀ c ∈ q.conditions, c.fragment.Plain) : q.fragment.Plain := by
  have hcount : Unmarked "SELECT COUNT(*) AS \"count\" FROM " := unmarked_ofList (by decide)
  exact Fragment.plain_words.2
    ⟨hcount, Fragment.plain_words.2 ⟨hsource, Condition.plain_whereClause hconditions⟩⟩

theorem Insert.plain_fragment {ρ : Type} {q : Insert ρ} (htable : Unmarked q.table)
    (hcolumns : ∀ c ∈ q.columns, c.Plain) : q.fragment.Plain := by
  have hlabels := Column.unmarked_labels hcolumns
  have hinto : Unmarked "INSERT INTO " := by decide
  have hvalues : Unmarked ") VALUES (" := by decide
  unfold fragment
  simp only [List.cons_append, Fragment.plain_words, Fragment.plain_append, unmarked_quoted]
  exact ⟨hinto, htable, by decide, hlabels, hvalues, Fragment.plain_holes _, by decide,
    Fragment.plain_nil⟩

namespace Update

variable {ρ : Type}

open Fragment

theorem form_fragment_eq {q r : Update ρ} (htable : q.table = r.table)
    (hcolumns : q.assignments.map Assignment.column = r.assignments.map Assignment.column)
    (hconditions : q.conditions.map Condition.shape = r.conditions.map Condition.shape) :
    q.fragment.form = r.fragment.form := by
  have hset : (joined ", " (q.assignments.map fun a =>
        [.words (quoted a.column), .words " = ", .hole a.value])).form =
      (joined ", " (r.assignments.map fun a =>
        [.words (quoted a.column), .words " = ", .hole a.value])).form := by
    refine form_joined_eq _ ?_
    rw [List.map_map, List.map_map]
    refine map_eq_of_map_eq (fun a b hsame => ?_) hcolumns
    show [some (quoted a.column), some " = ", none] = [some (quoted b.column), some " = ", none]
    rw [hsame]
  have hwhere := Condition.form_whereClause_eq hconditions
  unfold fragment
  simp only [List.cons_append, form_cons, form_append, htable, hset, hwhere]

theorem plain_fragment {q : Update ρ} (htable : Unmarked q.table)
    (hcolumns : ∀ name ∈ q.assignments.map Assignment.column, Unmarked name)
    (hconditions : ∀ c ∈ q.conditions, c.fragment.Plain) : q.fragment.Plain := by
  have hset : (joined ", " (q.assignments.map fun a =>
      [.words (quoted a.column), .words " = ", .hole a.value])).Plain := by
    refine plain_joined (by decide) ?_
    intro f hf
    obtain ⟨a, ha, rfl⟩ := List.mem_map.1 hf
    exact plain_words.2 ⟨unmarked_quoted.2 (hcolumns _ (List.mem_map_of_mem ha)), plain_words.2 ⟨by decide, plain_nil⟩⟩
  unfold fragment
  simp only [List.cons_append, plain_words, plain_append, unmarked_quoted]
  exact ⟨by decide, htable, by decide, hset, Condition.plain_whereClause hconditions⟩

end Update

theorem Delete.plain_fragment {ρ : Type} {q : Delete ρ} (htable : Unmarked q.table)
    (hconditions : ∀ c ∈ q.conditions, c.fragment.Plain) : q.fragment.Plain :=
  Fragment.plain_words.2 ⟨by decide,
    Fragment.plain_words.2 ⟨unmarked_quoted.2 htable, Condition.plain_whereClause hconditions⟩⟩

end Sql
end PropertyBoard
