import PropertyBoard.Proofs.Sql.Placeholders
import PropertyBoard.Sql.Template

/-!
# PropertyBoard.Proofs.Sql.Template

When a template gives a fragment: the marks in its text stand for the holes of the fragment, and each
gets the value of its own hole.

* `Template.Gives`: text and values are those of the fragment, as many marks as values, and setting
  the values in for the marks gives the fragment, letter by letter.
* `Quiet`: a text with no question mark in it and no quotation left open. `Fragment.Settable`: the
  words of a fragment are quiet, and no hole stands directly before a question mark.
* `Fragment.fragment?_of_settable`: the text and the values of such a fragment are a template for it.
* `Handwritten.settable_both` and its siblings: the same for what conditions by hand are made of.
-/

namespace PropertyBoard
namespace Sql

/-! ## Quiet texts -/

/-- No mark stands in the text, and what comes after it stands in no quotation. -/
def Quiet (s : String) : Prop :=
  Unmarked s ∧ s.toList.foldl Template.quoteAfter none = none

instance (s : String) : Decidable (Quiet s) :=
  inferInstanceAs (Decidable (Unmarked s ∧ s.toList.foldl Template.quoteAfter none = none))

/-- For a text that is written out, as `unmarked_ofList`. -/
theorem quiet_ofList {cs : List Char} (h : '?' ∉ cs)
    (hclosed : cs.foldl Template.quoteAfter none = none) : Quiet (String.ofList cs) := by
  refine ⟨unmarked_ofList h, ?_⟩
  rwa [String.toList_ofList]

theorem Quiet.append {s t : String} (hs : Quiet s) (ht : Quiet t) : Quiet (s ++ t) := by
  refine ⟨unmarked_append.2 ⟨hs.1, ht.1⟩, ?_⟩
  rw [String.toList_append, List.foldl_append, hs.2, ht.2]

theorem quiet_intercalate {separator : String} (hs : Quiet separator) :
    ∀ {texts : List String}, (∀ t ∈ texts, Quiet t) → Quiet (separator.intercalate texts)
  | [], _ => by
    rw [String.intercalate_nil]
    decide
  | [t], h => by simpa using h
  | t :: u :: rest, h => by
    obtain ⟨ht, hrest⟩ := List.forall_mem_cons.1 h
    rw [String.intercalate_cons_cons]
    exact (ht.append hs).append (quiet_intercalate hs hrest)

namespace Template

theorem pieces?_letter {quote : Option Char} {c : Char} (h : c ≠ '?') (cs : List Char)
    (values : List Param) :
    pieces? quote (c :: cs) values =
      (pieces? (quoteAfter quote c) cs values).map (.letter c :: ·) := by
  rw [pieces?.eq_def]
  exact if_neg fun hmark => h hmark.2

theorem pieces?_append {cs : List Char} (h : '?' ∉ cs) (quote : Option Char) (rest : List Char)
    (values : List Param) :
    pieces? quote (cs ++ rest) values =
      (pieces? (cs.foldl quoteAfter quote) rest values).map (cs.map Piece.letter ++ ·) := by
  induction cs generalizing quote with
  | nil => simp
  | cons c cs ih =>
    obtain ⟨hc, hcs⟩ := not_or.1 (mt List.mem_cons.2 h)
    rw [List.cons_append, pieces?_letter (Ne.symm hc), ih hcs, Option.map_map, List.foldl_cons]
    rfl

/-- A mark takes the next value, unless a second one follows. -/
theorem pieces?_mark {rest : List Char} (h : rest.head? ≠ some '?') (value : Param)
    (values : List Param) :
    pieces? none ('?' :: rest) (value :: values) =
      (pieces? none rest values).map (.hole value :: ·) := by
  rw [pieces?.eq_def]
  cases rest with
  | nil => rfl
  | cons c rest =>
    have hc : c ≠ '?' := fun hc => h (congrArg some hc)
    simp [hc]

/-- The text and the values, apart from each other, are those of a fragment; there is one mark for each
value; and setting the values in gives the fragment. -/
structure Gives (t : Template) (f : Fragment) : Prop where
  text : t.text = f.text
  values : t.values = f.params
  marks : t.text.toList.count '?' = t.values.length
  set : t.fragment? = some f.spelled

end Template

namespace Fragment

/-- A text is what its characters are together. -/
theorem text_letters (cs : List Char) : text (cs.map Piece.letter) = String.ofList cs := by
  induction cs with
  | nil => rfl
  | cons c cs ih =>
    rw [List.map_cons, text_cons, ih]
    apply String.toList_injective
    simp [Piece.letter, Piece.text]

theorem params_letters (cs : List Char) : params (cs.map Piece.letter) = [] := by
  induction cs with
  | nil => rfl
  | cons c cs ih => exact ih

theorem spelled_cons (piece : Piece) (f : Fragment) :
    spelled (piece :: f) = piece.spelled ++ f.spelled := rfl

/-- Spelled out, a fragment keeps its text and its values. -/
theorem text_spelled (f : Fragment) : f.spelled.text = f.text := by
  induction f with
  | nil => rfl
  | cons piece f ih =>
    rw [spelled_cons, text_append, ih, text_cons]
    cases piece with
    | words s => rw [Piece.spelled, text_letters, String.ofList_toList, Piece.text]
    | hole p => rfl

theorem params_spelled (f : Fragment) : f.spelled.params = f.params := by
  induction f with
  | nil => rfl
  | cons piece f ih =>
    rw [spelled_cons, params_append, ih]
    cases piece with
    | words s => rw [Piece.spelled, params_letters, params_words, List.nil_append]
    | hole p => rfl

theorem text_joined (separator : String) : ∀ fs : List Fragment,
    (joined separator fs).text = separator.intercalate (fs.map text)
  | [] => by rw [List.map_nil, String.intercalate_nil]; rfl
  | [f] => by simp [joined, following]
  | f :: g :: rest => by
    have hjoined : joined separator (f :: g :: rest) =
        f ++ .words separator :: joined separator (g :: rest) := rfl
    rw [hjoined, text_append, text_cons, text_joined separator (g :: rest), List.map_cons,
      List.map_cons, List.map_cons, String.intercalate_cons_cons, String.append_assoc]
    rfl

/-- The text of a list of holes is told by its length. -/
theorem text_holes (ps : List Param) : (holes ps).text = Template.placeholders ps.length := by
  have hmarks : (ps.map fun p => [Piece.hole p]).map text = List.replicate ps.length "?" := by
    rw [List.map_map, ← List.map_const']
    rfl
  rw [holes, text_joined, hmarks, Template.placeholders]

/-- Each hole can be told by the text. -/
def Settable : Fragment → Prop
  | [] => True
  | .words s :: f => Quiet s ∧ Settable f
  | .hole _ :: f => (text f).toList.head? ≠ some '?' ∧ Settable f

theorem Settable.plain {f : Fragment} (h : f.Settable) : f.Plain := by
  induction f with
  | nil => exact plain_nil
  | cons piece f ih =>
    cases piece with
    | words s => exact plain_words.2 ⟨h.1.1, ih h.2⟩
    | hole p => exact plain_hole.2 (ih h.2)

theorem Settable.append {f g : Fragment} (hf : f.Settable) (hg : g.Settable)
    (hhead : g.text.toList.head? ≠ some '?') : Settable (f ++ g) := by
  induction f with
  | nil => exact hg
  | cons piece f ih =>
    cases piece with
    | words s => exact ⟨hf.1, ih hf.2⟩
    | hole p =>
      refine ⟨?_, ih hf.2⟩
      show (text (f ++ g)).toList.head? ≠ some '?'
      rw [text_append, String.toList_append, List.head?_append]
      have hfirst := hf.1
      cases hc : (text f).toList.head? with
      | none => rwa [Option.none_or]
      | some c => rwa [Option.some_or, ← hc]

/-- Between two holes of a list there is a comma. -/
theorem head?_marks (ps : List Param) :
    (text (following ", " (ps.map fun p => [.hole p]))).toList.head? ≠ some '?' := by
  cases ps with
  | nil => decide
  | cons p ps =>
    have hcomma : following ", " ((p :: ps).map fun p => [.hole p]) =
        .words ", " :: .hole p :: following ", " (ps.map fun p => [.hole p]) := rfl
    rw [hcomma, text_cons, String.toList_append]
    simp [Piece.text]

theorem settable_marks (ps : List Param) :
    (following ", " (ps.map fun p => [.hole p])).Settable := by
  induction ps with
  | nil => trivial
  | cons p ps ih => exact ⟨by decide, head?_marks ps, ih⟩

theorem settable_holes (ps : List Param) : (holes ps).Settable := by
  cases ps with
  | nil => trivial
  | cons p ps => exact ⟨head?_marks ps, settable_marks ps⟩

/-- The end of a list or of a subquery. -/
theorem settable_close : Settable [.words ")"] :=
  ⟨by decide, trivial⟩

theorem head?_close : (text [.words ")"]).toList.head? ≠ some '?' := by decide

/-- The text and the values of a fragment are a template for it. -/
theorem fragment?_of_settable {f : Fragment} (h : f.Settable) :
    Template.fragment? ⟨f.text, f.params⟩ = some f.spelled := by
  show Template.pieces? none f.text.toList f.params = some f.spelled
  induction f with
  | nil => simp [text, Template.pieces?, spelled]
  | cons piece f ih =>
    rw [text_cons, String.toList_append]
    cases piece with
    | words s =>
      obtain ⟨⟨hs, hclosed⟩, hf⟩ := h
      show Template.pieces? none (s.toList ++ _) (params f) = _
      rw [Template.pieces?_append hs, hclosed, ih hf]
      rfl
    | hole p =>
      have hmark : (Piece.hole p).text.toList = ['?'] := by simp [Piece.text]
      rw [hmark, params_hole, List.singleton_append]
      rw [Template.pieces?_mark h.1, ih h.2]
      rfl

end Fragment

/-- A template gives a fragment if text and values agree and the text tells the holes. -/
theorem Template.gives_of_settable {t : Template} {f : Fragment} (htext : t.text = f.text)
    (hvalues : t.values = f.params) (h : f.Settable) : t.Gives f := by
  obtain ⟨text, values⟩ := t
  cases htext
  cases hvalues
  exact ⟨rfl, rfl, Fragment.count_text h.plain, Fragment.fragment?_of_settable h⟩

/-! ## Conditions by hand -/

namespace Handwritten

open Fragment

variable {ρ : Type}

theorem text_not (c : Handwritten ρ) : (not c).fragment.text = "NOT " ++ c.fragment.text :=
  text_cons _ _

theorem text_both (a b : Handwritten ρ) :
    (both a b).fragment.text = "(" ++ a.fragment.text ++ " AND " ++ b.fragment.text ++ ")" := by
  show text ((.words "(" :: a.fragment) ++ (.words " AND " :: b.fragment) ++ [.words ")"]) = _
  rw [text_append, text_append, text_cons, text_cons]
  simp only [String.append_assoc]
  rfl

theorem settable_not {c : Handwritten ρ} (h : c.fragment.Settable) : (not c).fragment.Settable :=
  ⟨by decide, h⟩

theorem settable_both {a b : Handwritten ρ} (ha : a.fragment.Settable) (hb : b.fragment.Settable) :
    (both a b).fragment.Settable := by
  have hopen : Settable (.words "(" :: a.fragment) := ⟨by decide, ha⟩
  have hand : Settable (.words " AND " :: b.fragment) := ⟨by decide, hb⟩
  refine (hopen.append hand ?_).append settable_close head?_close
  rw [text_cons, String.toList_append]
  simp [Piece.text]

end Handwritten
end Sql
end PropertyBoard
