import Mathlib.Data.List.Flatten
import Mathlib.Data.List.Forall2
import Mathlib.Data.String.Basic
import PropertyBoard.Json.Printer

/-!
# PropertyBoard.Proofs.Json.Size

How long a JSON text is.

A list of texts becomes shorter when texts of it are left out or lose characters. Its JSON text then
loses characters too, and nothing else happens to it (`Json.text_sublist`), so it takes no more octets
(`Json.size_le`).

* `Json.size_arr_cons`, `Json.size_obj_cons`: the octets of a list and of an object, by those of its
  items and members.
* `Json.size_quote`, `Json.size_texts`: a text takes at least its quotes, and a list of texts three
  octets for each of them.
-/

namespace PropertyBoard
namespace Json

/-- The texts are some of the others, in their order, and each may have lost characters. -/
def Shortened (ts us : List String) : Prop :=
  List.SublistForall₂ (fun t u => t.toList.Sublist u.toList) ts us

theorem shortened_of_sublist {ts us : List String} (h : ts.Sublist us) : Shortened ts us :=
  List.sublistForall₂_iff.2 ⟨ts, List.forall₂_same.2 fun _ _ => List.Sublist.refl _, h⟩

theorem shortened_nil (us : List String) : Shortened [] us :=
  .nil

theorem shortened_singleton {t u : String} (h : t.toList.Sublist u.toList) : Shortened [t] [u] :=
  .cons h .nil

theorem quote_sublist {t u : String} (h : t.toList.Sublist u.toList) :
    (quote t).Sublist (quote u) := by
  exact ((h.flatMap escape).append_right _).cons_cons _

/-- The items behind the opening bracket: each has a comma in front, but for the first. -/
theorem render_texts (ts : List String) :
    render (ofTexts ts) = '[' :: (renderItems (ts.map str)).tail ++ [']'] := by
  cases ts with
  | nil => simp [ofTexts, render, renderItems]
  | cons t ts => simp [ofTexts, render, renderItems]

theorem renderItems_sublist {ts us : List String} (h : Shortened ts us) :
    (renderItems (ts.map str)).Sublist (renderItems (us.map str)) := by
  induction h with
  | nil => exact List.nil_sublist _
  | cons htu _ ih =>
    simp only [List.map_cons, renderItems, render, literalChars]
    exact ((quote_sublist htu).append ih).cons_cons _
  | cons_right _ ih =>
    simp only [List.map_cons, renderItems]
    exact List.sublist_append_of_sublist_right ih

theorem text_sublist {ts us : List String} (h : Shortened ts us) :
    (ofTexts ts).text.toList.Sublist (ofTexts us).text.toList := by
  simp only [text_eq, String.toList_ofList, render_texts]
  exact ((renderItems_sublist h).tail.append_right _).cons_cons _

theorem size_le {ts us : List String} (h : Shortened ts us) :
    (ofTexts ts).text.utf8ByteSize ≤ (ofTexts us).text.utf8ByteSize := by
  have hlen := String.utf8Len_le_of_sublist (text_sublist h)
  rwa [String.utf8Len_toList, String.utf8Len_toList] at hlen

/-! ## Octets of a JSON text -/

theorem escape_ne_nil (c : Char) : escape c ≠ [] := by
  unfold escape
  split_ifs <;> exact List.cons_ne_nil _ _

theorem size_quote (s : String) :
    String.utf8Len (quote s) = String.utf8Len (s.toList.flatMap escape) + 2 := by
  have hquote : '"'.utf8Size = 1 := by decide
  simp only [quote, List.cons_append, String.utf8Len_cons, String.utf8Len_append, hquote,
    String.utf8Len_nil]

/-- A text that is not empty takes more than its quotes. -/
theorem lt_size_quote {s : String} (h : s ≠ "") : 2 < String.utf8Len (quote s) := by
  obtain ⟨c, rest, hs⟩ := List.exists_cons_of_ne_nil (mt String.toList_eq_nil_iff.1 h)
  have hescaped : 0 < String.utf8Len (escape c) :=
    Nat.pos_of_ne_zero (mt String.utf8Len_eq_zero.1 (escape_ne_nil c))
  rw [size_quote, hs, List.flatMap_cons, String.utf8Len_append]
  omega

theorem size_items_cons (j : Json) (js : List Json) :
    String.utf8Len (renderItems (j :: js)) =
      String.utf8Len (render j) + String.utf8Len (renderItems js) + 1 := by
  have hcomma : ','.utf8Size = 1 := by decide
  rw [renderItems, List.cons_append, String.utf8Len_cons, String.utf8Len_append, hcomma]

theorem size_members_cons (k : String) (j : Json) (ms : List (String × Json)) :
    String.utf8Len (renderMembers ((k, j) :: ms)) =
      String.utf8Len (quote k) + String.utf8Len (render j) +
        String.utf8Len (renderMembers ms) + 2 := by
  have hcomma : ','.utf8Size = 1 := by decide
  have hcolon : ':'.utf8Size = 1 := by decide
  simp only [renderMembers, List.cons_append, String.utf8Len_cons, String.utf8Len_append, hcomma,
    hcolon]
  omega

theorem size_members_append (ms ns : List (String × Json)) :
    String.utf8Len (renderMembers (ms ++ ns)) =
      String.utf8Len (renderMembers ms) + String.utf8Len (renderMembers ns) := by
  induction ms with
  | nil => simp [renderMembers]
  | cons m ms ih =>
    rw [List.cons_append, size_members_cons, size_members_cons, ih]
    omega

/-- A bracket at each end, and no comma in front of the first item. -/
theorem size_arr_cons (j : Json) (js : List Json) :
    String.utf8Len (render (.arr (j :: js))) = String.utf8Len (renderItems (j :: js)) + 1 := by
  have hopen : '['.utf8Size = 1 := by decide
  have hclose : ']'.utf8Size = 1 := by decide
  rw [size_items_cons]
  simp only [render, List.cons_append, String.utf8Len_cons, String.utf8Len_append, hopen, hclose,
    String.utf8Len_nil]

theorem size_obj_cons (m : String × Json) (ms : List (String × Json)) :
    String.utf8Len (render (.obj (m :: ms))) = String.utf8Len (renderMembers (m :: ms)) + 1 := by
  have hopen : '\x7b'.utf8Size = 1 := by decide
  have hclose : '\x7d'.utf8Size = 1 := by decide
  have hcolon : ':'.utf8Size = 1 := by decide
  rw [size_members_cons]
  simp only [render, List.cons_append, String.utf8Len_cons, String.utf8Len_append, hopen, hclose,
    hcolon, String.utf8Len_nil]
  omega

theorem size_items_texts (ts : List String) :
    3 * ts.length ≤ String.utf8Len (renderItems (ts.map str)) := by
  induction ts with
  | nil => exact Nat.zero_le _
  | cons t ts ih =>
    have hquote : String.utf8Len (render (.str t)) = _ := size_quote t
    rw [List.map_cons, size_items_cons, List.length_cons]
    omega

/-- Each text of a list takes its quotes and a comma, and the list a bracket more than commas. -/
theorem size_texts (ts : List String) :
    3 * ts.length + 1 ≤ String.utf8Len (render (ofTexts ts)) := by
  cases ts with
  | nil => decide
  | cons t ts =>
    have hitems := size_items_texts (t :: ts)
    rw [ofTexts, List.map_cons, size_arr_cons, ← List.map_cons]
    omega

/-- A list of empty texts takes three octets for each of them, and one more. -/
theorem size_empty_texts (n : Nat) :
    String.utf8Len (render (ofTexts (List.replicate (n + 1) ""))) = 3 * (n + 1) + 1 := by
  have hitems : ∀ n, String.utf8Len (renderItems (List.replicate n (.str ""))) = 3 * n := by
    intro n
    induction n with
    | zero => rfl
    | succ n ih =>
      have hstr : String.utf8Len (render (.str "")) = 2 := by decide
      rw [List.replicate_succ, size_items_cons, hstr, ih]
      omega
  rw [ofTexts, List.map_replicate, List.replicate_succ, size_arr_cons, ← List.replicate_succ,
    hitems]

end Json
end PropertyBoard
