import Mathlib.Data.List.TakeWhile
import PropertyBoard.Proofs.Json.Reader
import PropertyBoard.Store.Objects

/-!
# PropertyBoard.Proofs.Json.Loose

Lists of texts as the store reads them: a list that was written is read as that list, and a query
compares its texts.

* `Loose.quoted`: a text as it stands between its quotes. Its strict form is the same
  (`strictText_escapes`), and its content is the text (`content_escapes`).
* `Loose.ofText?_texts`: the list is read. `Store.elements_texts`: its elements are the texts.
-/

namespace PropertyBoard
namespace Loose

/-! ## Strict form and content -/

theorem strictOnto_plain {c : Char} (hc : c ≠ '\\') (rest written : Wide) :
    strictOnto (some c :: rest) written = strictOnto rest (Wide.onto (Json.escape c) written) := by
  rw [strictOnto]
  all_goals simp_all

theorem strictOnto_escape (c : Char) (rest written : Wide) :
    strictOnto (Wide.ofChars (Json.escape c) ++ rest) written =
      strictOnto rest ((Wide.ofChars (Json.escape c)).reverse ++ written) := by
  rcases Json.escape_cases c with ⟨d, hd, hc, _⟩ | ⟨hlow, hc⟩ | ⟨hc, _, hslash, _⟩
  · rw [hc]
    simp only [Json.shortEscapes, List.mem_cons, List.not_mem_nil, or_false] at hd
    rcases hd with rfl | rfl | rfl | rfl | rfl | rfl | rfl <;> rfl
  · obtain ⟨_, hslash₁, _, hplain₁⟩ := Json.hexDigit_plain (d := c.toNat / 16) (by omega)
    obtain ⟨_, hslash₂, _, hplain₂⟩ := Json.hexDigit_plain (d := c.toNat % 16) (by omega)
    rw [hc]
    show strictOnto (some '0' :: some '0' :: some (Json.hexDigit (c.toNat / 16)) ::
      some (Json.hexDigit (c.toNat % 16)) :: rest) (some 'u' :: some '\\' :: written) = _
    rw [strictOnto_plain (by decide), strictOnto_plain (by decide), strictOnto_plain hslash₁,
      strictOnto_plain hslash₂, hplain₁, hplain₂]
    rfl
  · rw [hc]
    show strictOnto (some c :: rest) written = _
    rw [strictOnto_plain hslash, hc]
    rfl

theorem strictOnto_escapes (cs : List Char) :
    ∀ written : Wide, strictOnto (Wide.ofChars (cs.flatMap Json.escape)) written =
      (Wide.ofChars (cs.flatMap Json.escape)).reverse ++ written := by
  induction cs with
  | nil => intro written; rfl
  | cons c cs ih =>
    intro written
    have happend : Wide.ofChars ((c :: cs).flatMap Json.escape) =
        Wide.ofChars (Json.escape c) ++ Wide.ofChars (cs.flatMap Json.escape) := by
      simp [Wide.ofChars]
    rw [happend, strictOnto_escape, ih]
    simp

/-- What was written is strict already. -/
theorem strictText_escapes (cs : List Char) :
    strictText (Wide.ofChars (cs.flatMap Json.escape)) =
      Wide.ofChars (cs.flatMap Json.escape) := by
  simp [strictText, strictOnto_escapes]

theorem contentOnto_plain {c : Char} (hc : c ≠ '\\') (rest written : Wide) :
    contentOnto none (some c :: rest) written = contentOnto none rest (some c :: written) := by
  rw [contentOnto]
  all_goals simp_all

theorem unescaped_eq {c d : Char} (hd : d ∈ Json.shortEscapes)
    (h : PropertyBoard.Reader.escaped? d = some c.toNat) : unescaped d = c := by
  have key : Json.shortEscapes.all
      (fun d => PropertyBoard.Reader.escaped? d = some (unescaped d).toNat) = true := by
    decide
  have hcode := of_decide_eq_true (List.all_eq_true.1 key d hd)
  rw [h] at hcode
  exact (Char.toNat_inj.1 (Option.some.inj hcode)).symm

theorem contentOnto_escape (c : Char) (rest written : Wide) :
    contentOnto none (Wide.ofChars (Json.escape c) ++ rest) written =
      contentOnto none rest (some c :: written) := by
  rcases Json.escape_cases c with ⟨d, hd, hc, hcode⟩ | ⟨hlow, hc⟩ | ⟨hc, _, hslash, _⟩
  · rw [hc, ← unescaped_eq hd hcode]
    simp only [Json.shortEscapes, List.mem_cons, List.not_mem_nil, or_false] at hd
    rcases hd with rfl | rfl | rfl | rfl | rfl | rfl | rfl <;> rfl
  · have hfirst := Json.value?_hexDigit (d := c.toNat / 16) (by omega)
    have hsecond := Json.value?_hexDigit (d := c.toNat % 16) (by omega)
    have hcode : codeOf [some '0', some '0', some (Json.hexDigit (c.toNat / 16)),
        some (Json.hexDigit (c.toNat % 16))] = c.toNat := by
      have hzero : Hex.value? '0' = some 0 := by decide
      simp [codeOf, Hex.code, hfirst, hsecond, hzero]
      omega
    have hhigh : Surrogate.isHigh c.toNat = false := by
      simp [Surrogate.isHigh]
      omega
    have hlow' : Surrogate.isLow c.toNat = false := by
      simp [Surrogate.isLow]
      omega
    rw [hc]
    show contentOnto (if Surrogate.isHigh (codeOf _) then some (codeOf _) else none) rest
      (codeOnto none (codeOf _) written) = _
    rw [hcode, hhigh, if_neg Bool.false_ne_true, codeOnto, Wide.ofCode, hhigh, hlow']
    simp
  · rw [hc]
    exact contentOnto_plain hslash rest written

theorem contentOnto_escapes (cs : List Char) :
    ∀ written : Wide, contentOnto none (Wide.ofChars (cs.flatMap Json.escape)) written =
      (Wide.ofChars cs).reverse ++ written := by
  induction cs with
  | nil => intro written; rfl
  | cons c cs ih =>
    intro written
    have happend : Wide.ofChars ((c :: cs).flatMap Json.escape) =
        Wide.ofChars (Json.escape c) ++ Wide.ofChars (cs.flatMap Json.escape) := by
      simp [Wide.ofChars]
    rw [happend, contentOnto_escape, ih]
    simp [Wide.ofChars]

theorem content_escapes (cs : List Char) :
    content (Wide.ofChars (cs.flatMap Json.escape)) = Wide.ofChars cs := by
  simp [content, contentOnto_escapes]

/-! ## Reading -/

namespace Reader

def run (r : Reader) (cs : List Char) : Reader :=
  (Wide.ofChars cs).foldl step r

@[simp] theorem run_nil (r : Reader) : r.run [] = r := rfl

@[simp] theorem run_cons (r : Reader) (c : Char) (cs : List Char) :
    r.run (c :: cs) = (r.stepChar c).run cs := rfl

@[simp] theorem run_append (r : Reader) (cs ds : List Char) :
    r.run (cs ++ ds) = (r.run cs).run ds := by
  simp [run, Wide.ofChars, List.foldl_append]

theorem run_escape (p : Place) (stack : List Frame) (raw : Wide) (c : Char) :
    (Reader.mk p stack (.string '"' raw)).run (Json.escape c) =
      ⟨p, stack, .string '"' ((Wide.ofChars (Json.escape c)).reverse ++ raw)⟩ := by
  rcases Json.escape_cases c with ⟨d, hd, hc, _⟩ | ⟨hlow, hc⟩ | ⟨hc, hquote, hslash, _⟩
  · rw [hc]
    simp only [Json.shortEscapes, List.mem_cons, List.not_mem_nil, or_false] at hd
    rcases hd with rfl | rfl | rfl | rfl | rfl | rfl | rfl <;> rfl
  · have hfirst := Json.value?_hexDigit (d := c.toNat / 16) (by omega)
    have hsecond := Json.value?_hexDigit (d := c.toNat % 16) (by omega)
    rw [hc]
    simp [stepChar, inString, inEscape, inStringHex, Hex.isDigit, hfirst, hsecond, Wide.ofChars,
      show Hex.value? '0' = some 0 by decide]
  · rw [hc]
    simp [stepChar, inString, hquote, hslash, Wide.ofChars]

theorem run_escapes (p : Place) (stack : List Frame) (cs : List Char) :
    ∀ raw : Wide, (Reader.mk p stack (.string '"' raw)).run (cs.flatMap Json.escape) =
      ⟨p, stack, .string '"' ((Wide.ofChars (cs.flatMap Json.escape)).reverse ++ raw)⟩ := by
  induction cs with
  | nil => intro raw; rfl
  | cons c cs ih =>
    intro raw
    rw [List.flatMap_cons, run_append, run_escape, ih]
    simp [Wide.ofChars]

end Reader

/-- A text as it is written, between its quotes. -/
def quoted (s : String) : Loose :=
  .text (Wide.ofChars (s.toList.flatMap Json.escape))

namespace Reader

theorem run_quoted (done : List Loose) (fs : List Frame) (s : String) :
    (Reader.mk .item (.list done :: fs) .none).run (Json.quote s) =
      ⟨.more, .list (quoted s :: done) :: fs, .none⟩ := by
  have hopen : (Reader.mk .item (.list done :: fs) .none).stepChar '"' =
      ⟨.item, .list done :: fs, .string '"' []⟩ := rfl
  rw [Json.quote, List.cons_append, run_cons, hopen, run_append, run_escapes]
  simp [stepChar, inString, putString, put, quoted]

/-- The items after the first. -/
theorem run_items (texts : List String) :
    ∀ (done : List Loose) (fs : List Frame),
      (Reader.mk .more (.list done :: fs) .none).run
          (Json.renderItems (texts.map Json.str)) =
        ⟨.more, .list ((texts.map quoted).reverse ++ done) :: fs, .none⟩ := by
  induction texts with
  | nil => intro done fs; rfl
  | cons s rest ih =>
    intro done fs
    have hcomma : (Reader.mk .more (.list done :: fs) .none).stepChar ',' =
        ⟨.item, .list done :: fs, .none⟩ := rfl
    rw [List.map_cons, Json.renderItems, List.cons_append, run_cons, hcomma, run_append]
    simp only [Json.render, Json.literalChars, run_quoted, ih]
    simp

theorem run_texts (texts : List String) :
    start.run (Json.render (Json.ofTexts texts)) =
      ⟨.ended (.list (texts.map quoted)), [], .none⟩ := by
  have hopen : start.stepChar '[' = ⟨.item, [.list []], .none⟩ := rfl
  cases texts with
  | nil => rfl
  | cons s rest =>
    rw [Json.ofTexts, List.map_cons, Json.render, List.cons_append, List.cons_append, run_cons,
      hopen, run_append, run_append]
    simp only [Json.render, Json.literalChars, run_quoted, run_items]
    simp [stepChar, structural, closeList, put, isBlank]

end Reader

theorem ne_nul_of_mem_quote {s : String} {c : Char} (h : c ∈ Json.quote s) : c ≠ '\x00' := by
  simp only [Json.quote, List.cons_append, List.mem_cons, List.mem_append, List.mem_flatMap,
    List.not_mem_nil, or_false] at h
  rcases h with rfl | ⟨d, _, hc⟩ | rfl
  · decide
  · exact Json.ne_nul_of_mem_escape hc
  · decide

theorem ne_nul_of_mem_items {texts : List String} {c : Char}
    (h : c ∈ Json.renderItems (texts.map Json.str)) : c ≠ '\x00' := by
  induction texts with
  | nil => cases h
  | cons s rest ih =>
    simp only [List.map_cons, Json.renderItems, Json.render, Json.literalChars, List.cons_append,
      List.mem_cons, List.mem_append] at h
    rcases h with rfl | h | h
    · decide
    · exact ne_nul_of_mem_quote h
    · exact ih h

theorem ne_nul_of_mem_texts {texts : List String} {c : Char}
    (h : c ∈ Json.render (Json.ofTexts texts)) : c ≠ '\x00' := by
  cases texts with
  | nil =>
    have hc : c = '[' ∨ c = ']' := by simpa [Json.ofTexts, Json.render] using h
    rcases hc with rfl | rfl <;> decide
  | cons s rest =>
    simp only [Json.ofTexts, List.map_cons, Json.render, Json.literalChars, List.cons_append,
      List.mem_cons, List.mem_append, List.not_mem_nil, or_false] at h
    rcases h with rfl | (h | h) | rfl
    · decide
    · exact ne_nul_of_mem_quote h
    · exact ne_nul_of_mem_items h
    · decide

/-- A list of texts is read as it was written. -/
theorem ofText?_texts (texts : List String) :
    ofText? (Json.ofTexts texts).text = some (.list (texts.map quoted)) := by
  have hbefore : (Wide.ofText (Json.ofTexts texts).text).beforeNul =
      Wide.ofChars (Json.render (Json.ofTexts texts)) := by
    rw [Wide.ofText, Json.text_eq, String.toList_ofList, Wide.beforeNul,
      List.takeWhile_eq_self_iff]
    intro c hc
    obtain ⟨d, hd, rfl⟩ := List.mem_map.1 hc
    simpa using ne_nul_of_mem_texts hd
  rw [ofText?, hbefore, read]
  show ((Reader.start.run (Json.render (Json.ofTexts texts))).finish) = _
  rw [Reader.run_texts]
  rfl

/-! ## Elements -/

theorem element_quoted (s : String) : (quoted s).strict.element = .text s := by
  have htext : (Wide.ofChars s.toList).text? = some s := Wide.text?_ofText s
  rw [quoted, strict, strictText_escapes, element, content_escapes]
  simp only [Element.ofWide, htext]

theorem nestingOfItems_quoted (texts : List String) (deepest : Nat) :
    nestingOfItems (texts.map quoted) deepest = deepest := by
  induction texts generalizing deepest with
  | nil => rfl
  | cons s rest ih => simp [nestingOfItems, quoted, nesting, ih]

theorem nesting_texts (texts : List String) : nesting (.list (texts.map quoted)) = 1 := by
  rw [nesting, nestingOfItems_quoted]

end Loose

namespace Store

theorem elements_texts (texts : List String) :
    Held.elements (.list (texts.map Loose.quoted)) = texts.map .text := by
  show ((texts.map Loose.quoted).map fun part => part.strict.element) = _
  rw [List.map_map]
  refine List.map_congr_left ?_
  intro s _
  exact Loose.element_quoted s

end Store
end PropertyBoard
