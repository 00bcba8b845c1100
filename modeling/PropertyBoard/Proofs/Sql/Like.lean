import Mathlib.Data.List.TakeWhile
import PropertyBoard.Proofs.Lowercase
import PropertyBoard.Sql.Like

/-!
# PropertyBoard.Proofs.Sql.Like

What a pattern stands for that is an escaped text between two `%`.

* `folded`: the characters of a text as a pattern sees them: up to the first NUL, and without the
  difference between `A` and `a`.
* `matchParts_anyText`, `matchParts_exactly`: what a `%` and what plain characters match.
* `parts?_escape`: an escaped text stands for its own characters.
* `folded_within`: what occurs in a text as it is occurs in it as a pattern sees the two.
* `parts?_within`: such a pattern has the two `%` for wildcards, and no other.
* `isLike_within`: the pattern stands for the texts that the escaped one occurs in.
* `isLike_exact`: for texts in lower case these are the texts that hold it character by character.
  Only U+FFFD, U+FFFE and U+FFFF are not told apart (`isLike_other_character`).
-/

namespace PropertyBoard

open Text.Lowercase

namespace Sql
namespace Like

def folded (s : String) : List Char :=
  (comparable s).map asciiChar

/-! ## Matching -/

theorem matchParts_anyText {ps : List Part} (cs : List Char) :
    matchParts (.anyText :: ps) cs = true ↔ ∃ ds, ds <:+ cs ∧ matchParts ps ds = true := by
  induction cs with
  | nil => simp [matchParts]
  | cons c cs ih =>
    simp only [matchParts, Bool.or_eq_true, ih, List.suffix_cons_iff]
    constructor
    · rintro (h | ⟨ds, hds, h⟩)
      · exact ⟨_, .inl rfl, h⟩
      · exact ⟨ds, .inr hds, h⟩
    · rintro ⟨ds, rfl | hds, h⟩
      · exact .inl h
      · exact .inr ⟨ds, hds, h⟩

theorem matchParts_exactly {ps : List Part} (ts : List Char) :
    ∀ cs, matchParts (ts.map .exactly ++ ps) cs = true ↔
      ∃ pre rest, cs = pre ++ rest ∧ pre.map asciiChar = ts.map asciiChar ∧
        matchParts ps rest = true := by
  induction ts with
  | nil =>
    intro cs
    constructor
    · intro h
      exact ⟨[], cs, rfl, rfl, h⟩
    · rintro ⟨pre, rest, rfl, hpre, h⟩
      cases List.map_eq_nil_iff.1 hpre
      exact h
  | cons t ts ih =>
    intro cs
    cases cs with
    | nil => simp [matchParts]
    | cons c cs =>
      simp only [List.map_cons, List.cons_append, matchParts, Bool.and_eq_true, beq_iff_eq, ih]
      constructor
      · rintro ⟨hc, pre, rest, rfl, hpre, h⟩
        exact ⟨c :: pre, rest, rfl, by simp [hc, hpre], h⟩
      · rintro ⟨pre, rest, heq, hpre, h⟩
        cases pre with
        | nil => simp at hpre
        | cons p pre =>
          obtain ⟨rfl, rfl⟩ := List.cons.inj heq
          obtain ⟨hc, hpre⟩ := List.cons.inj hpre
          exact ⟨hc, pre, rest, rfl, hpre, h⟩

theorem matchParts_within (ts cs : List Char) :
    matchParts (.anyText :: (ts.map .exactly ++ [.anyText])) cs = true ↔
      ts.map asciiChar <:+: cs.map asciiChar := by
  have hend (rest : List Char) : matchParts [.anyText] rest = true :=
    (matchParts_anyText rest).2 ⟨[], List.nil_suffix, by simp [matchParts]⟩
  simp only [matchParts_anyText, matchParts_exactly, hend, and_true]
  constructor
  · rintro ⟨_, ⟨before, rfl⟩, pre, rest, rfl, hpre⟩
    exact ⟨before.map asciiChar, rest.map asciiChar, by simp [← hpre]⟩
  · rintro ⟨before, after, h⟩
    obtain ⟨rest, after', rfl, hrest, rfl⟩ := List.map_eq_append_iff.1 h.symm
    obtain ⟨before', pre, rfl, rfl, hpre⟩ := List.map_eq_append_iff.1 hrest
    exact ⟨pre ++ after', ⟨before', by simp⟩, pre, after', rfl, hpre⟩

/-! ## Escaping -/

theorem parts?_escaped (c : Char) (cs : List Char) :
    parts? (escapeChar :: c :: cs) = (parts? cs).map (.exactly c :: ·) := by
  simp [parts?]

theorem parts?_plain {c : Char} (h : isSpecial c = false) (cs : List Char) :
    parts? (c :: cs) = (parts? cs).map (.exactly c :: ·) := by
  simp only [isSpecial, Bool.or_eq_false_iff, beq_eq_false_iff_ne] at h
  rw [parts?.eq_def]
  simp [h]

theorem parts?_percent (cs : List Char) : parts? ('%' :: cs) = (parts? cs).map (.anyText :: ·) := by
  rw [parts?.eq_def]
  simp [escapeChar]

theorem parts?_escape (cs rest : List Char) :
    parts? (escape cs ++ rest) = (parts? rest).map (cs.map .exactly ++ ·) := by
  induction cs with
  | nil => cases h : parts? rest <;> simp [escape, h]
  | cons c cs ih =>
    have hcons : escape (c :: cs) =
        (if isSpecial c then [escapeChar, c] else [c]) ++ escape cs := rfl
    have hstep : parts? (escape (c :: cs) ++ rest) =
        (parts? (escape cs ++ rest)).map (.exactly c :: ·) := by
      rw [hcons]
      cases hc : isSpecial c with
      | true => exact parts?_escaped c _
      | false => exact parts?_plain hc _
    rw [hstep, ih, Option.map_map]
    rfl

/-! ## Characters as they are compared -/

theorem comparable_of_noNul {cs : List Char} (h : '\x00' ∉ cs) :
    comparable (String.ofList cs) = cs.map counted := by
  have hall : ∀ c ∈ cs, (c != '\x00') = true := by
    rintro c hc
    rw [bne_iff_ne]
    rintro rfl
    exact h hc
  rw [comparable, String.toList_ofList, List.takeWhile_eq_self_iff.2 hall]

theorem comparable_eq {s : String} (h : '\x00' ∉ s.toList) :
    comparable s = s.toList.map counted := by
  rw [← comparable_of_noNul h, String.ofList_toList]

theorem isSpecial_counted (c : Char) : isSpecial (counted c) = isSpecial c := by
  unfold counted
  split
  · rename_i h
    have hne (d : Char) (hd : d.toNat < 0xFFFE) : (c == d) = false := by
      rw [beq_eq_false_iff_ne]
      rintro rfl
      omega
    rw [isSpecial, isSpecial, hne '%' (by decide), hne '_' (by decide), hne escapeChar (by decide)]
    decide
  · rfl

theorem map_counted_escape (cs : List Char) :
    (escape cs).map counted = escape (cs.map counted) := by
  have hescape : counted escapeChar = escapeChar := by decide
  induction cs with
  | nil => rfl
  | cons c cs ih =>
    have hcons (c : Char) (cs : List Char) : escape (c :: cs) =
        (if isSpecial c then [escapeChar, c] else [c]) ++ escape cs := rfl
    rw [List.map_cons, hcons, hcons, isSpecial_counted, List.map_append, ih]
    cases isSpecial c <;> simp [hescape]

theorem noNul_escape {cs : List Char} (h : '\x00' ∉ cs) : '\x00' ∉ escape cs := by
  simp only [escape, List.mem_flatMap, not_exists, not_and]
  intro c hc
  have hne : '\x00' ≠ c := fun heq => h (heq ▸ hc)
  cases isSpecial c <;> simp [hne, escapeChar]

theorem counted_asciiChar (c : Char) : counted (asciiChar c) = asciiChar (counted c) := by
  unfold counted
  rw [toNat_asciiChar]
  split
  · rename_i hc
    have hc : c.toNat ≤ 90 := hc.2
    rw [if_neg (by omega), if_neg (by omega)]
  · split
    · decide
    · rfl

/-- It makes no difference whether a text is in lower case already. -/
theorem folded_ascii (s : String) : folded (ascii s) = folded s := by
  have hnul : (fun c => asciiChar c != '\x00') = fun c => c != '\x00' := funext asciiChar_bne_nul
  simp only [folded, comparable, ascii, String.toList_ofList, List.takeWhile_map, Function.comp_def,
    hnul, List.map_map, counted_asciiChar, asciiChar_asciiChar]

theorem folded_of_noNul {s : String} (h : '\x00' ∉ s.toList) :
    folded s = s.toList.map fun c => asciiChar (counted c) := by
  rw [folded, comparable_eq h, List.map_map]
  rfl

/-- A pattern sees a text in lower case as it is, but for the characters that count as one. -/
theorem folded_of_small {s : String} (h : '\x00' ∉ s.toList)
    (hsmall : ∀ c ∈ s.toList, asciiChar c = c) : folded s = s.toList.map counted := by
  rw [folded_of_noNul h]
  refine List.map_congr_left fun c hc => ?_
  rw [← counted_asciiChar, hsmall c hc]

/-- What occurs in a text occurs in it as a pattern sees the two. -/
theorem folded_within {t s : String} (h : t.toList <:+: s.toList) (hs : '\x00' ∉ s.toList) :
    folded t <:+: folded s := by
  rw [folded_of_noNul hs, folded_of_noNul fun ht => hs (h.subset ht)]
  exact h.map _

/-- Between the two `%` there is one part for each character of the text, which stands for that
character. -/
theorem parts?_within {t : String} (h : '\x00' ∉ t.toList) :
    parts? (comparable (String.ofList ('%' :: escape t.toList ++ ['%']))) =
      some (.anyText :: ((comparable t).map .exactly ++ [.anyText])) := by
  have hnul : '\x00' ∉ '%' :: escape t.toList ++ ['%'] := by
    simp [noNul_escape h]
  have hpercent : counted '%' = '%' := by decide
  rw [comparable_of_noNul hnul, List.cons_append, List.map_cons, List.map_append,
    map_counted_escape, ← comparable_eq h, List.map_singleton, hpercent, parts?_percent,
    parts?_escape, parts?_percent]
  simp [parts?]

/-- An escaped text between two `%` stands for the texts that it occurs in. -/
theorem isLike_within {t s : String} (h : '\x00' ∉ t.toList) :
    isLike s (String.ofList ('%' :: escape t.toList ++ ['%'])) = true ↔
      folded t <:+: folded s := by
  rw [isLike, parts?_within h]
  exact matchParts_within (comparable t) (comparable s)

/-! ## Texts in lower case -/

theorem asciiChar_of_not_upper {c : Char} (h : c.isUpper = false) : asciiChar c = c :=
  if_neg (of_decide_eq_false h)

theorem counted_of_plain {c : Char} (h : c.toNat ≠ 0xFFFE ∧ c.toNat ≠ 0xFFFF) : counted c = c :=
  if_neg (not_or.2 h)

theorem map_counted_of_plain {cs : List Char}
    (h : ∀ c ∈ cs, c.toNat ≠ 0xFFFE ∧ c.toNat ≠ 0xFFFF) : cs.map counted = cs :=
  (List.map_congr_left fun c hc => counted_of_plain (h c hc)).trans (List.map_id cs)

/-- The pattern of a text `t` has no wildcard but the two `%` around it. If no text has a NUL or a
letter from `A` to `Z`, it stands for the texts in which the characters of `t` occur one after the
other, U+FFFD, U+FFFE and U+FFFF taken for one character. Where the latter two do not occur, it stands
for the texts that `t` occurs in. -/
theorem isLike_exact {t s : String} (ht : '\x00' ∉ t.toList) (hs : '\x00' ∉ s.toList)
    (htLower : ∀ c ∈ t.toList, c.isUpper = false) (hsLower : ∀ c ∈ s.toList, c.isUpper = false) :
    parts? (comparable (String.ofList ('%' :: escape t.toList ++ ['%']))) =
        some (.anyText :: ((t.toList.map fun c => .exactly (counted c)) ++ [.anyText])) ∧
      (isLike s (String.ofList ('%' :: escape t.toList ++ ['%'])) = true ↔
        t.toList.map counted <:+: s.toList.map counted) ∧
      ((∀ c ∈ t.toList ++ s.toList, c.toNat ≠ 0xFFFE ∧ c.toNat ≠ 0xFFFF) →
        (isLike s (String.ofList ('%' :: escape t.toList ++ ['%'])) = true ↔
          t.toList <:+: s.toList)) := by
  have hlike : isLike s (String.ofList ('%' :: escape t.toList ++ ['%'])) = true ↔
      t.toList.map counted <:+: s.toList.map counted := by
    rw [isLike_within ht, folded_of_small ht fun c hc => asciiChar_of_not_upper (htLower c hc),
      folded_of_small hs fun c hc => asciiChar_of_not_upper (hsLower c hc)]
  refine ⟨?_, hlike, fun hplain => ?_⟩
  · rw [parts?_within ht, comparable_eq ht, List.map_map]
    rfl
  · obtain ⟨htPlain, hsPlain⟩ := List.forall_mem_append.1 hplain
    rw [hlike, map_counted_of_plain htPlain, map_counted_of_plain hsPlain]

/-- All signs that a pattern could take for something else, in a row and at the end. -/
theorem signs_stand_for_themselves :
    isLike "a !%_!!b" (String.ofList ('%' :: escape "!%_!!".toList ++ ['%'])) = true ∧
      isLike "a !x_!!b" (String.ofList ('%' :: escape "!%_!!".toList ++ ['%'])) = false := by
  obtain ⟨_, _, hfound⟩ := isLike_exact (t := "!%_!!") (s := "a !%_!!b") (by decide +kernel)
    (by decide +kernel) (by simp) (by simp)
  obtain ⟨_, _, hmissed⟩ := isLike_exact (t := "!%_!!") (s := "a !x_!!b") (by decide +kernel)
    (by decide +kernel) (by simp) (by simp)
  constructor
  · exact (hfound (by simp)).2 (by decide +kernel)
  · rw [Bool.eq_false_iff, ne_eq, hmissed (by simp)]
    decide +kernel

/-- U+FFFD is like U+FFFE, which does not occur in it. -/
theorem isLike_other_character :
    isLike "\uFFFD" (String.ofList ('%' :: escape "\uFFFE".toList ++ ['%'])) = true ∧
      '\x00' ∉ "\uFFFE".toList ++ "\uFFFD".toList ∧
      (∀ c ∈ "\uFFFE".toList ++ "\uFFFD".toList, c.isUpper = false) ∧
      ¬"\uFFFE".toList <:+: "\uFFFD".toList :=
  ⟨(isLike_within (by decide +kernel)).2 (by decide +kernel), by decide +kernel, by simp,
    by decide +kernel⟩

end Like
end Sql
end PropertyBoard
