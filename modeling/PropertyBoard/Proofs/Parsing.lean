import PropertyBoard.Proofs.Value

/-!
# PropertyBoard.Proofs.Parsing

Which lists are values of a field, and what is wrong with the others.

* `Value.Parses`: one rule for each thing that a list can be; parsing follows the rules
  (`parse_eq_iff`), so exactly one of them applies to each list.
* `Value.inSteps`: parsing as it goes over the list, which could stop where it takes a text out of a
  list that is empty. It never does (`inSteps_eq`).
* `Value.parse_exact`: both of them, and what was accepted is accepted again and read back.
-/

namespace PropertyBoard

namespace Json

theorem textsFrom_notText {j : Json} (texts : List String) (rest : List Json)
    (hj : ∀ s, j ≠ .str s) :
    ∀ (index : Nat) (done : List String),
      textsFrom index (texts.map str ++ j :: rest) done = .error (index + texts.length) := by
  induction texts with
  | nil =>
    intro index done
    cases j with
    | str s => exact absurd rfl (hj s)
    | _ => rfl
  | cons s texts ih =>
    intro index done
    simp only [List.map_cons, List.cons_append, textsFrom, ih, List.length_cons]
    congr 1
    omega

/-- The place that is reported is that of the first value which is no text. -/
theorem allTexts_notText {j : Json} (texts : List String) (rest : List Json)
    (hj : ∀ s, j ≠ .str s) : allTexts (texts.map str ++ j :: rest) = .error texts.length := by
  rw [allTexts, textsFrom_notText texts rest hj, Nat.zero_add]

/-- A list of values is all texts, or has a first value that is none. -/
theorem texts_or_notText (raw : List Json) :
    (∃ texts : List String, raw = texts.map str) ∨
      ∃ (texts : List String) (j : Json) (rest : List Json),
        (∀ s, j ≠ .str s) ∧ raw = texts.map str ++ j :: rest := by
  induction raw with
  | nil => exact .inl ⟨[], rfl⟩
  | cons first raw ih =>
    by_cases hfirst : ∃ s, first = str s
    · obtain ⟨s, rfl⟩ := hfirst
      rcases ih with ⟨texts, rfl⟩ | ⟨texts, j, rest, hj, rfl⟩
      · exact .inl ⟨s :: texts, rfl⟩
      · exact .inr ⟨s :: texts, j, rest, hj, rfl⟩
    · exact .inr ⟨[], first, raw, fun s hs => hfirst ⟨s, hs⟩, rfl⟩

theorem allTexts_eq_ok {raw : List Json} {texts : List String} :
    allTexts raw = .ok texts ↔ raw = texts.map str := by
  constructor
  · intro h
    rcases texts_or_notText raw with ⟨texts', rfl⟩ | ⟨texts', j, rest, hj, rfl⟩
    · rw [allTexts_texts] at h
      cases h
      rfl
    · rw [allTexts_notText texts' rest hj] at h
      cases h
  · rintro rfl
    exact allTexts_texts texts

end Json

namespace Value

variable {f : Field} {texts : List String} {raw : List Json}

/-! ## The rules -/

/-- What a list of values is for a field. -/
inductive Parses (f : Field) : List Json → Except Invalid Value → Prop where
  | nothing : Parses f [] (.ok empty)
  | notText (texts : List String) {j : Json} (rest : List Json) (hj : ∀ s, j ≠ .str s) :
      Parses f (texts.map .str ++ j :: rest) (.error (.valueNotText texts.length))
  | tooMany {texts : List String} (htype : f.type ≠ .select) (hmany : 1 < texts.length) :
      Parses f (texts.map .str) (.error (.tooManyValues f.type texts.length))
  | text (s : String) (htype : f.type = .text) : Parses f [.str s] (.ok (text s))
  | user (s : String) (htype : f.type = .user) (hs : Text.trim s ≠ "") :
      Parses f [.str s] (.ok (user (Text.trim s)))
  | post (s : String) (htype : f.type = .post) (hs : Text.trim s ≠ "") :
      Parses f [.str s] (.ok (post (Text.trim s)))
  | blank (s : String) (htype : f.type = .user ∨ f.type = .post) (hs : Text.trim s = "") :
      Parses f [.str s] (.error (.blankReference f.type))
  | select {texts chosen : List String} (htype : f.type = .select) (hsome : texts ≠ [])
      (hall : ∀ s ∈ texts, s ∈ f.options) (hmem : ∀ s, s ∈ chosen ↔ s ∈ texts)
      (horder : AsFirstSeen texts chosen) :
      Parses f (texts.map .str) (.ok (select chosen))
  | notAnOption (front : List String) {s : String} (back : List String)
      (htype : f.type = .select) (hfront : ∀ t ∈ front, t ∈ f.options) (hs : s ∉ f.options) :
      Parses f ((front ++ s :: back).map .str) (.error (.notAnOption f.id s))

theorem ofTexts_many (htype : f.type ≠ .select) (h : 1 < texts.length) :
    ofTexts f texts = .error (.tooManyValues f.type texts.length) := by
  match texts with
  | s :: t :: rest =>
    unfold ofTexts
    cases hf : f.type with
    | select => exact absurd hf htype
    | text => rfl
    | user => rfl
    | post => rfl

theorem reference_one (type : FieldType) (s : String) :
    reference type [s] =
      if Text.trim s = "" then .error (.blankReference type) else .ok (Text.trim s) := by
  by_cases h : Text.trim s = ""
  · simp [reference, single, bind, Except.bind, Text.nonBlank?, h]
  · simp [reference, single, bind, Except.bind, Text.nonBlank?, h]

theorem ofTexts_select (htype : f.type = .select) (h : texts ≠ []) :
    ofTexts f texts = (choice f texts).map select := by
  have hempty : texts.isEmpty = false := by
    simpa using h
  rw [ofTexts, hempty, if_neg Bool.false_ne_true, htype]

theorem choice_notAnOption {front : List String} {s : String} (back : List String)
    (hfront : ∀ t ∈ front, t ∈ f.options) (hs : s ∉ f.options) :
    choice f (front ++ s :: back) = .error (.notAnOption f.id s) := by
  have hfind : (front ++ s :: back).find? (fun t => !f.offers t) = some s := by
    refine List.find?_eq_some_iff_append.2 ⟨by simpa using hs, front, back, rfl, fun t ht => ?_⟩
    simpa using hfront t ht
  rw [choice, hfind]

/-- A list of texts is all options of the field, or has a first text that is none. -/
theorem options_or_notAnOption (f : Field) (texts : List String) :
    (∀ s ∈ texts, s ∈ f.options) ∨
      ∃ (front : List String) (s : String) (back : List String),
        (∀ t ∈ front, t ∈ f.options) ∧ s ∉ f.options ∧ texts = front ++ s :: back := by
  cases hfind : texts.find? fun t => !f.offers t with
  | none =>
    left
    simpa using hfind
  | some s =>
    obtain ⟨hs, front, back, rfl, hfront⟩ := List.find?_eq_some_iff_append.1 hfind
    right
    refine ⟨front, s, back, fun t ht => ?_, by simpa using hs, rfl⟩
    simpa using hfront t ht

/-- Parsing does what each rule says. -/
theorem Parses.eq {result : Except Invalid Value} (h : Parses f raw result) :
    parse f raw = result := by
  cases h with
  | nothing => rfl
  | notText texts rest hj => rw [parse, Json.allTexts_notText texts rest hj]
  | tooMany htype hmany => rw [parse_texts, ofTexts_many htype hmany]
  | text s htype =>
    refine (parse_texts f [s]).trans ?_
    simp [ofTexts, htype, single, Except.map]
  | user s htype hs =>
    refine (parse_texts f [s]).trans ?_
    simp [ofTexts, htype, reference_one, hs, Except.map]
  | post s htype hs =>
    refine (parse_texts f [s]).trans ?_
    simp [ofTexts, htype, reference_one, hs, Except.map]
  | blank s htype hs =>
    refine (parse_texts f [s]).trans ?_
    rcases htype with htype | htype
    · simp [ofTexts, htype, reference_one, hs, Except.map]
    · simp [ofTexts, htype, reference_one, hs, Except.map]
  | select htype hsome hall hmem horder =>
    rename_i texts chosen
    have hchosen : chosen = distinct texts :=
      horder.unique (distinct_asFirstSeen texts) fun s => (hmem s).trans mem_distinct.symm
    rw [parse_texts, ofTexts_select htype hsome, choice_eq_ok.2 ⟨hall, hchosen⟩]
    rfl
  | notAnOption front back htype hfront hs =>
    rw [parse_texts, ofTexts_select htype (by simp), choice_notAnOption back hfront hs]
    rfl

/-- Each list of texts has a rule. -/
theorem exists_parses_texts (f : Field) (texts : List String) :
    ∃ result, Parses f (texts.map .str) result := by
  by_cases hsome : texts = []
  · exact hsome ▸ ⟨_, .nothing⟩
  · by_cases htype : f.type = .select
    · rcases options_or_notAnOption f texts with hall | ⟨front, t, back, hfront, ht, rfl⟩
      · exact ⟨_, .select htype hsome hall (fun _ => mem_distinct) (distinct_asFirstSeen texts)⟩
      · exact ⟨_, .notAnOption front back htype hfront ht⟩
    · match texts with
      | s :: t :: rest => exact ⟨_, .tooMany htype (by simp)⟩
      | [s] =>
        by_cases hs : Text.trim s = ""
        · cases hf : f.type with
          | text => exact ⟨_, .text s hf⟩
          | user => exact ⟨_, .blank s (.inl hf) hs⟩
          | post => exact ⟨_, .blank s (.inr hf) hs⟩
          | select => exact absurd hf htype
        · cases hf : f.type with
          | text => exact ⟨_, .text s hf⟩
          | user => exact ⟨_, .user s hf hs⟩
          | post => exact ⟨_, .post s hf hs⟩
          | select => exact absurd hf htype

theorem exists_parses (f : Field) (raw : List Json) : ∃ result, Parses f raw result := by
  rcases Json.texts_or_notText raw with ⟨texts, rfl⟩ | ⟨texts, j, rest, hj, rfl⟩
  · exact exists_parses_texts f texts
  · exact ⟨_, .notText texts rest hj⟩

/-- The result of parsing is the one that a rule gives. -/
theorem parse_eq_iff {result : Except Invalid Value} :
    parse f raw = result ↔ Parses f raw result := by
  constructor
  · rintro rfl
    obtain ⟨result, h⟩ := exists_parses f raw
    exact h.eq.symm ▸ h
  · exact Parses.eq

/-! ## Step by step -/

/-- The only text of a list, taken out of it after the list was seen not to be longer. There is
none to take out of an empty list. -/
def takeOnly (type : FieldType) (texts : List String) : Option (Except Invalid String) :=
  if 1 < texts.length then some (.error (.tooManyValues type texts.length))
  else texts.head?.map .ok

def takeReference (type : FieldType) (texts : List String) : Option (Except Invalid String) :=
  (takeOnly type texts).map fun taken => taken.bind fun s =>
    if Text.trim s = "" then .error (.blankReference type) else .ok (Text.trim s)

/-- The options chosen so far, and those that are chosen by the rest of a list. -/
def chooseOnto (f : Field) (chosen : List String) : List String → Except Invalid (List String)
  | [] => .ok chosen
  | s :: rest =>
    if f.offers s then chooseOnto f (if chosen.contains s then chosen else chosen ++ [s]) rest
    else .error (.notAnOption f.id s)

/-- Parsing one step after the other, which ends without a result if it takes a text out of an empty
list. -/
def inSteps (f : Field) (raw : List Json) : Option (Except Invalid Value) :=
  if raw.isEmpty then some (.ok empty)
  else
    match Json.allTexts raw with
    | .error index => some (.error (.valueNotText index))
    | .ok texts =>
      match f.type with
      | .text => (takeOnly .text texts).map fun taken => taken.map text
      | .user => (takeReference .user texts).map fun taken => taken.map user
      | .post => (takeReference .post texts).map fun taken => taken.map post
      | .select => some ((chooseOnto f [] texts).map select)

theorem takeOnly_eq (type : FieldType) (h : texts ≠ []) :
    takeOnly type texts = some (single type texts) := by
  match texts with
  | [s] => rfl
  | s :: t :: rest => simp [takeOnly, single]

theorem takeReference_eq (type : FieldType) (h : texts ≠ []) :
    takeReference type texts = some (reference type texts) := by
  rw [takeReference, takeOnly_eq type h, reference]
  cases single type texts with
  | error e => rfl
  | ok s =>
    by_cases hs : Text.trim s = ""
    · simp [bind, Except.bind, Text.nonBlank?, hs]
    · simp [bind, Except.bind, Text.nonBlank?, hs]

theorem distinctFrom_congr {seen seen' : List String} (h : ∀ s, s ∈ seen ↔ s ∈ seen')
    (texts : List String) : distinctFrom seen texts = distinctFrom seen' texts := by
  induction texts generalizing seen seen' with
  | nil => rfl
  | cons s rest ih =>
    have hcons : ∀ t, t ∈ s :: seen ↔ t ∈ s :: seen' := fun t => by
      simp only [List.mem_cons, h t]
    simp only [distinctFrom, List.contains_iff_mem, h s, ih h, ih hcons]

theorem chooseOnto_eq (f : Field) (chosen texts : List String) :
    chooseOnto f chosen texts =
      match texts.find? fun s => !f.offers s with
      | some s => .error (.notAnOption f.id s)
      | none => .ok (chosen ++ distinctFrom chosen texts) := by
  induction texts generalizing chosen with
  | nil => simp [chooseOnto, distinctFrom]
  | cons s rest ih =>
    cases hs : f.offers s with
    | false => simp [chooseOnto, hs]
    | true =>
      rw [chooseOnto, if_pos hs, ih, List.find?_cons_of_neg (by simp [hs])]
      cases rest.find? fun t => !f.offers t with
      | some t => rfl
      | none =>
        by_cases hseen : s ∈ chosen
        · simp [distinctFrom, hseen]
        · have hsame : ∀ t, t ∈ chosen ++ [s] ↔ t ∈ s :: chosen := fun t => by
            simp [or_comm]
          simp [distinctFrom, hseen, distinctFrom_congr hsame]

theorem chooseOnto_nil (f : Field) (texts : List String) : chooseOnto f [] texts = choice f texts :=
  chooseOnto_eq f [] texts

/-- Done step by step, parsing always comes to an end, and to the same one. -/
theorem inSteps_eq (f : Field) (raw : List Json) : inSteps f raw = some (parse f raw) := by
  unfold inSteps parse
  cases hraw : raw with
  | nil => rfl
  | cons first rest =>
    rw [List.isEmpty_cons, if_neg Bool.false_ne_true, ← hraw]
    cases htexts : Json.allTexts raw with
    | error index => rfl
    | ok texts =>
      -- There are as many texts as values, so there is one to take out.
      have hsome : texts ≠ [] := by
        rintro rfl
        exact absurd (hraw.symm.trans (Json.allTexts_eq_ok.1 htexts)) (List.cons_ne_nil first rest)
      have hempty : texts.isEmpty = false := by
        simpa using hsome
      simp only [ofTexts, hempty, if_neg Bool.false_ne_true]
      cases f.type with
      | text => rw [takeOnly_eq .text hsome]; rfl
      | user => rw [takeReference_eq .user hsome]; rfl
      | post => rw [takeReference_eq .post hsome]; rfl
      | select => rw [chooseOnto_nil]

/-! ## All of it -/

/-- Parsing never stops half way, follows the rules, and gives values that it accepts again and that
come back from the list that is stored for them. -/
theorem parse_exact (f : Field) (raw : List Json) :
    inSteps f raw = some (parse f raw) ∧
      (∀ result, parse f raw = result ↔ Parses f raw result) ∧
      ∀ v, parse f raw = .ok v →
        parse f (v.toList.map .str) = .ok v ∧ fromStored f.type v.toList = v := by
  refine ⟨inSteps_eq f raw, fun _ => parse_eq_iff, fun v h => ⟨?_, fromStored_of_parse h⟩⟩
  obtain ⟨texts, _, hok⟩ := parse_eq_ok.1 h
  rw [parse_texts]
  exact ofTexts_toList hok

/-- A field of labels. -/
def labels : Field where
  id := "f"
  teamId := ""
  name := "labels"
  type := .select
  options := ["low", "high", "urgent"]
  updatedAt := 0
  updatedBy := "u"

/-- A list in which an option comes twice. -/
theorem labels_chosen_twice :
    parse labels [.str "urgent", .str "low", .str "urgent"] = .ok (select ["urgent", "low"]) ∧
      parse labels [.str "urgent", .str "low"] = .ok (select ["urgent", "low"]) ∧
      fromStored .select ["urgent", "low"] = select ["urgent", "low"] := by
  have hok : parse labels [.str "urgent", .str "low", .str "urgent"] =
      .ok (select ["urgent", "low"]) := rfl
  exact ⟨hok, (parse_exact labels _).2.2 _ hok⟩

end Value
end PropertyBoard
