import PropertyBoard.Proofs.Json.Escape

/-!
# PropertyBoard.Proofs.Json.Reader

The reader reads back what the printer prints.

* `Json.isPlain`: every number in the value is an integer, so that it is printed in one way.
* `Reads r cs d`: reading `cs` puts the draft `d` in front of the reader `r`. A number is not at its
  end before the next character comes, so there the reader is still one step behind.
* `reads_render`: a plain value is read from its text, by induction on the value.
* `Draft.read_text`: the text of a plain value is read as the draft of that value, and nothing
  follows it.
-/

namespace PropertyBoard
namespace Json

mutual

def isPlain : Json → Bool
  | .real _ => false
  | .arr items => arePlain items
  | .obj members => membersPlain members
  | _ => true

def arePlain : List Json → Bool
  | [] => true
  | j :: js => isPlain j && arePlain js

def membersPlain : List (String × Json) → Bool
  | [] => true
  | (_, j) :: ms => isPlain j && membersPlain ms

end

end Json

namespace Reader

def run (r : Reader) (cs : List Char) : Reader :=
  cs.foldl step r

@[simp] theorem run_nil (r : Reader) : r.run [] = r := rfl

@[simp] theorem run_cons (r : Reader) (c : Char) (cs : List Char) :
    r.run (c :: cs) = (r.step c).run cs := rfl

@[simp] theorem run_append (r : Reader) (cs ds : List Char) :
    r.run (cs ++ ds) = (r.run cs).run ds :=
  List.foldl_append

/-! ## Strings -/

theorem run_escape (p : Place) (stack : List Frame) (units : List Nat) (c : Char) :
    (Reader.mk p stack (.string units)).run (Json.escape c) =
      ⟨p, stack, .string (c.toNat :: units)⟩ := by
  rcases Json.escape_cases c with ⟨d, _, hc, hcode⟩ | ⟨hlow, hc⟩ | ⟨hc, hquote, hslash, hhigh⟩
  · have hu : d ≠ 'u' := by
      rintro rfl
      cases hcode
    rw [hc]
    simp [step, hcode, hu]
  · have hzero : Hex.value? '0' = some 0 := by decide
    have hfirst := Json.value?_hexDigit (d := c.toNat / 16) (by omega)
    have hsecond := Json.value?_hexDigit (d := c.toNat % 16) (by omega)
    rw [hc]
    simp [step, hzero, hfirst, hsecond]
    omega
  · rw [hc]
    simp [step, hquote, hslash, Nat.not_lt.2 hhigh]

theorem run_escapes (p : Place) (stack : List Frame) (cs : List Char) :
    ∀ units : List Nat,
      (Reader.mk p stack (.string units)).run (cs.flatMap Json.escape) =
        ⟨p, stack, .string ((cs.map Char.toNat).reverse ++ units)⟩ := by
  induction cs with
  | nil => intro units; rfl
  | cons c cs ih =>
    intro units
    simp [run_escape, ih]

/-- No character is a surrogate. -/
theorem not_surrogate (c : Char) :
    Surrogate.isHigh c.toNat = false ∧ Surrogate.isLow c.toNat = false := by
  have h : c.toNat < 0xD800 ∨ 0xDFFF < c.toNat ∧ c.toNat < 0x110000 := c.valid
  simp only [Surrogate.isHigh, Surrogate.isLow, Bool.and_eq_false_iff, decide_eq_false_iff_not]
  omega

theorem assemble_chars (cs : List Char) :
    ∀ done : List Char, assemble (cs.map Char.toNat) done = some (cs.reverse ++ done) := by
  induction cs with
  | nil => intro done; rfl
  | cons c cs ih =>
    intro done
    obtain ⟨hhigh, hlow⟩ := not_surrogate c
    rw [List.map_cons, assemble.eq_def]
    simp [hhigh, hlow, ih]

/-- A quoted text is read as that text. -/
theorem run_quoted (p : Place) (stack : List Frame) (s : String) :
    (Reader.mk p stack (.string [])).run (s.toList.flatMap Json.escape ++ ['"']) =
      if p.takesKey then
        match stack with
        | .obj done :: fs => ⟨.colon, .member done (some s) :: fs, .none⟩
        | _ => fail ⟨p, stack, .none⟩
      else put ⟨p, stack, .none⟩ (.str s) := by
  have h := assemble_chars s.toList.reverse []
  simp only [List.append_nil, List.map_reverse, List.reverse_reverse] at h
  simp only [run_append, run_escapes, run_cons, run_nil, List.append_nil, step, if_true, endString,
    h, Option.map_some, String.ofList_toList]
  cases p.takesKey with
  | true =>
    simp only [if_true]
    rcases stack with _ | ⟨f, fs⟩
    · rfl
    · cases f <;> rfl
  | false => rfl

/-! ## Values -/

/-- A value may come next. -/
def Awaits (r : Reader) : Prop :=
  r.lexeme = .none ∧ (r.place = .value ∨ r.place = .firstItem)

/-- The characters that may follow a value inside another. -/
def isDelimiter (c : Char) : Prop :=
  c = ',' ∨ c = ']' ∨ c = '\x7d'

inductive Reads (r : Reader) (cs : List Char) (d : Draft) : Prop where
  | closed (h : r.run cs = r.put d)
  | pending (part : Digits) (chars : List Char) (hpart : part.isWhole = true)
      (hd : d = number chars) (h : r.run cs = { r with lexeme := .number part chars })

theorem put_lexeme (r : Reader) (d : Draft) : (r.put d).lexeme = .none := by
  unfold put
  split <;> rfl

/-- What is put depends on what is open alone. -/
theorem put_congr {r r' : Reader} (h : r.stack = r'.stack) (d : Draft) : r.put d = r'.put d := by
  unfold put fail
  rw [h]

theorem next?_delimiter {part : Digits} (hp : part.isWhole = true) {c : Char}
    (hc : isDelimiter c) : part.next? c = none ∧ part.endsBefore c = true := by
  rcases hc with rfl | rfl | rfl <;> cases part <;> first | decide | exact absurd hp (by decide)

/-- With the character after it the value is complete. -/
theorem Reads.step {r : Reader} {cs : List Char} {d : Draft} (h : Reads r cs d) {c : Char}
    (hc : isDelimiter c) : (r.run cs).step c = (r.put d).step c := by
  cases h with
  | closed h => rw [h]
  | pending part chars hpart hd h =>
    obtain ⟨hnext, hends⟩ := next?_delimiter hpart hc
    have hput : put { r with lexeme := .number part chars } (number chars) = r.put d := by
      rw [hd]
      exact put_congr rfl _
    rw [h, Reader.step, Reader.step, put_lexeme]
    simp only [hnext, hends, if_true, hput]

theorem Reads.finish {r : Reader} {cs : List Char} {d : Draft} (h : Reads r cs d) :
    (r.run cs).finish = (r.put d).finish := by
  cases h with
  | closed h => rw [h]
  | pending part chars hpart hd h =>
    have hput : put { r with lexeme := .number part chars } (number chars) = r.put d := by
      rw [hd]
      exact put_congr rfl _
    rw [h, Reader.finish, Reader.finish, put_lexeme]
    simp only [hpart, if_true, hput]

theorem step_start {r : Reader} (h : Awaits r) {c : Char} (hblank : isBlank c = false)
    (hc : c ≠ ']') : r.step c = r.startValue c := by
  obtain ⟨hl, hp | hp⟩ := h
  · simp [Reader.step, hl, structural, hp, hblank]
  · simp [Reader.step, hl, structural, hp, hblank, hc]

/-! ## Numbers -/

theorem isDigit_digitChar {d : Nat} (h : d < 10) :
    Numeral.isDigit (Decimal.digitChar d) = true := by
  rw [Numeral.isDigit, Decimal.digit?_digitChar h]
  rfl

/-- Digits are a single zero, or start with another digit. -/
theorem digits_cases (n : Nat) :
    Decimal.digits n = ['0'] ∨
      ∃ c cs, Decimal.digits n = c :: cs ∧ c ≠ '0' ∧ ∀ x ∈ c :: cs, Numeral.isDigit x = true := by
  induction n using Nat.strongRecOn with
  | ind n ih =>
    rw [Decimal.digits]
    split
    · rename_i hn
      by_cases h0 : n = 0
      · subst h0
        exact .inl rfl
      · refine .inr ⟨_, _, rfl, ?_, ?_⟩
        · have key : ∀ d, d < 10 → d ≠ 0 → Decimal.digitChar d ≠ '0' := by decide
          exact key n hn h0
        · simpa using isDigit_digitChar hn
    · rename_i hn
      have hlast := isDigit_digitChar (Nat.mod_lt n (by omega : 10 > 0))
      rcases ih (n / 10) (by omega) with h | ⟨c, cs, h, hc, hall⟩
      · have hv := Decimal.valueFrom_digits (n / 10)
        rw [h] at hv
        have h0 : n / 10 = 0 := by simpa [Decimal.valueFrom, Decimal.digit?] using hv.symm
        omega
      · refine .inr ⟨c, cs ++ [Decimal.digitChar (n % 10)], by rw [h]; rfl, hc, ?_⟩
        intro x hx
        rw [← List.cons_append, List.mem_append, List.mem_singleton] at hx
        rcases hx with hx | rfl
        · exact hall x hx
        · exact hlast

theorem run_whole (p : Place) (stack : List Frame) (cs : List Char)
    (h : ∀ x ∈ cs, Numeral.isDigit x = true) :
    ∀ chars : List Char,
      (Reader.mk p stack (.number .whole chars)).run cs =
        ⟨p, stack, .number .whole (cs.reverse ++ chars)⟩ := by
  induction cs with
  | nil => intro chars; rfl
  | cons c cs ih =>
    intro chars
    have hc := h c List.mem_cons_self
    simp [Reader.step, Digits.next?, hc, ih fun x hx => h x (List.mem_cons_of_mem _ hx)]

theorem ne_of_isDigit {c x : Char} (hc : Numeral.isDigit c = true)
    (hx : Numeral.isDigit x = false) : c ≠ x := by
  rintro rfl
  rw [hc] at hx
  cases hx

theorem not_blank_of_isDigit {c : Char} (hc : Numeral.isDigit c = true) : isBlank c = false := by
  simp only [isBlank, Bool.or_eq_false_iff, decide_eq_false_iff_not]
  exact ⟨⟨⟨ne_of_isDigit hc (by decide), ne_of_isDigit hc (by decide)⟩,
    ne_of_isDigit hc (by decide)⟩, ne_of_isDigit hc (by decide)⟩

theorem startValue_digit (r : Reader) {c : Char} (hc : Numeral.isDigit c = true) (h0 : c ≠ '0') :
    r.startValue c = { r with lexeme := .number .whole [c] } := by
  have hne : ∀ x, Numeral.isDigit x = false → c ≠ x := fun x hx => ne_of_isDigit hc hx
  simp [startValue, hne '"' (by decide), hne '[' (by decide), hne '\x7b' (by decide),
    hne 'n' (by decide), hne 't' (by decide), hne 'f' (by decide), hne '-' (by decide), h0, hc]

theorem reads_digits {r : Reader} (hr : Awaits r) (n : Nat) :
    Reads r (Decimal.digits n) (.num (String.ofList (Decimal.digits n))) := by
  rcases digits_cases n with h | ⟨c, cs, h, h0, hall⟩
  · rw [h]
    refine .pending .zero ['0'] rfl rfl ?_
    rw [run_cons, step_start hr (by decide) (by decide)]
    rfl
  · have hc : Numeral.isDigit c = true := hall c List.mem_cons_self
    rw [h]
    refine .pending .whole (cs.reverse ++ [c]) rfl (by simp [number]) ?_
    rw [run_cons, step_start hr (not_blank_of_isDigit hc) (ne_of_isDigit hc (by decide)),
      startValue_digit r hc h0, run_whole _ _ cs fun x hx => hall x (List.mem_cons_of_mem _ hx)]

/-- The digits after a sign. -/
theorem run_signed (p : Place) (stack : List Frame) (n : Nat) :
    ∃ part chars, part.isWhole = true ∧ chars.reverse = '-' :: Decimal.digits n ∧
      (Reader.mk p stack (.number .sign ['-'])).run (Decimal.digits n) =
        ⟨p, stack, .number part chars⟩ := by
  rcases digits_cases n with h | ⟨c, cs, h, h0, hall⟩
  · rw [h]
    exact ⟨.zero, ['0', '-'], rfl, rfl, rfl⟩
  · have hc : Numeral.isDigit c = true := hall c List.mem_cons_self
    rw [h]
    refine ⟨.whole, cs.reverse ++ [c, '-'], rfl, by simp, ?_⟩
    have hstep : (Reader.mk p stack (.number .sign ['-'])).step c =
        ⟨p, stack, .number .whole [c, '-']⟩ := by
      simp [Reader.step, Digits.next?, h0, hc]
    rw [run_cons, hstep, run_whole _ _ cs fun x hx => hall x (List.mem_cons_of_mem _ hx)]

theorem reads_int {r : Reader} (hr : Awaits r) (n : Int) :
    Reads r (Decimal.intChars n) (.num (Decimal.toText n)) := by
  cases n with
  | ofNat n => exact reads_digits hr n
  | negSucc n =>
    obtain ⟨part, chars, hpart, hchars, hrun⟩ := run_signed r.place r.stack (n + 1)
    refine .pending part chars hpart ?_ ?_
    · rw [number, hchars]
      rfl
    · rw [← hrun]
      show (r.step '-').run _ = _
      rw [step_start hr (by decide) (by decide)]
      rfl

/-! ## Lists and objects -/

theorem reads_text {r : Reader} (hr : Awaits r) (s : String) :
    Reads r (Json.quote s) (.str s) := by
  have hplace : r.place.takesKey = false := by
    rcases hr.2 with h | h <;> rw [h] <;> rfl
  refine .closed ?_
  rw [Json.quote, List.cons_append, run_cons, step_start hr (by decide) (by decide)]
  show (Reader.mk r.place r.stack (.string [])).run _ = _
  rw [run_quoted, hplace]
  exact put_congr rfl _

theorem ofItems_eq (js : List Json) :
    ∀ done : List Draft, Draft.ofItems js done = done.reverse ++ js.map Draft.ofJson := by
  induction js with
  | nil => intro done; simp [Draft.ofItems]
  | cons j js ih => intro done; simp [Draft.ofItems, ih]

theorem ofMembers_eq (ms : List (String × Json)) :
    ∀ done : List (Option String × Draft), Draft.ofMembers ms done =
      done.reverse ++ ms.map fun m => (some m.1, Draft.ofJson m.2) := by
  induction ms with
  | nil => intro done; simp [Draft.ofMembers]
  | cons m ms ih => intro done; simp [Draft.ofMembers, ih]

/-- What follows the first item begins with a delimiter. -/
theorem items_delimited (js : List Json) :
    ∃ c cs, isDelimiter c ∧ Json.renderItems js ++ [']'] = c :: cs := by
  cases js with
  | nil => exact ⟨']', [], .inr (.inl rfl), rfl⟩
  | cons j js => exact ⟨',', _, .inl rfl, rfl⟩

theorem members_delimited (ms : List (String × Json)) :
    ∃ c cs, isDelimiter c ∧ Json.renderMembers ms ++ ['\x7d'] = c :: cs := by
  cases ms with
  | nil => exact ⟨'\x7d', [], .inr (.inr rfl), rfl⟩
  | cons m ms => exact ⟨',', _, .inl rfl, rfl⟩

/-- A value inside another, with what follows it. -/
theorem Reads.run_append {r : Reader} {cs ds : List Char} {d : Draft} (h : Reads r cs d)
    (hd : ∃ c ds', isDelimiter c ∧ ds = c :: ds') : r.run (cs ++ ds) = (r.put d).run ds := by
  obtain ⟨c, ds', hc, rfl⟩ := hd
  rw [Reader.run_append, run_cons, run_cons, h.step hc]

/-- A name and the colon after it. -/
theorem run_name (done : List (Option String × Draft)) (fs : List Frame) {p : Place}
    (hp : p.takesKey = true) (k : String) :
    (Reader.mk p (.obj done :: fs) .none).run (Json.quote k ++ [':']) =
      ⟨.value, .member done (some k) :: fs, .none⟩ := by
  have hquote : (Reader.mk p (.obj done :: fs) .none).step '"' =
      ⟨p, .obj done :: fs, .string []⟩ := by
    cases p <;> first | rfl | cases hp
  rw [Json.quote, List.cons_append, List.cons_append, run_cons, hquote, Reader.run_append,
    run_quoted, hp]
  rfl

mutual

theorem reads_render : ∀ (j : Json), j.isPlain = true → ∀ {r : Reader}, Awaits r →
    Reads r (Json.render j) (Draft.ofJson j)
  | .null, _, r, hr => by
    refine .closed ?_
    show (r.step 'n').run _ = _
    rw [step_start hr (by decide) (by decide)]
    exact put_congr rfl _
  | .bool true, _, r, hr => by
    refine .closed ?_
    show (r.step 't').run _ = _
    rw [step_start hr (by decide) (by decide)]
    exact put_congr rfl _
  | .bool false, _, r, hr => by
    refine .closed ?_
    show (r.step 'f').run _ = _
    rw [step_start hr (by decide) (by decide)]
    exact put_congr rfl _
  | .int n, _, _, hr => reads_int hr n
  | .str s, _, _, hr => reads_text hr s
  | .arr [], _, r, hr => by
    refine .closed ?_
    show (r.step '[').run [']'] = _
    rw [step_start hr (by decide) (by decide)]
    exact put_congr rfl _
  | .arr (j :: js), h, r, hr => by
    have hj : j.isPlain = true ∧ Json.arePlain js = true := by
      simpa [Json.isPlain, Json.arePlain] using h
    refine .closed ?_
    simp only [Json.render, List.cons_append, List.append_assoc, run_cons]
    rw [step_start hr (by decide) (by decide)]
    show (Reader.mk .firstItem (.arr [] :: r.stack) .none).run _ = _
    rw [(reads_render j hj.1 ⟨rfl, .inr rfl⟩).run_append (items_delimited js)]
    rw [show put ⟨.firstItem, .arr [] :: r.stack, .none⟩ (Draft.ofJson j) =
      ⟨.more, .arr [Draft.ofJson j] :: r.stack, .none⟩ from rfl, run_items js hj.2]
    rw [Draft.ofJson, ofItems_eq]
    exact put_congr rfl _
  | .obj [], _, r, hr => by
    refine .closed ?_
    show (r.step '\x7b').run ['\x7d'] = _
    rw [step_start hr (by decide) (by decide)]
    exact put_congr rfl _
  | .obj ((k, j) :: ms), h, r, hr => by
    have hj : j.isPlain = true ∧ Json.membersPlain ms = true := by
      simpa [Json.isPlain, Json.membersPlain] using h
    refine .closed ?_
    have hshape : Json.render (.obj ((k, j) :: ms)) = '\x7b' :: ((Json.quote k ++ [':']) ++
        (Json.render j ++ (Json.renderMembers ms ++ ['\x7d']))) := by
      simp [Json.render]
    rw [hshape, run_cons, step_start hr (by decide) (by decide)]
    show (Reader.mk .firstMember (.obj [] :: r.stack) .none).run _ = _
    rw [Reader.run_append, run_name _ _ rfl,
      (reads_render j hj.1 ⟨rfl, .inl rfl⟩).run_append (members_delimited ms)]
    rw [show put ⟨.value, .member [] (some k) :: r.stack, .none⟩ (Draft.ofJson j) =
      ⟨.more, .obj [(some k, Draft.ofJson j)] :: r.stack, .none⟩ from rfl, run_members ms hj.2]
    rw [Draft.ofJson, ofMembers_eq]
    exact put_congr rfl _
  | .real _, h, _, _ => by cases h

theorem run_items : ∀ (js : List Json), Json.arePlain js = true →
    ∀ {done : List Draft} {fs : List Frame},
      (Reader.mk .more (.arr done :: fs) .none).run (Json.renderItems js ++ [']']) =
        put ⟨.more, fs, .none⟩ (.arr (done.reverse ++ js.map Draft.ofJson) true)
  | [], _, done, fs => by
    simp only [List.map_nil, List.append_nil]
    rfl
  | j :: js, h, done, fs => by
    have hj : j.isPlain = true ∧ Json.arePlain js = true := by
      simpa [Json.arePlain] using h
    simp only [Json.renderItems, List.cons_append, List.append_assoc, run_cons]
    show (Reader.mk .value (.arr done :: fs) .none).run _ = _
    rw [(reads_render j hj.1 ⟨rfl, .inl rfl⟩).run_append (items_delimited js)]
    rw [show put ⟨.value, .arr done :: fs, .none⟩ (Draft.ofJson j) =
      ⟨.more, .arr (Draft.ofJson j :: done) :: fs, .none⟩ from rfl, run_items js hj.2]
    simp

theorem run_members : ∀ (ms : List (String × Json)), Json.membersPlain ms = true →
    ∀ {done : List (Option String × Draft)} {fs : List Frame},
      (Reader.mk .more (.obj done :: fs) .none).run (Json.renderMembers ms ++ ['\x7d']) =
        put ⟨.more, fs, .none⟩
          (.obj (done.reverse ++ ms.map fun m => (some m.1, Draft.ofJson m.2)) true)
  | [], _, done, fs => by
    simp only [List.map_nil, List.append_nil]
    rfl
  | (k, j) :: ms, h, done, fs => by
    have hj : j.isPlain = true ∧ Json.membersPlain ms = true := by
      simpa [Json.membersPlain] using h
    have hshape : Json.renderMembers ((k, j) :: ms) ++ ['\x7d'] = ',' :: ((Json.quote k ++ [':']) ++
        (Json.render j ++ (Json.renderMembers ms ++ ['\x7d']))) := by
      simp [Json.renderMembers]
    rw [hshape, run_cons]
    show (Reader.mk .key (.obj done :: fs) .none).run _ = _
    rw [Reader.run_append, run_name _ _ rfl,
      (reads_render j hj.1 ⟨rfl, .inl rfl⟩).run_append (members_delimited ms)]
    rw [show put ⟨.value, .member done (some k) :: fs, .none⟩ (Draft.ofJson j) =
      ⟨.more, .obj ((some k, Draft.ofJson j) :: done) :: fs, .none⟩ from rfl, run_members ms hj.2]
    simp

end

end Reader

/-- The text of a plain value is read as that value, to its end. -/
theorem Draft.read_text (j : Json) (h : j.isPlain = true) :
    Draft.read j.text = (Draft.ofJson j, false) := by
  have hr := Reader.reads_render j h (r := Reader.start) ⟨rfl, .inl rfl⟩
  rw [Draft.read, Json.text_eq, String.toList_ofList]
  exact hr.finish

end PropertyBoard
