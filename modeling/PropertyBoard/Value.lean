import PropertyBoard.Invalid

/-!
# PropertyBoard.Value

The value that a property holds, typed by its field. Outside it is always a list of texts.

* `Value.toList`: the list of texts.
* `Value.parse`: the value of a list that a caller sends, checked against the field.
* `Value.fromStored`: the value of a list that was checked when it was stored.
* `Value.conform`: what is left of a stored list when the field has changed: options the field no
  longer offers are dropped, and a list that a single-valued type cannot hold becomes empty.
* `Value.distinct`: each text of a list at its first occurrence (`mem_distinct`, `nodup_distinct`).
-/

namespace PropertyBoard

inductive Value where
  | empty
  | text (s : String)
  | select (options : List String)
  | user (id : String)
  | post (id : String)
  deriving Repr, DecidableEq

namespace Value

/-- The texts not seen before, each at its first occurrence. -/
def distinctFrom (seen : List String) : List String → List String
  | [] => []
  | s :: rest =>
    if seen.contains s then distinctFrom seen rest else s :: distinctFrom (s :: seen) rest

def distinct (texts : List String) : List String :=
  distinctFrom [] texts

theorem mem_distinctFrom {seen texts : List String} {s : String} :
    s ∈ distinctFrom seen texts ↔ s ∈ texts ∧ s ∉ seen := by
  induction texts generalizing seen with
  | nil => simp [distinctFrom]
  | cons t rest ih =>
    simp only [distinctFrom, List.contains_iff_mem]
    split
    · rename_i h
      rw [ih]
      constructor
      · rintro ⟨hs, hn⟩
        exact ⟨List.mem_cons_of_mem _ hs, hn⟩
      · rintro ⟨hs, hn⟩
        rcases List.mem_cons.1 hs with rfl | hs
        · exact absurd h hn
        · exact ⟨hs, hn⟩
    · rename_i h
      simp only [List.mem_cons, ih, not_or]
      constructor
      · rintro (rfl | ⟨hs, hn⟩)
        · exact ⟨.inl rfl, h⟩
        · exact ⟨.inr hs, hn.2⟩
      · rintro ⟨rfl | hs, hn⟩
        · exact .inl rfl
        · by_cases hst : s = t
          · exact .inl hst
          · exact .inr ⟨hs, hst, hn⟩

/-- The distinct texts of a list are its texts. -/
theorem mem_distinct {texts : List String} {s : String} : s ∈ distinct texts ↔ s ∈ texts := by
  simp [distinct, mem_distinctFrom]

theorem nodup_distinctFrom (seen texts : List String) : (distinctFrom seen texts).Nodup := by
  induction texts generalizing seen with
  | nil => simp [distinctFrom]
  | cons t rest ih =>
    simp only [distinctFrom]
    split
    · exact ih seen
    · refine List.nodup_cons.2 ⟨?_, ih (t :: seen)⟩
      intro h
      exact (mem_distinctFrom.1 h).2 List.mem_cons_self

theorem nodup_distinct (texts : List String) : (distinct texts).Nodup :=
  nodup_distinctFrom [] texts

def isEmpty : Value → Bool
  | empty => true
  | _ => false

def toList : Value → List String
  | empty => []
  | text s => [s]
  | select options => options
  | user id => [id]
  | post id => [id]

def toJson (v : Value) : Json :=
  Json.ofTexts v.toList

/-- The only text of a list. -/
def single (type : FieldType) : List String → Except Invalid String
  | [s] => .ok s
  | texts => .error (.tooManyValues type texts.length)

/-- The trimmed identifier that is the only text of a list. -/
def reference (type : FieldType) (texts : List String) : Except Invalid String := do
  let s ← single type texts
  match Text.nonBlank? s with
  | some id => .ok id
  | none => .error (.blankReference type)

/-- Options that the field offers, without repetitions. -/
def choice (f : Field) (texts : List String) : Except Invalid (List String) :=
  match texts.find? fun s => !f.offers s with
  | some s => .error (.notAnOption f.id s)
  | none => .ok (distinct texts)

def ofTexts (f : Field) (texts : List String) : Except Invalid Value :=
  if texts.isEmpty then .ok empty
  else
    match f.type with
    | .text => (single .text texts).map text
    | .user => (reference .user texts).map user
    | .post => (reference .post texts).map post
    | .select => (choice f texts).map select

def parse (f : Field) (raw : List Json) : Except Invalid Value :=
  match Json.allTexts raw with
  | .ok texts => ofTexts f texts
  | .error index => .error (.valueNotText index)

def ofHead (make : String → Value) : List String → Value
  | [] => empty
  | s :: _ => make s

def fromStored (type : FieldType) (stored : List String) : Value :=
  match type with
  | .text => ofHead text stored
  | .user => ofHead user stored
  | .post => ofHead post stored
  | .select => if stored.isEmpty then empty else select (distinct stored)

def conform (f : Field) (stored : List String) : Value :=
  match f.type with
  | .select => fromStored .select (stored.filter f.offers)
  | _ =>
    match ofTexts f stored with
    | .ok v => v
    | .error _ => empty

end Value
end PropertyBoard
