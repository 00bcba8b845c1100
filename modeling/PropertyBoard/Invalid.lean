import PropertyBoard.Field
import PropertyBoard.Text.Blank

/-!
# PropertyBoard.Invalid

What can be wrong with data that somebody asks to store.

* `Invalid`: the cause, with what is needed to name it.
* `Invalid.message`: the sentence for the caller.
* `Named.parse`: the value of a name, or the cause that the name is unknown.
-/

namespace PropertyBoard

inductive Invalid where
  | missing (part : String)
  | unknownName (noun name : String)
  | optionsNotAllowed (type : FieldType)
  | optionNotText (index : Nat)
  | valueNotText (index : Nat)
  | notAnOption (fieldId value : String)
  | tooManyValues (type : FieldType) (count : Nat)
  | blankReference (type : FieldType)
  | unconstrainedQuery
  | emptyPatch
  deriving Repr, DecidableEq

namespace Invalid

def message : Invalid → String
  | missing part => "missing required field: " ++ part
  | unknownName noun name => "invalid " ++ noun ++ ": " ++ name
  | optionsNotAllowed type => "invalid values: " ++ type.name ++ " type has no values"
  | optionNotText index =>
    "invalid values: select type must have string values (index " ++ Decimal.toText index ++ ")"
  | valueNotText index => "invalid value: element " ++ Decimal.toText index ++ " is not a string"
  | notAnOption fieldId value =>
    "invalid value: " ++ value ++ " is not an option of property_field " ++ fieldId
  | tooManyValues type count =>
    "invalid value: " ++ type.name ++ " field holds at most one value, got " ++
      Decimal.toText count
  | blankReference type => "invalid value: " ++ type.name ++ " reference cannot be blank"
  | unconstrainedQuery => "query must have includes, excludes, or a channel_id"
  | emptyPatch => "at least one of title, query or format must be set"

end Invalid

def Named.parse (α : Type) [Named α] (s : String) : Except Invalid α :=
  match Named.ofName? s with
  | some a => .ok a
  | none => .error (.unknownName (Named.noun α) s)

/-- The trimmed text of a part that must not be blank. -/
def Text.required (part : String) (s : String) : Except Invalid String :=
  match Text.nonBlank? s with
  | some t => .ok t
  | none => .error (.missing part)

theorem Text.required_eq_ok {part s t : String} :
    Text.required part s = .ok t ↔ t = Text.trim s ∧ t ≠ "" := by
  rw [← Text.nonBlank?_eq_some_iff]
  unfold Text.required
  cases Text.nonBlank? s <;> simp

namespace Json

/-- The texts in a list of values after those that are done, or the place of the first value that
is no text. -/
def textsFrom (index : Nat) : List Json → List String → Except Nat (List String)
  | [], done => .ok done.reverse
  | .str s :: rest, done => textsFrom (index + 1) rest (s :: done)
  | _ :: _, _ => .error index

def allTexts (raw : List Json) : Except Nat (List String) :=
  textsFrom 0 raw []

end Json

namespace Field

def checkName (name : String) : Except Invalid String :=
  Text.required "name" name

/-- Options are for `select` fields only, and are texts. -/
def checkOptions (type : FieldType) (raw : List Json) : Except Invalid (List String) :=
  if raw.isEmpty then .ok []
  else if !type.hasOptions then .error (.optionsNotAllowed type)
  else
    match Json.allTexts raw with
    | .ok texts => .ok texts
    | .error index => .error (.optionNotText index)

end Field
end PropertyBoard
