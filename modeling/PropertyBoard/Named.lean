import PropertyBoard.Json.Codec

/-!
# PropertyBoard.Named

Types whose values are a few names.

* `Named`: the values, their names, and the noun that stands for the type in messages.
* `Named.ofName?`: the value of a name; only the exact name counts.
* `Named.codec`: the JSON form, which is the name.
-/

namespace PropertyBoard

class Named (α : Type) where
  all : List α
  name : α → String
  noun : String

namespace Named

variable {α : Type} [Named α]

def ofName? (s : String) : Option α :=
  (all : List α).find? fun a => name a = s

theorem name_of_ofName? {s : String} {a : α} (h : ofName? s = some a) : name a = s := by
  unfold ofName? at h
  simpa using List.find?_some h

def names (α : Type) [Named α] : List String :=
  (all : List α).map name

def codec : Codec α where
  shape := .variant (names α)
  encode a := .str (name a)
  decode j := j.text?.bind ofName?

end Named
end PropertyBoard
