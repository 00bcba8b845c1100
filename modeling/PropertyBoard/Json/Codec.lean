import PropertyBoard.Json.Shape
import PropertyBoard.Json.Printer

/-!
# PropertyBoard.Json.Codec

The JSON form of a type.

* `Codec`: the shape of its documents, how a value is written, and how it is taken from the plain
  form of a document.
* `Codec.read`, `Codec.ofJson`, `Codec.print`: from a text, from a value, to a text.
* `text`, `int64`, `list`, `dict`, `json`: the codecs that the others are made of.
* `required`, `defaulted`, `nullable`: a member of a record.
-/

namespace PropertyBoard

structure Codec (α : Type) where
  shape : Shape
  encode : α → Json
  decode : Json → Option α

namespace Codec

variable {α : Type}

def ofPlain (c : Codec α) : Except Fault Json → Except Fault α
  | .ok j =>
    match c.decode j with
    | some a => .ok a
    | none => .error .mismatch
  | .error e => .error e

def read (c : Codec α) (text : String) : Except Fault α :=
  c.ofPlain (c.shape.read text)

def ofJson (c : Codec α) (j : Json) : Except Fault α :=
  c.ofPlain (c.shape.ofJson j)

def print (c : Codec α) (a : α) : String :=
  (c.encode a).text

def text : Codec String where
  shape := .text
  encode := .str
  decode := Json.text?

def int64 : Codec Int64 where
  shape := .int64
  encode n := .int n.toInt
  decode j := j.int?.map Int64.ofInt

def count : Codec Nat where
  shape := .count
  encode n := .int n
  decode j := j.int?.map Int.toNat

def flag : Codec Bool where
  shape := .flag
  encode := .bool
  decode := Json.flag?

/-- Any value at all. -/
def json : Codec Json where
  shape := .any
  encode := id
  decode := some

def decodeAll (f : Json → Option α) : List Json → List α → Option (List α)
  | [], done => some done.reverse
  | j :: js, done =>
    match f j with
    | some a => decodeAll f js (a :: done)
    | none => none

def list (c : Codec α) : Codec (List α) where
  shape := .list c.shape
  encode as := .arr (as.map c.encode)
  decode j := j.items?.bind fun js => decodeAll c.decode js []

def decodeEntries (f : Json → Option α) : List (String × Json) → List (String × α) →
    Option (List (String × α))
  | [], done => some done.reverse
  | (k, j) :: ms, done =>
    match f j with
    | some a => decodeEntries f ms ((k, a) :: done)
    | none => none

def dict (c : Codec α) : Codec (Dict α) where
  shape := .dict c.shape
  encode d := .obj (d.entries.map fun e => (e.1, c.encode e.2))
  decode j := j.members?.bind fun ms => (decodeEntries c.decode ms []).map Dict.ofList

def texts : Codec (List String) :=
  list text

def textLists : Codec (Dict (List String)) :=
  dict texts

/-! ## Members of a record -/

def required (c : Codec α) (j : Json) (name : String) : Option α :=
  (j.get? name).bind c.decode

def defaulted (c : Codec α) (j : Json) (name : String) (a : α) : Option α :=
  match j.get? name with
  | some v => c.decode v
  | none => some a

/-- A member that may be missing or `null`. -/
def nullable (c : Codec α) (j : Json) (name : String) : Option (Option α) :=
  match j.get? name with
  | some .null => some none
  | some v => (c.decode v).map some
  | none => some none

/-- A member that is written as `null` when it is absent. -/
def encodeNullable (c : Codec α) : Option α → Json
  | some a => c.encode a
  | none => .null

/-- A member that is left out when it is absent. -/
def encodeOptional (c : Codec α) (name : String) : Option α → List (String × Json)
  | some a => [(name, c.encode a)]
  | none => []

end Codec
end PropertyBoard
