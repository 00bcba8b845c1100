import PropertyBoard.Http.Syntax

/-!
# PropertyBoard.Http.MediaType

Media types, as in the header that tells what a body is.

* `MediaType.ofText?`: type and subtype of a text, in small letters; a suffix is what follows the
  last `+` of the subtype.
* `MediaType.isJson`: `application/json`, or another application type with the suffix `json`.
-/

namespace PropertyBoard
namespace Http

structure MediaType where
  type : String
  subtype : String
  suffix : Option String
  deriving Repr, DecidableEq

namespace MediaType

/-- Where among the parameters a text has come to, with the size of the part at hand. -/
inductive Place where
  | name (size : Nat)
  | value (size : Nat)
  | quoted (size : Nat)
  | afterQuote
  | wrong

def isQuotable (c : Char) : Bool :=
  31 < c.toNat && c.toNat != 127

/-- Reads on in the parameters. Blanks may stand before a name and after a quoted value. -/
def stepParam : Place → Char → Place
  | .name size, c =>
    if c = ' ' && size = 0 then .name 0
    else if isTokenChar c then .name (size + 1)
    else if c = '=' && 0 < size then .value 0
    else .wrong
  | .value size, c =>
    if c = '"' && size = 0 then .quoted 0
    else if isTokenChar c then .value (size + 1)
    else if c = ';' && 0 < size then .name 0
    else .wrong
  | .quoted size, c =>
    if c = '"' && 0 < size then .afterQuote
    else if isQuotable c then .quoted (size + 1)
    else .wrong
  | .afterQuote, c =>
    if c = ';' then .name 0
    else if c = ' ' then .afterQuote
    else .wrong
  | .wrong, _ => .wrong

def areParams (cs : List Char) : Bool :=
  match cs.foldl stepParam (.name 0) with
  | .name size => size = 0
  | .value _ => true
  | .afterQuote => true
  | _ => false

/-- The subtype before its last `+`, and the suffix after it. A `+` at the front is no such. -/
def splitSuffix (cs : List Char) : List Char × Option (List Char) :=
  let suffix := (cs.reverse.takeWhile (· != '+')).reverse
  let front := cs.take (cs.length - suffix.length - 1)
  if suffix.length = cs.length || front.isEmpty then (cs, none) else (front, some suffix)

def ofText? (s : String) : Option MediaType :=
  let cs := (Text.Lowercase.ascii s).toList
  let type := cs.takeWhile isTokenChar
  match cs.dropWhile isTokenChar with
  | '/' :: rest =>
    let subtype := rest.takeWhile isTokenChar
    let ends :=
      match rest.dropWhile isTokenChar with
      | [] => true
      | ';' :: params => !subtype.isEmpty && areParams params
      | _ => false
    if type.isEmpty || !ends then none
    else
      let (front, suffix) := splitSuffix subtype
      some { type := String.ofList type, subtype := String.ofList front,
             suffix := suffix.map String.ofList }
  | _ => none

def isJson (m : MediaType) : Bool :=
  m.type = "application" && (m.subtype = "json" || m.suffix = some "json")

end MediaType
end Http
end PropertyBoard
