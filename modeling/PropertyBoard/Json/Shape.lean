import PropertyBoard.Json.Reader

/-!
# PropertyBoard.Json.Shape

What a document has to look like, and the check of a draft against it.

* `Shape`: texts, numbers, lists, maps, names of variants, records, or any value at all.
* `Fault`: why a draft is refused. `malformed` is a text that is no JSON, `mismatch` is a value of
  another shape.
* `Shape.check`: the value in its plain form, or the fault that comes first in the text. In the
  plain form a record is an object with its known members in declaration order, a variant is a
  string, and a map is sorted.
* `Shape.read`, `Shape.ofJson`: the check of a text and of a value.

A record may be written as an object, in which unknown members are skipped and no known member is
repeated, or as an array of its members in declaration order. Nothing kept is nested more than
`maxDepth` deep.
-/

namespace PropertyBoard

/-- Whether a member of a record must be there; a `nullable` one may also be `null`. -/
inductive Presence where
  | required
  | defaulted
  | nullable
  deriving Repr, DecidableEq

inductive Shape where
  | text
  | int64
  | count
  | flag
  | any
  | list (item : Shape)
  | dict (value : Shape)
  | variant (names : List String)
  | record (slots : List (String × Presence × Shape))
  deriving Repr, Inhabited

inductive Fault where
  | malformed
  | mismatch
  deriving Repr, DecidableEq

/-- A member of a record: its name, whether it must be there, and its shape. -/
abbrev Slot := String × Presence × Shape

def maxDepth : Nat :=
  127

def minInt64 : Int :=
  -9223372036854775808

def maxInt64 : Int :=
  9223372036854775807

def maxNat64 : Int :=
  18446744073709551615

namespace Shape

/-- The fault of a draft that stands where something else is wanted. A string, number or word is
read to its end first, an array or object is not. -/
def misfit : Draft → Fault
  | .broken => .malformed
  | .halfPair => .malformed
  | .num literal => if Numeral.isHuge literal then .malformed else .mismatch
  | _ => .mismatch

def isNull : Draft → Bool
  | .null => true
  | _ => false

/-- A number literal that is kept. -/
def keepNumber (literal : String) : Except Fault Json :=
  if Numeral.isHuge literal then .error .malformed
  else
    match Numeral.int? literal with
    | some n => if minInt64 ≤ n ∧ n ≤ maxNat64 then .ok (.int n) else .ok (.real literal)
    | none => .ok (.real literal)

/-- A number literal that has to be an integer of a range. -/
def keepInt (lo hi : Int) (literal : String) : Except Fault Json :=
  match Numeral.int? literal with
  | some n =>
    if lo ≤ n ∧ n ≤ hi then .ok (.int n) else .error (misfit (.num literal))
  | none => .error (misfit (.num literal))

/-- A name of a variant, given as the only member of an object, with `null` as its value. -/
def checkTagged (names : List String) : List (Option String × Draft) → Bool → Except Fault Json
  | (some name, d) :: rest, closed =>
    if names.contains name then
      match d with
      | .null => if rest.isEmpty && closed then .ok (.str name) else .error .malformed
      | d => .error (misfit d)
    else .error .mismatch
  | _, _ => .error .malformed

/-- The members of a record that were found, in declaration order. -/
def arrange (slots : List Slot) (found : List (String × Json)) :
    Except Fault (List (String × Json)) :=
  match slots with
  | [] => .ok []
  | (name, presence, _) :: rest =>
    match found.lookup name with
    | some j => (arrange rest found).map ((name, j) :: ·)
    | none => if presence = .required then .error .mismatch else arrange rest found

/-- The record of the members found, if the text went on to the end of the record. -/
def finishRecord (slots : List Slot) (found : List (String × Json)) (closed : Bool) :
    Except Fault Json :=
  if closed then (arrange slots found).map .obj else .error .malformed

mutual

def check (room : Nat) (s : Shape) : Draft → Except Fault Json
  | .str t =>
    match s with
    | .text => .ok (.str t)
    | .any => .ok (.str t)
    | .variant names => if names.contains t then .ok (.str t) else .error .mismatch
    | _ => .error .mismatch
  | .num literal =>
    match s with
    | .int64 => keepInt minInt64 maxInt64 literal
    | .count => keepInt 0 maxNat64 literal
    | .any => keepNumber literal
    | .variant _ => .error .malformed
    | _ => .error (misfit (.num literal))
  | .bool b =>
    match s with
    | .flag => .ok (.bool b)
    | .any => .ok (.bool b)
    | .variant _ => .error .malformed
    | _ => .error .mismatch
  | .null =>
    match s with
    | .any => .ok .null
    | .variant _ => .error .malformed
    | _ => .error .mismatch
  | .halfPair => .error .malformed
  | .broken => .error .malformed
  | .arr items closed =>
    match s, room with
    | .list item, room + 1 => do
      let js ← checkItems room item items []
      if closed then .ok (.arr js) else .error .malformed
    | .any, room + 1 => do
      let js ← checkItems room .any items []
      if closed then .ok (.arr js) else .error .malformed
    | .record slots, room + 1 => do
      let found ← checkPlaces room slots items []
      finishRecord slots found closed
    | .list _, 0 => .error .malformed
    | .any, 0 => .error .malformed
    | .record _, 0 => .error .malformed
    | .variant _, _ => .error .malformed
    | _, _ => .error .mismatch
  | .obj members closed =>
    match s, room with
    | .dict value, room + 1 => do
      let entries ← checkEntries room value members []
      if closed then .ok (.obj (Dict.ofList entries).entries) else .error .malformed
    | .any, room + 1 => do
      let entries ← checkEntries room .any members []
      if closed then .ok (.obj (Dict.ofList entries).entries) else .error .malformed
    | .record slots, room + 1 => do
      let found ← checkSlots room slots [] members []
      finishRecord slots found closed
    | .variant names, _ + 1 => checkTagged names members closed
    | .dict _, 0 => .error .malformed
    | .any, 0 => .error .malformed
    | .record _, 0 => .error .malformed
    | .variant _, 0 => .error .malformed
    | _, _ => .error .mismatch

/-- The items after those that are done, which are in reverse. -/
def checkItems (room : Nat) (s : Shape) : List Draft → List Json → Except Fault (List Json)
  | [], done => .ok done.reverse
  | d :: ds, done => do
    let j ← check room s d
    checkItems room s ds (j :: done)

/-- The members of a record written as an array. -/
def checkPlaces (room : Nat) (slots : List Slot) :
    List Draft → List (String × Json) → Except Fault (List (String × Json))
  | [], done => .ok done.reverse
  | d :: ds, done =>
    match slots with
    | [] => .error .malformed
    | (name, presence, s) :: rest => do
      let j ← if presence = .nullable ∧ isNull d then .ok .null else check room s d
      checkPlaces room rest ds ((name, j) :: done)

def checkEntries (room : Nat) (s : Shape) :
    List (Option String × Draft) → List (String × Json) → Except Fault (List (String × Json))
  | [], done => .ok done.reverse
  | (none, _) :: _, _ => .error .malformed
  | (some key, d) :: ms, done => do
    let j ← check room s d
    checkEntries room s ms ((key, j) :: done)

/-- The members of a record written as an object; `seen` are the names met before. -/
def checkSlots (room : Nat) (slots : List Slot) (seen : List String) :
    List (Option String × Draft) → List (String × Json) → Except Fault (List (String × Json))
  | [], done => .ok done.reverse
  | (none, _) :: _, _ => .error .malformed
  | (some key, d) :: ms, done =>
    match slots.lookup key with
    | some (presence, s) =>
      if seen.contains key then .error .mismatch
      else do
        let j ← if presence = .nullable ∧ isNull d then .ok .null else check room s d
        checkSlots room slots (key :: seen) ms ((key, j) :: done)
    | none =>
      if d.isSound then checkSlots room slots seen ms done else .error .malformed

end

/-- The value of a text, which nothing but blanks may follow. -/
def read (s : Shape) (text : String) : Except Fault Json :=
  let r := Draft.read text
  match check maxDepth s r.1 with
  | .ok j => if r.2 then .error .malformed else .ok j
  | .error e => .error e

def ofJson (s : Shape) (j : Json) : Except Fault Json :=
  check maxDepth s (.ofJson j)

end Shape
end PropertyBoard
