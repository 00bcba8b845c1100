import PropertyBoard.Json.Basic

/-!
# PropertyBoard.Json.Draft

What a reader makes of a text, up to the first place where the text is no JSON.

* `Draft`: a value of which the end may be missing. `broken` is a value that could not be read; an
  array or object with `closed = false` goes on with something that is no JSON. `halfPair` is a
  string with an unpaired surrogate escape: well formed, but the text of no string.
* `isSound`: nothing in the draft is broken. This is all that is asked of a part nobody keeps.
* `Draft.ofJson`: the draft of a whole value. `Draft.toJson`: the value of a sound draft, with its
  numbers as they were written.
-/

namespace PropertyBoard

inductive Draft where
  | null
  | bool (b : Bool)
  | num (literal : String)
  | str (s : String)
  | halfPair
  | arr (items : List Draft) (closed : Bool)
  | obj (members : List (Option String × Draft)) (closed : Bool)
  | broken
  deriving Repr, Inhabited

namespace Draft

mutual

def isSound : Draft → Bool
  | .arr items closed => areSound items && closed
  | .obj members closed => membersSound members && closed
  | .broken => false
  | _ => true

def areSound : List Draft → Bool
  | [] => true
  | d :: ds => isSound d && areSound ds

def membersSound : List (Option String × Draft) → Bool
  | [] => true
  | (_, d) :: ms => isSound d && membersSound ms

end

mutual

def ofJson : Json → Draft
  | .null => .null
  | .bool b => .bool b
  | .int n => .num (Decimal.toText n)
  | .real literal => .num literal
  | .str s => .str s
  | .arr items => .arr (ofItems items []) true
  | .obj members => .obj (ofMembers members []) true

/-- The drafts of the items, after those that are done, which are in reverse. -/
def ofItems : List Json → List Draft → List Draft
  | [], done => done.reverse
  | j :: js, done => ofItems js (ofJson j :: done)

def ofMembers :
    List (String × Json) → List (Option String × Draft) → List (Option String × Draft)
  | [], done => done.reverse
  | (k, j) :: ms, done => ofMembers ms ((some k, ofJson j) :: done)

end

mutual

def toJson : Draft → Json
  | .null => .null
  | .bool b => .bool b
  | .num literal => .real literal
  | .str s => .str s
  | .halfPair => .str "\uFFFD"
  | .arr items _ => .arr (toItems items [])
  | .obj members _ => .obj (toMembers members [])
  | .broken => .null

/-- The values of the items, after those that are done, which are in reverse. -/
def toItems : List Draft → List Json → List Json
  | [], done => done.reverse
  | d :: ds, done => toItems ds (toJson d :: done)

def toMembers : List (Option String × Draft) → List (String × Json) → List (String × Json)
  | [], done => done.reverse
  | (k, d) :: ms, done => toMembers ms ((k.getD "\uFFFD", toJson d) :: done)

end

end Draft
end PropertyBoard
