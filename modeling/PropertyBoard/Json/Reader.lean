import PropertyBoard.Json.Draft
import PropertyBoard.Text.Hex
import PropertyBoard.Text.Wide

/-!
# PropertyBoard.Json.Reader

Reading JSON, one character at a time. The reader never stops early: after the first character that
cannot go on, it stays in a failed state, so reading is a fold over the characters.

* `Lexeme`: the string, number or word being read.
* `Place`: what may come next in the grammar.
* `Frame`: an array or object being read, with what is done of it.
* `Reader.step`: one more character; `Reader.finish`: what was read when the text ends.
* `Draft.read`: the draft of a text, and whether anything but blanks follows the value.
-/

namespace PropertyBoard

/-- The parts of a number literal; `sign`, `point`, `mark` and `markSign` need a digit after them. -/
inductive Digits where
  | sign
  | zero
  | whole
  | point
  | fraction
  | mark
  | markSign
  | power
  deriving Repr, DecidableEq

namespace Digits

/-- The part after one more character, if the literal goes on. -/
def next? : Digits → Char → Option Digits
  | .sign, c => if c = '0' then some .zero else if Numeral.isDigit c then some .whole else none
  | .zero, c =>
    if c = '.' then some .point else if c = 'e' ∨ c = 'E' then some .mark else none
  | .whole, c =>
    if Numeral.isDigit c then some .whole else if c = '.' then some .point
    else if c = 'e' ∨ c = 'E' then some .mark else none
  | .point, c => if Numeral.isDigit c then some .fraction else none
  | .fraction, c =>
    if Numeral.isDigit c then some .fraction
    else if c = 'e' ∨ c = 'E' then some .mark else none
  | .mark, c =>
    if c = '+' ∨ c = '-' then some .markSign
    else if Numeral.isDigit c then some .power else none
  | .markSign, c => if Numeral.isDigit c then some .power else none
  | .power, c => if Numeral.isDigit c then some .power else none

/-- The literal may end here, in front of `c`. A leading zero has no digit after it. -/
def endsBefore : Digits → Char → Bool
  | .zero, c => !Numeral.isDigit c
  | .whole, _ => true
  | .fraction, _ => true
  | .power, _ => true
  | _, _ => false

/-- The literal may end with the text. -/
def isWhole : Digits → Bool
  | .zero => true
  | .whole => true
  | .fraction => true
  | .power => true
  | _ => false

end Digits

/-- What is being read between two structural characters. A string holds its code points in reverse,
surrogate escapes as they are; a number literal holds its characters in reverse. -/
inductive Lexeme where
  | none
  | string (units : List Nat)
  | escape (units : List Nat)
  | hex (units : List Nat) (digits : Nat) (code : Nat)
  | word (rest : List Char) (value : Draft)
  | number (part : Digits) (chars : List Char)
  deriving Repr

/-- What may come next. `ended` holds the value, `surplus` a value with text after it, `failed` what
was read before the text went wrong. -/
inductive Place where
  | value
  | firstItem
  | firstMember
  | key
  | colon
  | more
  | ended (root : Draft)
  | surplus (root : Draft)
  | failed (root : Draft)
  deriving Repr

/-- Whether a key may start here. -/
def Place.takesKey : Place → Bool
  | .key => true
  | .firstMember => true
  | _ => false

/-- Something open, innermost first; what is done is in reverse. `member` is an object with the key
of the member being read. -/
inductive Frame where
  | arr (done : List Draft)
  | obj (done : List (Option String × Draft))
  | member (done : List (Option String × Draft)) (key : Option String)
  deriving Repr

structure Reader where
  place : Place
  stack : List Frame
  lexeme : Lexeme
  deriving Repr

namespace Reader

def start : Reader :=
  ⟨.value, [], .none⟩

/-- Closes nothing: every open array and object keeps what is done of it. -/
def abandon : List Frame → Option Draft → Draft
  | [], inner => inner.getD .broken
  | .arr done :: fs, inner => abandon fs (some (.arr (done.reverse ++ inner.toList) false))
  | .obj done :: fs, _ => abandon fs (some (.obj done.reverse false))
  | .member done key :: fs, inner =>
    abandon fs (some (.obj (done.reverse ++ [(key, inner.getD .broken)]) false))

def fail (r : Reader) : Reader :=
  ⟨.failed (abandon r.stack none), [], .none⟩

/-- A value is complete. -/
def put (r : Reader) (d : Draft) : Reader :=
  match r.stack with
  | [] => ⟨.ended d, [], .none⟩
  | .arr done :: fs => ⟨.more, .arr (d :: done) :: fs, .none⟩
  | .member done key :: fs => ⟨.more, .obj ((key, d) :: done) :: fs, .none⟩
  | .obj _ :: _ => r.fail

/-- The characters of code points in reverse, in front of `cs`. Surrogates have to stand in pairs. -/
def assemble : List Nat → List Char → Option (List Char)
  | [], cs => some cs
  | n :: ns, cs =>
    if Surrogate.isLow n then
      match ns with
      | m :: ms => if Surrogate.isHigh m then assemble ms (Surrogate.pair m n :: cs) else none
      | [] => none
    else if Surrogate.isHigh n then none
    else assemble ns (Char.ofNat n :: cs)

/-- A string is complete: a key or a value. -/
def endString (r : Reader) (units : List Nat) : Reader :=
  let text := (assemble units []).map String.ofList
  if r.place.takesKey then
    match r.stack with
    | .obj done :: fs => ⟨.colon, .member done text :: fs, .none⟩
    | _ => r.fail
  else
    match text with
    | some s => r.put (.str s)
    | none => r.put .halfPair

def isBlank (c : Char) : Bool :=
  c = ' ' || c = '\n' || c = '\t' || c = '\r'

/-- The closing bracket of an array. -/
def closeArray (r : Reader) : Reader :=
  match r.stack with
  | .arr done :: fs => put { r with stack := fs } (.arr done.reverse true)
  | _ => r.fail

/-- The closing brace of an object. -/
def closeObject (r : Reader) : Reader :=
  match r.stack with
  | .obj done :: fs => put { r with stack := fs } (.obj done.reverse true)
  | _ => r.fail

/-- The first character of a value. -/
def startValue (r : Reader) (c : Char) : Reader :=
  if c = '"' then { r with lexeme := .string [] }
  else if c = '[' then ⟨.firstItem, .arr [] :: r.stack, .none⟩
  else if c = '\x7b' then ⟨.firstMember, .obj [] :: r.stack, .none⟩
  else if c = 'n' then { r with lexeme := .word ['u', 'l', 'l'] .null }
  else if c = 't' then { r with lexeme := .word ['r', 'u', 'e'] (.bool true) }
  else if c = 'f' then { r with lexeme := .word ['a', 'l', 's', 'e'] (.bool false) }
  else if c = '-' then { r with lexeme := .number .sign ['-'] }
  else if c = '0' then { r with lexeme := .number .zero ['0'] }
  else if Numeral.isDigit c then { r with lexeme := .number .whole [c] }
  else r.fail

/-- A character outside strings, numbers and words. -/
def structural (r : Reader) (c : Char) : Reader :=
  match r.place with
  | .failed _ => r
  | .surplus _ => r
  | .ended root => if isBlank c then r else ⟨.surplus root, [], .none⟩
  | .value => if isBlank c then r else r.startValue c
  | .firstItem => if isBlank c then r else if c = ']' then r.closeArray else r.startValue c
  | .firstMember =>
    if isBlank c then r else if c = '\x7d' then r.closeObject
    else if c = '"' then { r with lexeme := .string [] } else r.fail
  | .key => if isBlank c then r else if c = '"' then { r with lexeme := .string [] } else r.fail
  | .colon => if isBlank c then r else if c = ':' then { r with place := .value } else r.fail
  | .more =>
    if isBlank c then r
    else
      match r.stack with
      | .arr _ :: _ =>
        if c = ',' then { r with place := .value } else if c = ']' then r.closeArray else r.fail
      | .obj _ :: _ =>
        if c = ',' then { r with place := .key } else if c = '\x7d' then r.closeObject else r.fail
      | _ => r.fail

/-- The character that an escape letter stands for. -/
def escaped? (c : Char) : Option Nat :=
  if c = '"' ∨ c = '\\' ∨ c = '/' then some c.toNat
  else if c = 'b' then some 0x08
  else if c = 'f' then some 0x0C
  else if c = 'n' then some 0x0A
  else if c = 'r' then some 0x0D
  else if c = 't' then some 0x09
  else none

def number (chars : List Char) : Draft :=
  .num (String.ofList chars.reverse)

def step (r : Reader) (c : Char) : Reader :=
  match r.lexeme with
  | .none => r.structural c
  | .string units =>
    if c = '"' then r.endString units
    else if c = '\\' then { r with lexeme := .escape units }
    else if c.toNat < 0x20 then r.fail
    else { r with lexeme := .string (c.toNat :: units) }
  | .escape units =>
    if c = 'u' then { r with lexeme := .hex units 0 0 }
    else
      match escaped? c with
      | some n => { r with lexeme := .string (n :: units) }
      | none => r.fail
  | .hex units digits code =>
    match Hex.value? c with
    | some d =>
      if digits = 3 then { r with lexeme := .string ((code * 16 + d) :: units) }
      else { r with lexeme := .hex units (digits + 1) (code * 16 + d) }
    | none => r.fail
  | .word (w :: rest) value =>
    if c ≠ w then r.fail
    else if rest.isEmpty then r.put value
    else { r with lexeme := .word rest value }
  | .word [] _ => r.fail
  | .number part chars =>
    match part.next? c with
    | some part' => { r with lexeme := .number part' (c :: chars) }
    | none => if part.endsBefore c then (r.put (number chars)).structural c else r.fail

/-- The text ends: the draft, and whether anything follows the value. -/
def finish (r : Reader) : Draft × Bool :=
  let r :=
    match r.lexeme with
    | .number part chars => if part.isWhole then r.put (number chars) else r.fail
    | _ => r
  match r.place with
  | .ended root => (root, false)
  | .surplus root => (root, true)
  | .failed root => (root, false)
  | _ => (abandon r.stack none, false)

end Reader

def Draft.read (text : String) : Draft × Bool :=
  (text.toList.foldl Reader.step Reader.start).finish

end PropertyBoard
