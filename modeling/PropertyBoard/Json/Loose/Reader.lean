import PropertyBoard.Json.Loose.Basic

/-!
# PropertyBoard.Json.Loose.Reader

Reading JSON as the store does, one character at a time. After the first character that cannot go
on the reader has failed, and stays so.

* `Digits`: the parts of a decimal number, which may lack the digits before or after the point.
* `Lexeme`: the string, number, word or comment being read.
* `Place`: what may come next. A list and an object may end right after a comma.
* `Reader.step`: one more character; `Reader.finish`: the value, when the text ends.
* `Loose.read`: the value of a text. `Loose.ofText?`: of a string, which ends at its first NUL.
-/

namespace PropertyBoard
namespace Loose

/-- `bare` is a point without a digit in front of it. `sign`, `bare`, `mark` and `markSign` need a
digit after them. -/
inductive Digits where
  | sign
  | zero
  | whole
  | bare
  | point
  | fraction
  | mark
  | markSign
  | power
  deriving Repr, DecidableEq

namespace Digits

def isMark (c : Char) : Bool :=
  c == 'e' || c == 'E'

/-- The part after one more character, and what is added to the literal: the digit that a point
lacks is filled in. -/
def next? : Digits → Char → Option (Digits × List Char)
  | .sign, c =>
    if c = '0' then some (.zero, [c]) else if Numeral.isDigit c then some (.whole, [c])
    else if c = '.' then some (.bare, ['0', c]) else none
  | .zero, c => if c = '.' then some (.point, [c]) else if isMark c then some (.mark, [c]) else none
  | .whole, c =>
    if Numeral.isDigit c then some (.whole, [c]) else if c = '.' then some (.point, [c])
    else if isMark c then some (.mark, [c]) else none
  | .bare, c => if Numeral.isDigit c then some (.fraction, [c]) else none
  | .point, c =>
    if Numeral.isDigit c then some (.fraction, [c])
    else if isMark c then some (.mark, ['0', c]) else none
  | .fraction, c =>
    if Numeral.isDigit c then some (.fraction, [c])
    else if isMark c then some (.mark, [c]) else none
  | .mark, c =>
    if c = '+' ∨ c = '-' then some (.markSign, [c])
    else if Numeral.isDigit c then some (.power, [c]) else none
  | .markSign, c => if Numeral.isDigit c then some (.power, [c]) else none
  | .power, c => if Numeral.isDigit c then some (.power, [c]) else none

/-- What is added to a literal that ends here, if it may. -/
def ending? : Digits → Option (List Char)
  | .zero => some []
  | .whole => some []
  | .point => some ['0']
  | .fraction => some []
  | .power => some []
  | _ => none

end Digits

/-- What is being read between two structural characters. Strings, names and literals are in
reverse. A hexadecimal number that is too large takes no more digits. -/
inductive Lexeme where
  | none
  | string (quote : Char) (raw : Wide)
  | escape (quote : Char) (raw : Wide)
  | stringHex (quote : Char) (raw : Wide) (missing : Nat)
  | word (raw : Wide)
  | wordEscape (raw : Wide)
  | wordHex (raw : Wide) (missing : Nat)
  | number (part : Digits) (literal : List Char)
  | hexMark (negative : Bool)
  | hex (negative : Bool) (n : Nat)
  | infinity (negative : Bool) (letters : List Char)
  | slash
  | line
  | block (star : Bool)
  deriving Repr

/-- What may come next. `item` also ends a list, and `label` an object. -/
inductive Place where
  | value
  | item
  | label
  | colon
  | more
  | ended (root : Loose)
  | failed
  deriving Repr

/-- Something open, innermost first; what is done is in reverse. -/
inductive Frame where
  | list (done : List Loose)
  | object (done : List (Wide × Loose))
  | member (done : List (Wide × Loose)) (name : Wide)
  deriving Repr

structure Reader where
  place : Place
  stack : List Frame
  lexeme : Lexeme
  deriving Repr

namespace Reader

def start : Reader :=
  ⟨.value, [], .none⟩

def fail : Reader :=
  ⟨.failed, [], .none⟩

/-- A value is complete. -/
def put (r : Reader) (v : Loose) : Reader :=
  match r.stack with
  | [] => ⟨.ended v, [], .none⟩
  | .list done :: fs => ⟨.more, .list (v :: done) :: fs, .none⟩
  | .member done name :: fs => ⟨.more, .object ((name, v) :: done) :: fs, .none⟩
  | .object _ :: _ => fail

def putName (r : Reader) (name : Wide) : Reader :=
  match r.stack with
  | .object done :: fs => ⟨.colon, .member done name :: fs, .none⟩
  | _ => fail

def putString (r : Reader) (raw : Wide) : Reader :=
  match r.place with
  | .label => r.putName raw.reverse
  | _ => r.put (.text raw.reverse)

/-- A list or an object begins, unless too much is open already. -/
def push (r : Reader) (place : Place) (f : Frame) : Reader :=
  if maxNesting ≤ r.stack.length then fail else ⟨place, f :: r.stack, .none⟩

def closeList (r : Reader) : Reader :=
  match r.stack with
  | .list done :: fs => put { r with stack := fs } (.list done.reverse)
  | _ => fail

def closeObject (r : Reader) : Reader :=
  match r.stack with
  | .object done :: fs => put { r with stack := fs } (.object done.reverse)
  | _ => fail

/-! ## Words -/

def isLetter (c : Char) : Bool :=
  ('a' ≤ c && c ≤ 'z') || ('A' ≤ c && c ≤ 'Z')

def isAlphanumeric (c : Char) : Bool :=
  isLetter c || Numeral.isDigit c

/-- Blanks: those of JSON and of Unicode, and the byte order mark. U+0085 and U+180E are none. -/
def isBlank (c : Char) : Bool :=
  let n := c.toNat
  (9 ≤ n && n ≤ 13) || n == 0x20 || n == 0xA0 || n == 0x1680 || (0x2000 ≤ n && n ≤ 0x200A) ||
    n == 0x2028 || n == 0x2029 || n == 0x202F || n == 0x205F || n == 0x3000 || n == 0xFEFF

/-- A name without quotes starts like this; it may also start with an escape. -/
def startsName (c : Char) : Bool :=
  isLetter c || c == '_' || c == '$' || (0x80 ≤ c.toNat && !isBlank c)

def goesOnName (c : Char) : Bool :=
  startsName c || Numeral.isDigit c

def infinite (negative : Bool) : Loose :=
  .number (sign negative ++ ['9', 'e', '9', '9', '9'])

def small (letters : List Char) : String :=
  String.ofList (letters.map Char.toLower)

/-- The value of a reserved word. -/
def reserved? (letters : List Char) : Option Loose :=
  match String.ofList letters with
  | "null" => some .null
  | "true" => some (.bool true)
  | "false" => some (.bool false)
  | _ =>
    match small letters with
    | "nan" => some .null
    | "qnan" => some .null
    | "snan" => some .null
    | "inf" => some (infinite false)
    | "infinity" => some (infinite false)
    | _ => none

def isPlain : Option Char → Bool
  | some c => isAlphanumeric c
  | none => false

/-- A word is complete. Where a name starts with a reserved word and a character that is no letter
and no digit, the reserved word was meant. -/
def putWord (r : Reader) (raw : Wide) : Reader :=
  let word := raw.reverse
  let letters := (word.takeWhile isPlain).filterMap id
  match r.place, reserved? letters with
  | .label, none => r.putName word
  | .label, some _ => fail
  | _, some v => if word.all isPlain then r.put v else fail
  | _, none => fail

def putInfinity (r : Reader) (negative : Bool) (letters : List Char) : Reader :=
  match small letters.reverse with
  | "inf" => r.put (infinite negative)
  | "infinity" => r.put (infinite negative)
  | _ => fail

def putNumber (r : Reader) (part : Digits) (literal : List Char) : Reader :=
  match part.ending? with
  | some added => r.put (.number (literal.reverse ++ added))
  | none => fail

/-! ## Characters -/

/-- The first character of a value. -/
def startValue (r : Reader) (c : Char) : Reader :=
  if c = '"' ∨ c = '\x27' then { r with lexeme := .string c [] }
  else if c = '[' then r.push .item (.list [])
  else if c = '\x7b' then r.push .label (.object [])
  else if c = '-' then { r with lexeme := .number .sign ['-'] }
  else if c = '+' then { r with lexeme := .number .sign [] }
  else if c = '.' then { r with lexeme := .number .bare ['.', '0'] }
  else if c = '0' then { r with lexeme := .number .zero ['0'] }
  else if Numeral.isDigit c then { r with lexeme := .number .whole [c] }
  else if isLetter c then { r with lexeme := .word [some c] }
  else fail

/-- The first character of a name, or the end of an object. -/
def startLabel (r : Reader) (c : Char) : Reader :=
  if c = '\x7d' then r.closeObject
  else if c = '"' ∨ c = '\x27' then { r with lexeme := .string c [] }
  else if c = '\\' then { r with lexeme := .wordEscape [some c] }
  else if startsName c then { r with lexeme := .word [some c] }
  else fail

/-- A character outside strings, numbers, words and comments. -/
def structural (r : Reader) (c : Char) : Reader :=
  match r.place with
  | .failed => r
  | place =>
    if isBlank c then { r with lexeme := .none }
    else if c = '/' then { r with lexeme := .slash }
    else
      match place with
      | .value => r.startValue c
      | .item => if c = ']' then r.closeList else r.startValue c
      | .label => r.startLabel c
      | .colon => if c = ':' then { r with place := .value } else fail
      | .more =>
        match r.stack with
        | .list _ :: _ =>
          if c = ',' then { r with place := .item } else if c = ']' then r.closeList else fail
        | .object _ :: _ =>
          if c = ',' then { r with place := .label }
          else if c = '\x7d' then r.closeObject else fail
        | _ => fail
      | _ => fail

def isEscape (c : Char) : Bool :=
  "\"\\/bfnrtv0'".toList.contains c || isLineEnd c

def inString (r : Reader) (quote : Char) (raw : Wide) (c : Char) : Reader :=
  if c = quote then r.putString raw
  else if c = '\\' then { r with lexeme := .escape quote (some c :: raw) }
  else { r with lexeme := .string quote (some c :: raw) }

def inEscape (r : Reader) (quote : Char) (raw : Wide) (c : Char) : Reader :=
  if c = 'u' then { r with lexeme := .stringHex quote (some c :: raw) 4 }
  else if c = 'x' then { r with lexeme := .stringHex quote (some c :: raw) 2 }
  else if isEscape c then { r with lexeme := .string quote (some c :: raw) }
  else fail

def inStringHex (r : Reader) (quote : Char) (raw : Wide) (missing : Nat) (c : Char) : Reader :=
  if !Hex.isDigit c then fail
  else if missing ≤ 1 then { r with lexeme := .string quote (some c :: raw) }
  else { r with lexeme := .stringHex quote (some c :: raw) (missing - 1) }

def inWord (r : Reader) (raw : Wide) (c : Char) : Reader :=
  if goesOnName c then { r with lexeme := .word (some c :: raw) }
  else if c = '\\' then { r with lexeme := .wordEscape (some c :: raw) }
  else (r.putWord raw).structural c

def inWordHex (r : Reader) (raw : Wide) (missing : Nat) (c : Char) : Reader :=
  if !Hex.isDigit c then fail
  else if missing ≤ 1 then { r with lexeme := .word (some c :: raw) }
  else { r with lexeme := .wordHex (some c :: raw) (missing - 1) }

def inNumber (r : Reader) (part : Digits) (literal : List Char) (c : Char) : Reader :=
  match part.next? c with
  | some (part, added) => { r with lexeme := .number part (added.reverse ++ literal) }
  | none =>
    if part = .zero ∧ (c = 'x' ∨ c = 'X') then
      { r with lexeme := .hexMark (literal.contains '-') }
    else if part = .sign ∧ (c = 'i' ∨ c = 'I') then
      { r with lexeme := .infinity (literal.contains '-') [c] }
    else (r.putNumber part literal).structural c

def stepChar (r : Reader) (c : Char) : Reader :=
  match r.lexeme with
  | .none => r.structural c
  | .string quote raw => r.inString quote raw c
  | .escape quote raw => r.inEscape quote raw c
  | .stringHex quote raw missing => r.inStringHex quote raw missing c
  | .word raw => r.inWord raw c
  | .wordEscape raw => if c = 'u' then { r with lexeme := .wordHex (some c :: raw) 4 } else fail
  | .wordHex raw missing => r.inWordHex raw missing c
  | .number part literal => r.inNumber part literal c
  | .hexMark negative =>
    match Hex.value? c with
    | some d => { r with lexeme := .hex negative d }
    | none => fail
  | .hex negative n =>
    match Hex.value? c with
    | some d => { r with lexeme := .hex negative (if n ≤ maxHex then n * 16 + d else n) }
    | none => (r.put (.hex negative n)).structural c
  | .infinity negative letters =>
    if isLetter c then { r with lexeme := .infinity negative (c :: letters) }
    else (r.putInfinity negative letters).structural c
  | .slash =>
    if c = '/' then { r with lexeme := .line }
    else if c = '*' then { r with lexeme := .block false }
    else fail
  | .line => if isLineEnd c then { r with lexeme := .none } else r
  | .block star =>
    if star && c == '/' then { r with lexeme := .none }
    else { r with lexeme := .block (c == '*') }

/-- A surrogate by itself may stand in a string, in a name and in a comment. -/
def stepSurrogate (r : Reader) : Reader :=
  match r.lexeme with
  | .string quote raw => { r with lexeme := .string quote (none :: raw) }
  | .word raw => { r with lexeme := .word (none :: raw) }
  | .none =>
    match r.place with
    | .label => { r with lexeme := .word [none] }
    | _ => fail
  | .line => r
  | .block _ => { r with lexeme := .block false }
  | _ => fail

def step (r : Reader) : Option Char → Reader
  | some c => r.stepChar c
  | none => r.stepSurrogate

/-- The text ends. -/
def finish (r : Reader) : Option Loose :=
  let r :=
    match r.lexeme with
    | .none => r
    | .line => r
    | .word raw => r.putWord raw
    | .number part literal => r.putNumber part literal
    | .hex negative n => r.put (.hex negative n)
    | .infinity negative letters => r.putInfinity negative letters
    | _ => fail
  match r.place with
  | .ended root => some root
  | _ => none

end Reader

def read (w : Wide) : Option Loose :=
  (w.foldl Reader.step Reader.start).finish

def ofText? (s : String) : Option Loose :=
  read (Wide.ofText s).beforeNul

end Loose
end PropertyBoard
