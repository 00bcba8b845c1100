import PropertyBoard.Json.Printer
import PropertyBoard.Text.Hex
import PropertyBoard.Text.Wide

/-!
# PropertyBoard.Json.Loose.Basic

JSON as the store reads it, which is more than JSON: names without quotes, strings between single
quotes, more escapes, control characters, comments, hexadecimal numbers and the like.

* `Loose`: a value. Strings and names stand in it as they were written between their quotes.
* `written`: the value as strict JSON without blanks. Escapes that are strict stay as they are, so
  two spellings of one string have different texts.
* `content`: the text that a string stands for.
* `nesting`: how deep lists and objects are nested.
-/

namespace PropertyBoard

inductive Loose where
  | null
  | bool (b : Bool)
  | number (literal : List Char)
  | hex (negative : Bool) (n : Nat)
  | text (raw : Wide)
  | list (items : List Loose)
  | object (members : List (Wide × Loose))
  deriving Repr, Inhabited

namespace Loose

/-- A line ends at such a character; after a backslash it is left out of a string. -/
def isLineEnd (c : Char) : Bool :=
  c == '\n' || c == '\r' || c.toNat == 0x2028 || c.toNat == 0x2029

/-! ## Strict JSON -/

/-- What stands for a backslash and the character after it. A vertical tab becomes a tab. -/
def strictEscape (c : Char) : List Char :=
  if c = '\x27' then ['\x27']
  else if c = 'v' then ['\\', 'u', '0', '0', '0', '9']
  else if c = '0' then ['\\', 'u', '0', '0', '0', '0']
  else if isLineEnd c then []
  else ['\\', c]

/-- Puts the strict form of a string in reverse in front of what is written. -/
def strictOnto : Wide → Wide → Wide
  | [], written => written
  | some '\\' :: some 'x' :: a :: b :: rest, written =>
    strictOnto rest (b :: a :: Wide.onto ['\\', 'u', '0', '0'] written)
  | some '\\' :: some '\r' :: some '\n' :: rest, written => strictOnto rest written
  | some '\\' :: some c :: rest, written => strictOnto rest (Wide.onto (strictEscape c) written)
  | some c :: rest, written => strictOnto rest (Wide.onto (Json.escape c) written)
  | none :: rest, written => strictOnto rest (none :: written)

def strictText (raw : Wide) : Wide :=
  (strictOnto raw []).reverse

/-- The largest number that 64 bits hold. -/
def maxHex : Nat :=
  18446744073709551615

def sign (negative : Bool) : List Char :=
  if negative then ['-'] else []

/-- A hexadecimal number in decimal digits; one of more than 64 bits is written as one that no
double holds. -/
def hexChars (negative : Bool) (n : Nat) : List Char :=
  sign negative ++ if n ≤ maxHex then Decimal.digits n else "9.0e999".toList

def quoteOnto (raw : Wide) (written : Wide) : Wide :=
  some '"' :: strictOnto raw (some '"' :: written)

mutual

def writeOnto : Loose → Wide → Wide
  | .null, written => Wide.onto ['n', 'u', 'l', 'l'] written
  | .bool true, written => Wide.onto ['t', 'r', 'u', 'e'] written
  | .bool false, written => Wide.onto ['f', 'a', 'l', 's', 'e'] written
  | .number literal, written => Wide.onto literal written
  | .hex negative n, written => Wide.onto (hexChars negative n) written
  | .text raw, written => quoteOnto raw written
  | .list [], written => Wide.onto ['[', ']'] written
  | .list (v :: vs), written => some ']' :: writeItemsOnto vs (writeOnto v (some '[' :: written))
  | .object [], written => Wide.onto ['\x7b', '\x7d'] written
  | .object ((k, v) :: ms), written =>
    some '\x7d' ::
      writeMembersOnto ms (writeOnto v (some ':' :: quoteOnto k (some '\x7b' :: written)))

/-- The items after the first. -/
def writeItemsOnto : List Loose → Wide → Wide
  | [], written => written
  | v :: vs, written => writeItemsOnto vs (writeOnto v (some ',' :: written))

/-- The members after the first. -/
def writeMembersOnto : List (Wide × Loose) → Wide → Wide
  | [], written => written
  | (k, v) :: ms, written =>
    writeMembersOnto ms (writeOnto v (some ':' :: quoteOnto k (some ',' :: written)))

end

def written (v : Loose) : Wide :=
  (writeOnto v []).reverse

/-- The value that is read back from what is written, as far as its own spelling goes; items and
members keep theirs. -/
def strict : Loose → Loose
  | .text raw => .text (strictText raw)
  | .hex negative n => .number (hexChars negative n)
  | v => v

/-! ## Contents -/

/-- The character that a backslash and a letter stand for. -/
def unescaped (c : Char) : Char :=
  if c = 'b' then '\x08'
  else if c = 'f' then '\x0c'
  else if c = 'n' then '\n'
  else if c = 'r' then '\r'
  else if c = 't' then '\t'
  else if c = 'v' then '\x0b'
  else if c = '0' then '\x00'
  else c

def codeOf (digits : Wide) : Nat :=
  Hex.code (digits.filterMap id)

/-- The one character that no pair of escapes can write: its code marks escapes that are broken. -/
def brokenCode : Nat :=
  0x99999

/-- Puts an escaped code point in front of what is written. A low surrogate right after the escape
of a high one makes a character of the two. -/
def codeOnto (high : Option Nat) (code : Nat) (written : Wide) : Wide :=
  match high with
  | some h =>
    if Surrogate.isLow code then
      let c := Surrogate.pair h code
      if c.toNat = brokenCode then written.drop 1 else some c :: written.drop 1
    else Wide.ofCode code :: written
  | none => Wide.ofCode code :: written

/-- A line that ends behind a backslash goes on. At the end of a string a NUL is what is left. -/
def breakOnto (rest written : Wide) : Wide :=
  if rest.isEmpty then some '\x00' :: written else written

/-- The content of a string, in reverse in front of what is written. `high` is the high surrogate
whose escape came last. -/
def contentOnto : Option Nat → Wide → Wide → Wide
  | _, [], written => written
  | high, some '\\' :: some 'u' :: a :: b :: c :: d :: rest, written =>
    let code := codeOf [a, b, c, d]
    contentOnto (if Surrogate.isHigh code then some code else none) rest
      (codeOnto high code written)
  | _, some '\\' :: some 'x' :: a :: b :: rest, written =>
    contentOnto none rest (Wide.ofCode (codeOf [a, b]) :: written)
  | _, some '\\' :: some '\r' :: some '\n' :: rest, written =>
    contentOnto none rest (breakOnto rest written)
  | _, some '\\' :: some c :: rest, written =>
    contentOnto none rest
      (if isLineEnd c then breakOnto rest written else some (unescaped c) :: written)
  | _, c :: rest, written => contentOnto none rest (c :: written)

def content (raw : Wide) : Wide :=
  (contentOnto none raw []).reverse

/-! ## Nesting -/

mutual

def nesting : Loose → Nat
  | .list items => nestingOfItems items 0 + 1
  | .object members => nestingOfMembers members 0 + 1
  | _ => 0

/-- The deepest of these items, and of what came before. -/
def nestingOfItems : List Loose → Nat → Nat
  | [], deepest => deepest
  | v :: vs, deepest => nestingOfItems vs (max deepest (nesting v))

def nestingOfMembers : List (Wide × Loose) → Nat → Nat
  | [], deepest => deepest
  | (_, v) :: ms, deepest => nestingOfMembers ms (max deepest (nesting v))

end

/-- How deep a text that is read may be nested. -/
def maxNesting : Nat :=
  1000

end Loose
end PropertyBoard
