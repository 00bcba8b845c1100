import PropertyBoard.Text.Lowercase

/-!
# PropertyBoard.Http.Syntax

The characters of which the head of a message is made.

* `isTokenChar`, `isToken`: methods and names of headers.
* `isFieldText`: what the value of a header may be; no control character but the tab.
* `isVisibleText`: a value of ASCII characters only.
-/

namespace PropertyBoard
namespace Http

def isAlphanumeric (c : Char) : Bool :=
  ('0' ≤ c && c ≤ '9') || ('A' ≤ c && c ≤ 'Z') || ('a' ≤ c && c ≤ 'z')

def isTokenChar (c : Char) : Bool :=
  isAlphanumeric c || "!#$%&'*+-.^_\x60|~".toList.contains c

def isToken (s : String) : Bool :=
  !s.isEmpty && s.toList.all isTokenChar

def isFieldChar (c : Char) : Bool :=
  c == '\t' || (0x20 ≤ c.toNat && c.toNat != 0x7F)

def isFieldText (s : String) : Bool :=
  s.toList.all isFieldChar

def isVisibleText (s : String) : Bool :=
  s.toList.all fun c => isFieldChar c && c.toNat < 0x80

/-- The longest name of a header, in octets. -/
def maxNameSize : Nat :=
  65535

def isFieldName (s : String) : Bool :=
  isToken s && s.utf8ByteSize ≤ maxNameSize

/-- Names of headers are the same in capital and in small letters. -/
def sameName (a b : String) : Bool :=
  Text.Lowercase.ascii a = Text.Lowercase.ascii b

end Http
end PropertyBoard
