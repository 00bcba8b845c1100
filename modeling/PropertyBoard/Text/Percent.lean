import PropertyBoard.Text.Utf8
import PropertyBoard.Text.Parts

/-!
# PropertyBoard.Text.Percent

Percent-encoded octets, as in paths and query strings.

* `decode`: every `%` with two hexadecimal digits after it becomes the octet they write; any other
  octet, a lone `%` too, stands for itself.
* `decodeText?`: a path segment; `none` if its octets are not UTF-8.
* `formText`: a name or a value of a query string: `+` is a blank, octets that are not UTF-8 become
  U+FFFD.
* `formPairs`: the names and values of a query string, in order; empty parts are skipped and a part
  without `=` has the empty value.
-/

namespace PropertyBoard
namespace Percent

def hexDigit? (b : UInt8) : Option UInt8 :=
  if 0x30 ≤ b && b ≤ 0x39 then some (b - 0x30)
  else if 0x41 ≤ b && b ≤ 0x46 then some (b - 0x37)
  else if 0x61 ≤ b && b ≤ 0x66 then some (b - 0x57)
  else none

def decode : List UInt8 → List UInt8
  | 0x25 :: a :: b :: rest =>
    match hexDigit? a, hexDigit? b with
    | some x, some y => (x * 16 + y) :: decode rest
    | _, _ => 0x25 :: decode (a :: b :: rest)
  | b :: rest => b :: decode rest
  | [] => []

def decodeText? (segment : String) : Option String :=
  Utf8.decode? (decode (Utf8.octets segment))

def formText (s : String) : String :=
  Utf8.decodeLossy (decode ((Utf8.octets s).map fun b => if b = 0x2B then 0x20 else b))

def formPair (part : List Char) : String × String :=
  (formText (String.ofList (part.takeWhile (· != '='))),
    formText (String.ofList ((part.dropWhile (· != '=')).drop 1)))

def formPairs (query : String) : List (String × String) :=
  ((Text.parts '&' query.toList).filter (· ≠ [])).map formPair

end Percent
end PropertyBoard
