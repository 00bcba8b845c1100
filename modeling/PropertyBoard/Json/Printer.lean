import PropertyBoard.Json.Basic

/-!
# PropertyBoard.Json.Printer

The compact text of a JSON value: no blanks, members in their order.

* `escape`: the characters that stand for one character of a string. Only the quote, the backslash
  and the characters below U+0020 are escaped.
* `render`: the text as characters.
* `renderOnto`: the same, in reverse, in front of what is already written; `renderOnto_eq` relates
  the two.
* `text`: the text as a string.
-/

namespace PropertyBoard
namespace Json

def hexDigit (d : Nat) : Char :=
  if d < 10 then Char.ofNat (48 + d) else Char.ofNat (87 + d)

def escape (c : Char) : List Char :=
  if c = '"' then ['\\', '"']
  else if c = '\\' then ['\\', '\\']
  else if c.toNat < 0x20 then
    if c.toNat = 0x08 then ['\\', 'b']
    else if c.toNat = 0x09 then ['\\', 't']
    else if c.toNat = 0x0A then ['\\', 'n']
    else if c.toNat = 0x0C then ['\\', 'f']
    else if c.toNat = 0x0D then ['\\', 'r']
    else ['\\', 'u', '0', '0', hexDigit (c.toNat / 16), hexDigit (c.toNat % 16)]
  else [c]

def quote (s : String) : List Char :=
  '"' :: s.toList.flatMap escape ++ ['"']

def literalChars : Json → List Char
  | .null => ['n', 'u', 'l', 'l']
  | .bool true => ['t', 'r', 'u', 'e']
  | .bool false => ['f', 'a', 'l', 's', 'e']
  | .int n => Decimal.intChars n
  | .real literal => literal.toList
  | .str s => quote s
  | .arr _ => []
  | .obj _ => []

mutual

def render : Json → List Char
  | .arr [] => ['[', ']']
  | .arr (j :: js) => '[' :: render j ++ renderItems js ++ [']']
  | .obj [] => ['\x7b', '\x7d']
  | .obj ((k, j) :: ms) => '\x7b' :: quote k ++ ':' :: render j ++ renderMembers ms ++ ['\x7d']
  | j => literalChars j

/-- The items after the first. -/
def renderItems : List Json → List Char
  | [] => []
  | j :: js => ',' :: render j ++ renderItems js

/-- The members after the first. -/
def renderMembers : List (String × Json) → List Char
  | [] => []
  | (k, j) :: ms => ',' :: quote k ++ ':' :: render j ++ renderMembers ms

end

/-- Puts characters in reverse in front of what is written. -/
def onto (cs written : List Char) : List Char :=
  cs.reverseAux written

mutual

def renderOnto : Json → List Char → List Char
  | .arr [], written => ']' :: '[' :: written
  | .arr (j :: js), written => ']' :: renderItemsOnto js (renderOnto j ('[' :: written))
  | .obj [], written => '\x7d' :: '\x7b' :: written
  | .obj ((k, j) :: ms), written =>
    '\x7d' :: renderMembersOnto ms (renderOnto j (':' :: onto (quote k) ('\x7b' :: written)))
  | j, written => onto (literalChars j) written

def renderItemsOnto : List Json → List Char → List Char
  | [], written => written
  | j :: js, written => renderItemsOnto js (renderOnto j (',' :: written))

def renderMembersOnto : List (String × Json) → List Char → List Char
  | [], written => written
  | (k, j) :: ms, written =>
    renderMembersOnto ms (renderOnto j (':' :: onto (quote k) (',' :: written)))

end

def text (j : Json) : String :=
  String.ofList (renderOnto j []).reverse

/-! ## The two renderings agree -/

theorem onto_eq (cs written : List Char) : onto cs written = cs.reverse ++ written := by
  simp [onto, List.reverseAux_eq]

mutual

theorem renderOnto_eq :
    ∀ (j : Json) (written : List Char), renderOnto j written = (render j).reverse ++ written
  | .arr [], _ => by simp [renderOnto, render]
  | .arr (j :: js), w => by
    simp [renderOnto, render, renderOnto_eq j, renderItemsOnto_eq js]
  | .obj [], _ => by simp [renderOnto, render]
  | .obj ((k, j) :: ms), w => by
    simp [renderOnto, render, renderOnto_eq j, renderMembersOnto_eq ms, onto_eq]
  | .null, _ => by simp [renderOnto, render, onto_eq]
  | .bool _, _ => by simp [renderOnto, render, onto_eq]
  | .int _, _ => by simp [renderOnto, render, onto_eq]
  | .real _, _ => by simp [renderOnto, render, onto_eq]
  | .str _, _ => by simp [renderOnto, render, onto_eq]

theorem renderItemsOnto_eq : ∀ (js : List Json) (written : List Char),
    renderItemsOnto js written = (renderItems js).reverse ++ written
  | [], _ => by simp [renderItemsOnto, renderItems]
  | j :: js, w => by
    simp [renderItemsOnto, renderItems, renderOnto_eq j, renderItemsOnto_eq js]

theorem renderMembersOnto_eq : ∀ (ms : List (String × Json)) (written : List Char),
    renderMembersOnto ms written = (renderMembers ms).reverse ++ written
  | [], _ => by simp [renderMembersOnto, renderMembers]
  | (k, j) :: ms, w => by
    simp [renderMembersOnto, renderMembers, renderOnto_eq j, renderMembersOnto_eq ms, onto_eq]

end

theorem text_eq (j : Json) : text j = String.ofList (render j) := by
  simp [text, renderOnto_eq]

end Json
end PropertyBoard
