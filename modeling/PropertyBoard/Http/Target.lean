import PropertyBoard.Http.Syntax

/-!
# PropertyBoard.Http.Target

What a request asks for: a path and perhaps a query string.

* `Target.ofText?`: the target that a text writes. It is a path, or an address with a scheme, or an
  authority alone, or `*`; the last two have no path. A fragment is cut off.
-/

namespace PropertyBoard
namespace Http

structure Target where
  path : String
  query : Option String
  deriving Repr, DecidableEq

namespace Target

/-- The longest target, in octets. -/
def maxSize : Nat :=
  65534

def isWithin (c : Char) (first last : Nat) : Bool :=
  first ≤ c.toNat && c.toNat ≤ last

/-- Characters that need no encoding in a path, and those that are let through without it. -/
def isPathChar (c : Char) : Bool :=
  c == '!' || c == '"' || isWithin c 0x24 0x3B || c == '=' || isWithin c 0x40 0x5F ||
    isWithin c 0x61 0x7E || 0x80 ≤ c.toNat

def isQueryChar (c : Char) : Bool :=
  c == '!' || isWithin c 0x24 0x3B || c == '=' || isWithin c 0x3F 0x7E || 0x80 ≤ c.toNat

/-- The target of a path with what may follow it. -/
def ofPath? (cs : List Char) : Option Target :=
  let path := cs.takeWhile fun c => c != '?' && c != '#'
  let rest := cs.dropWhile fun c => c != '?' && c != '#'
  if !path.all isPathChar then none
  else
    match rest with
    | '?' :: afterMark =>
      let query := afterMark.takeWhile (· != '#')
      if query.all isQueryChar then
        some { path := String.ofList path, query := some (String.ofList query) }
      else none
    | _ => some { path := String.ofList path, query := none }

/-! ## Addresses with an authority -/

def isSchemeChar (c : Char) : Bool :=
  isAlphanumeric c || c == '+' || c == '-' || c == '.' || c == '~'

def maxSchemeSize : Nat :=
  64

def isAuthorityChar (c : Char) : Bool :=
  isAlphanumeric c || "!$&'()*+,-.:;=@[]_~%".toList.contains c

/-- What was met in an authority so far; colons and percent signs count from the last `@` or `]`. -/
structure Authority where
  colons : Nat := 0
  opened : Bool := false
  closed : Bool := false
  percent : Bool := false
  endsInAt : Bool := false

namespace Authority

def maxColons : Nat :=
  8

def step (a : Authority) (c : Char) : Option Authority :=
  let a := { a with endsInAt := c == '@' }
  if c = ':' then
    if maxColons ≤ a.colons then none else some { a with colons := a.colons + 1 }
  else if c = '[' then
    if a.percent || a.opened then none else some { a with opened := true }
  else if c = ']' then
    if !a.opened || a.closed then none
    else some { a with closed := true, colons := 0, percent := false }
  else if c = '@' then some { a with colons := 0, percent := false }
  else if c = '%' then some { a with percent := true }
  else if isAuthorityChar c then some a
  else none

def isComplete (a : Authority) : Bool :=
  a.opened == a.closed && a.colons ≤ 1 && !a.endsInAt && !a.percent

def isValid (cs : List Char) : Bool :=
  match cs.foldlM step {} with
  | some a => a.isComplete
  | none => false

end Authority

def endsAuthority (c : Char) : Bool :=
  c == '/' || c == '?' || c == '#'

/-- What follows the authority, if it is one. -/
def afterAuthority? (cs : List Char) : Option (List Char) :=
  if Authority.isValid (cs.takeWhile fun c => !endsAuthority c) then
    some (cs.dropWhile fun c => !endsAuthority c)
  else none

/-- The target of an address whose scheme was read. -/
def ofAddress? (cs : List Char) : Option Target :=
  match afterAuthority? cs with
  | some rest =>
    if rest.length = cs.length then none
    else
      (ofPath? rest).map fun t => if t.path = "" then { t with path := "/" } else t
  | none => none

/-- An authority alone has no path. -/
def ofAuthority? (cs : List Char) : Option Target :=
  match afterAuthority? cs with
  | some [] => some { path := "", query := none }
  | _ => none

def ofText? (s : String) : Option Target :=
  if maxSize < s.utf8ByteSize then none
  else
    match s.toList with
    | [] => none
    | ['*'] => some { path := "*", query := none }
    | '/' :: cs => ofPath? ('/' :: cs)
    | cs =>
      match cs.dropWhile isSchemeChar with
      | ':' :: '/' :: '/' :: rest =>
        if cs.length ≤ 3 then none
        else if maxSchemeSize < (cs.takeWhile isSchemeChar).length then none
        else ofAddress? rest
      | _ => ofAuthority? cs

end Target
end Http
end PropertyBoard
