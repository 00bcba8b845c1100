import PropertyBoard.Settings
import PropertyBoard.Text.Parts

/-!
# PropertyBoard.Http.Route

Which resource a path names, and what a method asks to be done with it.

* `Route`: the resources. An identifier stands in it as it stands in the path, encoded.
* `Route.ofPath?`: the resource of a path. A fixed segment goes before an identifier, and only an
  identifier with a segment after it may be empty.
* `Verb`: the methods that some resource knows, and `other`.
-/

namespace PropertyBoard
namespace Http

inductive Route where
  | health
  | fields
  | fieldSearch
  | field (segment : String)
  | properties
  | property (segment : String)
  | objectProperties (segment : String)
  | objectResync (segment : String)
  | views
  | userViews (segment : String)
  | view (segment : String)
  | viewQuery (segment : String)
  | viewMembers (segment : String)
  deriving Repr, DecidableEq

inductive Verb where
  | get
  | head
  | post
  | put
  | patch
  | delete
  | options
  | other
  deriving Repr, DecidableEq

namespace Verb

def ofMethod (method : String) : Verb :=
  if method = "GET" then get
  else if method = "HEAD" then head
  else if method = "POST" then post
  else if method = "PUT" then put
  else if method = "PATCH" then patch
  else if method = "DELETE" then delete
  else if method = "OPTIONS" then options
  else other

end Verb

namespace Route

/-- A resource whose identifier ends the path, and is not empty there. -/
def below (segment : String) (make : String → Route) : Option Route :=
  if segment = "" then none else some (make segment)

def ofSegments? : List String → Option Route
  | ["health"] => some health
  | ["field"] => some fields
  | ["field", "autocomplete"] => some fieldSearch
  | ["field", id] => below id field
  | ["property"] => some properties
  | ["property", id] => below id property
  | ["property", "object", id] => below id objectProperties
  | ["property", "object", id, "resync"] => some (objectResync id)
  | ["view"] => some views
  | ["view", id] => below id view
  | ["view", "user", id] => below id userViews
  | ["view", id, "query"] => some (viewQuery id)
  | ["view", id, "member"] => some (viewMembers id)
  | _ => none

def segments (path : String) : List String :=
  (Text.parts '/' path.toList).map String.ofList

/-- The segments below the root of all resources. -/
def below? : List String → List String → Option (List String)
  | [], path => some path
  | s :: root, p :: path => if s = p then below? root path else none
  | _ :: _, [] => none

def ofPath? (path : String) : Option Route :=
  (below? (segments Settings.apiRoot) (segments path)).bind ofSegments?

end Route
end Http
end PropertyBoard
