import PropertyBoard.Http.MediaType
import PropertyBoard.Http.Reply
import PropertyBoard.Http.Target
import PropertyBoard.Refusal
import PropertyBoard.Text.Blank

/-!
# PropertyBoard.Http.Message

Requests and responses.

* `Request`: method, target, headers in their order, and perhaps a body. `Request.target?` is the
  target of a request that is well formed as a whole.
* `Request.user`: who sends it. `Request.readBody`: the body as JSON of a type.
* `Response`: status, the address of a new resource, and a JSON body.
-/

namespace PropertyBoard
namespace Http

structure Request where
  method : String
  target : String
  headers : List (String × String)
  body : Option String
  deriving Repr

namespace Request

def target? (r : Request) : Option Target :=
  if isToken r.method && r.headers.all fun h => isFieldName h.1 && isFieldText h.2 then
    Target.ofText? r.target
  else none

/-- The first header of this name. -/
def header? (r : Request) (name : String) : Option String :=
  (r.headers.find? fun h => sameName h.1 name).map Prod.snd

/-- The header in which the platform names the acting user. -/
def userHeader : String :=
  "x-user-id"

def user (r : Request) : Except Refusal String :=
  match ((r.header? userHeader).filter isVisibleText).bind Text.nonBlank? with
  | some userId => .ok userId
  | none => .error .noUser

def hasJsonType (r : Request) : Bool :=
  match ((r.header? "content-type").filter isVisibleText).bind MediaType.ofText? with
  | some m => m.isJson
  | none => false

/-- The longest body, in octets. -/
def maxBodySize : Nat :=
  2 * 1024 * 1024

def readBody {α : Type} (r : Request) (c : Codec α) : Except Refusal α :=
  let body := r.body.getD ""
  if !r.hasJsonType then .error (.unreadableBody .notJson)
  else if maxBodySize < body.utf8ByteSize then .error (.unreadableBody .tooLarge)
  else
    match c.read body with
    | .ok a => .ok a
    | .error fault => .error (.unreadableBody (.ofFault fault))

end Request

structure Response where
  status : Nat
  location : Option String := none
  body : Option Json := none
  deriving Repr

namespace Response

/-- A status without a body. -/
def bare (status : Nat) : Response :=
  { status }

def json (body : Json) : Response :=
  { status := 200, body := some body }

def createdJson (body : Json) : Response :=
  { status := 201, body := some body }

/-- The answer about a new resource. An address that no header can hold is an internal error. -/
def created (location : String) (body : Json) : Response :=
  if isFieldText location then
    { status := 201, location := some location, body := some body }
  else bare 500

def ofReport (r : Report) : Response :=
  { status := r.kind.status, body := some (Problem.codec.encode ⟨r.publicMessage⟩) }

def ofRefusal (e : Refusal) : Response :=
  ofReport e.report

end Response
end Http
end PropertyBoard
