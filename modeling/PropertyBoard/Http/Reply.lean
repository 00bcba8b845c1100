import PropertyBoard.Json.Codec

/-!
# PropertyBoard.Http.Reply

The small bodies of responses.

* `Created`: the identifier of a new resource.
* `Done`: nothing more to say.
* `Health`: whether the service runs, and which version.
* `Updated`: how many rows were changed.
* `Problem`: why a request was refused.
-/

namespace PropertyBoard
namespace Http

structure Created where
  id : String
  deriving Repr, DecidableEq

namespace Created

def codec : Codec Created where
  shape := .record [("id", .required, .text)]
  encode r := .obj [("id", .str r.id)]
  decode j := do
    let id ← Codec.text.required j "id"
    some { id }

end Created

structure Done where
  ok : Bool := true
  deriving Repr, DecidableEq

namespace Done

def codec : Codec Done where
  shape := .record [("ok", .required, .flag)]
  encode r := .obj [("ok", .bool r.ok)]
  decode j := do
    let ok ← Codec.flag.required j "ok"
    some { ok }

end Done

structure Health where
  status : String := "ok"
  version : String := "0.1.0"
  deriving Repr, DecidableEq

namespace Health

def codec : Codec Health where
  shape := .record [
    ("status", .required, .text),
    ("version", .required, .text)]
  encode r := .obj [
    ("status", .str r.status),
    ("version", .str r.version)]
  decode j := do
    let status ← Codec.text.required j "status"
    let version ← Codec.text.required j "version"
    some { status, version }

end Health

structure Updated where
  count : Nat
  deriving Repr, DecidableEq

namespace Updated

def codec : Codec Updated where
  shape := .record [("updated", .required, .count)]
  encode r := .obj [("updated", Codec.count.encode r.count)]
  decode j := do
    let count ← Codec.count.required j "updated"
    some { count }

end Updated

structure Problem where
  error : String
  deriving Repr, DecidableEq

namespace Problem

def codec : Codec Problem where
  shape := .record [("error", .required, .text)]
  encode r := .obj [("error", .str r.error)]
  decode j := do
    let error ← Codec.text.required j "error"
    some { error }

end Problem
end Http
end PropertyBoard
