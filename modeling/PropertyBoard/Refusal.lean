import PropertyBoard.Invalid
import PropertyBoard.Platform

/-!
# PropertyBoard.Refusal

Why a call fails, and what its caller is told.

* `StorageError`: the store could not carry out a statement, or not read a row. What is wrong is put
  in the board's own words, since those of a database are its own affair.
* `BodyFault`: the body of a request could not be taken as JSON of the wanted shape.
* `Refusal`: every cause of a failing call; with an error of the store, what the store was asked for.
* `ErrorKind`, `Report`: the kind with its HTTP status, and the message. `Refusal.report` is the
  report of a cause; `Report.publicMessage` hides the message of an internal error.
-/

namespace PropertyBoard

inductive StorageError where
  | duplicateKey (table : String)
  | danglingReference (table : String)
  | tooManyParams (count : Nat)
  | tooDeep (depth : Nat)
  | patternTooLong
  | malformedJson
  | undecodableRow (table id : String)
  deriving Repr, DecidableEq

namespace StorageError

def message : StorageError → String
  | duplicateKey table => "row of " ++ table ++ " already exists"
  | danglingReference table => "row of " ++ table ++ " refers to no row"
  | tooManyParams count => "statement with " ++ Decimal.toText count ++ " values"
  | tooDeep depth => "condition with parts " ++ Decimal.toText depth ++ " deep"
  | patternTooLong => "pattern too long"
  | malformedJson => "malformed JSON"
  | undecodableRow table id => "row " ++ id ++ " of " ++ table ++ " cannot be read"

end StorageError

inductive BodyFault where
  | notJson
  | tooLarge
  | malformed
  | mismatch
  deriving Repr, DecidableEq

namespace BodyFault

def ofFault : Fault → BodyFault
  | .malformed => malformed
  | .mismatch => mismatch

def message : BodyFault → String
  | notJson => "Expected request with \x60Content-Type: application/json\x60"
  | tooLarge => "Failed to buffer the request body"
  | malformed => "Failed to parse the request body as JSON"
  | mismatch => "Failed to deserialize the JSON body into the target type"

end BodyFault

inductive ErrorKind where
  | badRequest
  | unauthorized
  | forbidden
  | notFound
  | conflict
  | notImplemented
  | internal
  deriving Repr, DecidableEq

namespace ErrorKind

def status : ErrorKind → Nat
  | badRequest => 400
  | unauthorized => 401
  | forbidden => 403
  | notFound => 404
  | conflict => 409
  | notImplemented => 501
  | internal => 500

end ErrorKind

structure Report where
  kind : ErrorKind
  message : String
  deriving Repr, DecidableEq

namespace Report

def isNotFound (r : Report) : Bool :=
  r.kind = .notFound

/-- What a client may read. -/
def publicMessage (r : Report) : String :=
  match r.kind with
  | .internal => "internal server error"
  | _ => r.message

def ofStorage (context detail : String) : Report :=
  { kind := .internal, message := context ++ ": " ++ detail }

end Report

/-- What a call may fail to find. -/
inductive Noun where
  | field
  | property
  | view
  | post
  | channel
  deriving Repr, DecidableEq

namespace Noun

def name : Noun → String
  | field => "property_field"
  | property => "property"
  | view => "view"
  | post => "post"
  | channel => "channel"

end Noun

inductive Refusal where
  | invalid (cause : Invalid)
  | unusable (part : String)
  | idGiven
  | idMismatch
  | unknownField (fieldId : String)
  | tooLong (what id : String) (max : Nat)
  | noCriteria
  | notFound (noun : Noun) (id : String)
  | alreadyHeld (objectId fieldId : String)
  | alreadyMember (userId viewId : String)
  | lacksPermission (userId : String) (permission : Permission) (channelId : String)
  | closedConversation
  | noUser
  | unreadableBody (fault : BodyFault)
  | givenUp (reason : String)
  | storage (error : StorageError) (context : String := "storage")
  deriving Repr, DecidableEq

namespace Refusal

def report : Refusal → Report
  | invalid cause => ⟨.badRequest, cause.message⟩
  | unusable part => ⟨.badRequest, "Invalid " ++ part⟩
  | idGiven => ⟨.badRequest, "id must be blank"⟩
  | idMismatch => ⟨.badRequest, "id in body does not match the path"⟩
  | unknownField fieldId =>
    ⟨.badRequest, "tried to create property with unknown property_field with id=" ++ fieldId⟩
  | tooLong what id max =>
    ⟨.badRequest, what ++ " json for id '" ++ id ++ "' is too long (max " ++ Decimal.toText max ++
      ")"⟩
  | noCriteria =>
    ⟨.badRequest, "query has no filtering criteria: includes or excludes required"⟩
  | notFound noun id => ⟨.notFound, noun.name ++ " " ++ id ++ " not found"⟩
  | alreadyHeld objectId fieldId =>
    ⟨.conflict, "object " ++ objectId ++ " already has a property for field " ++ fieldId⟩
  | alreadyMember userId viewId =>
    ⟨.conflict, "user " ++ userId ++ " is already a member of view " ++ viewId⟩
  | lacksPermission userId permission channelId =>
    ⟨.forbidden, "user " ++ userId ++ " lacks " ++ permission.name ++ " in channel " ++ channelId⟩
  | closedConversation => ⟨.notImplemented, "permission check for dms/gms not implemented"⟩
  | noUser => ⟨.unauthorized, "missing X-User-Id header"⟩
  | unreadableBody fault => ⟨.badRequest, "invalid request body: " ++ fault.message⟩
  | givenUp reason => ⟨.badRequest, reason⟩
  | storage error context => .ofStorage context error.message

/-- A check of data, as part of a call. -/
def ofInvalid {α : Type} : Except Invalid α → Except Refusal α
  | .ok a => .ok a
  | .error cause => .error (.invalid cause)

/-- What the store was asked, as part of a call; the context says what for. -/
def ofStorage {α : Type} (context : String) : Except StorageError α → Except Refusal α
  | .ok a => .ok a
  | .error error => .error (.storage error context)

end Refusal
end PropertyBoard
