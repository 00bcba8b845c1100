import PropertyBoard.Http.Message
import PropertyBoard.Http.Route
import PropertyBoard.Service.Views
import PropertyBoard.Text.Percent

/-!
# PropertyBoard.Http.Answer

What is answered to a request.

* `Exchange`: an answer in the making; it may end early with a response.
* `Answer.toRoute`: the answer of each resource. Whoever changes something has to name a user, and
  the path is read before the query string and the body.
* `Http.answer`: the answer to a request that is well formed. Questions about what is possible are
  always answered with a bare 200, and a request for the head gets no body.
-/

namespace PropertyBoard
namespace Http

abbrev Exchange (α : Type) := ExceptT Response (StateM Board) α

namespace Exchange

variable {α : Type}

def check (result : Except Refusal α) : Exchange α :=
  fun b =>
    match result with
    | .ok a => (.ok a, b)
    | .error e => (.error (.ofRefusal e), b)

def call (c : Call α) : Exchange α :=
  fun b =>
    match c b with
    | (.ok a, b) => (.ok a, b)
    | (.error e, b) => (.error (.ofRefusal e), b)

def look (read : Store → Except Refusal α) : Exchange α :=
  fun b => check (read b.store) b

/-- The identifier in a path, which has to be UTF-8. -/
def pathId (segment : String) : Exchange String :=
  fun b =>
    match Percent.decodeText? segment with
    | some id => (.ok id, b)
    | none => (.error (.bare 400), b)

/-- What a query string says under these names; none of them may come twice. -/
def params (query : Option String) (names : List String) : Exchange (List (String × String)) :=
  fun b =>
    let known := (Percent.formPairs (query.getD "")).filter fun p => names.contains p.1
    if (known.map Prod.fst).Nodup then (.ok known, b) else (.error (.bare 400), b)

end Exchange

namespace Answer

open Exchange

def health : Exchange Response :=
  pure (.json (Health.codec.encode {}))

def done : Response :=
  .json (Done.codec.encode {})

/-! ## Fields -/

def encodeFields (fs : List Field) : Json :=
  (Codec.list Field.codec).encode fs

/-- There is no rule yet about who may change a field. -/
def authorizeField (userId : String) (fieldId : Option String) : Exchange Unit :=
  match Access.toField userId fieldId with
  | .granted => pure ()
  | .unchecked => pure ()

def createField (settings : Settings) (r : Request) : Exchange Response := do
  let userId ← check r.user
  let body ← check (r.readBody FieldRequest.codec)
  authorizeField userId none
  let f ← call (Fields.create body userId)
  pure (.created (settings.location ("field/" ++ f.id)) (Field.codec.encode f))

def searchFields (settings : Settings) (query : Option String) : Exchange Response := do
  let params ← params query ["term", "team_id"]
  let term := (params.lookup "term").getD ""
  let teamId := (params.lookup "team_id").getD ""
  let fs ← look fun s => Fields.search s term teamId settings.searchLimit
  pure (.json (encodeFields fs))

def getField (segment : String) : Exchange Response := do
  let id ← pathId segment
  let f ← look fun s => Fields.get s id
  pure (.json (Field.codec.encode f))

def updateField (r : Request) (segment : String) : Exchange Response := do
  let userId ← check r.user
  let id ← pathId segment
  let body ← check (r.readBody FieldRequest.codec)
  authorizeField userId (some id)
  let f ← call (Fields.update id body userId)
  pure (.json (Field.codec.encode f))

def deleteField (r : Request) (segment : String) : Exchange Response := do
  let userId ← check r.user
  let id ← pathId segment
  authorizeField userId (some id)
  let _ ← call (Fields.delete id)
  pure done

/-! ## Properties -/

/-- Whether the user may change the properties of an object. -/
def authorize (userId : String) (type : ObjectType) (objectId : String) : Exchange Unit := do
  match ← look fun s => Access.toProperty s userId type objectId with
  | .granted => pure ()
  | .unchecked => pure ()

def createProperty (settings : Settings) (r : Request) : Exchange Response := do
  let userId ← check r.user
  let body ← check (r.readBody PropertyRequest.codec)
  let input ← check body.check
  authorize userId input.objectType input.objectId
  let p ← call (Properties.create input userId)
  pure (.created (settings.location ("property/" ++ p.id)) (Created.codec.encode ⟨p.id⟩))

def updateProperty (r : Request) (segment : String) : Exchange Response := do
  let userId ← check r.user
  let id ← pathId segment
  let body ← check (r.readBody ValueRequest.codec)
  let old ← look fun s => Properties.get s id
  authorize userId old.objectType old.objectId
  let p ← call (Properties.update id (body.value.getD []) userId)
  pure (.json p.toJson)

def deleteProperty (r : Request) (segment : String) : Exchange Response := do
  let userId ← check r.user
  let id ← pathId segment
  let old ← look fun s => Properties.get s id
  authorize userId old.objectType old.objectId
  call (Properties.delete id)
  pure done

def getObjectProperties (segment : String) : Exchange Response := do
  let objectId ← pathId segment
  let ps ← look fun s => Properties.ofObject s objectId
  pure (.json (.arr (ps.map Property.toJson)))

/-- The object is taken to be of the type of its first property. -/
def resyncObject (r : Request) (segment : String) : Exchange Response := do
  let userId ← check r.user
  let objectId ← pathId segment
  match ← look fun s => Properties.ofObject s objectId with
  | [] => pure (.json (Updated.codec.encode ⟨0⟩))
  | first :: _ => do
    authorize userId first.objectType objectId
    let n ← call (Properties.resync objectId)
    pure (.json (Updated.codec.encode ⟨n⟩))

/-! ## Views -/

def createView (settings : Settings) (r : Request) : Exchange Response := do
  let _ ← check r.user
  let body ← check (r.readBody ViewRequest.codec)
  let v ← call (Views.create body)
  pure (.created (settings.location ("view/" ++ v.id)) (View.codec.encode v))

def getView (segment : String) : Exchange Response := do
  let id ← pathId segment
  let v ← look fun s => Views.get s id
  pure (.json (View.codec.encode v))

def patchView (r : Request) (segment : String) : Exchange Response := do
  let _ ← check r.user
  let id ← pathId segment
  let patch ← check (r.readBody ViewPatch.codec)
  let v ← call (Views.update id patch)
  pure (.json (View.codec.encode v))

def queryView (settings : Settings) (segment : String) (query : Option String) :
    Exchange Response := do
  let id ← pathId segment
  let params ← params query ["page", "per_page"]
  let asked : PageParams := {
    number := params.lookup "page"
    size := params.lookup "per_page" }
  let resolved ← look fun s => Views.resolve s id (asked.page settings.pageSize)
  pure (.json resolved.toJson)

def addViewMember (r : Request) (segment : String) : Exchange Response := do
  let _ ← check r.user
  let id ← pathId segment
  let body ← check (r.readBody MemberRequest.codec)
  call (Views.addMember body.userId id)
  pure (.createdJson
    (Member.codec.encode { viewId := id, userId := Text.trim body.userId }))

def getUserViews (segment : String) : Exchange Response := do
  let userId ← pathId segment
  let vs ← look fun s => Views.visibleTo s userId
  pure (.json ((Codec.list View.codec).encode vs))

/-- The answer of a resource; a method that it does not serve is refused. -/
def toRoute (settings : Settings) (r : Request) (t : Target) (route : Route) (verb : Verb) :
    Exchange Response :=
  match route, verb with
  | .health, .get => health
  | .fields, .post => createField settings r
  | .fieldSearch, .get => searchFields settings t.query
  | .field segment, .get => getField segment
  | .field segment, .put => updateField r segment
  | .field segment, .delete => deleteField r segment
  | .properties, .post => createProperty settings r
  | .property segment, .put => updateProperty r segment
  | .property segment, .delete => deleteProperty r segment
  | .objectProperties segment, .get => getObjectProperties segment
  | .objectResync segment, .post => resyncObject r segment
  | .views, .post => createView settings r
  | .userViews segment, .get => getUserViews segment
  | .view segment, .get => getView segment
  | .view segment, .patch => patchView r segment
  | .viewQuery segment, .get => queryView settings segment t.query
  | .viewMembers segment, .post => addViewMember r segment
  | _, _ => pure (.bare 405)

/-- The response, whether or not the exchange ended early. -/
def run (e : Exchange Response) (b : Board) : Response × Board :=
  match e b with
  | (.ok response, b) => (response, b)
  | (.error response, b) => (response, b)

/-- The answer to a method on a target. The head of a resource is what getting it would answer. -/
def toVerb (settings : Settings) (r : Request) (t : Target) (verb : Verb) (b : Board) :
    Response × Board :=
  match Route.ofPath? t.path with
  | none => (.bare 404, b)
  | some route =>
    match verb with
    | .head =>
      let (response, b) := run (toRoute settings r t route .get) b
      ({ response with body := none }, b)
    | verb => run (toRoute settings r t route verb) b

end Answer

/-- `none` if the request is not well formed. -/
def answer (settings : Settings) (r : Request) (b : Board) : Option (Response × Board) :=
  match r.target? with
  | none => none
  | some t =>
    match Verb.ofMethod r.method with
    | .options => some (.bare 200, b)
    | verb => some (Answer.toVerb settings r t verb b)

end Http
end PropertyBoard
