import PropertyBoard.Service.Views
import PropertyBoard.Store.Host

/-!
# PropertyBoard.Run

What can happen to a board over time.

* `ServiceCall`: the calls about fields, properties and views, with all their arguments.
* `Action`: a call, a write of the platform, or the passing of time.
* `Board.after`, `Board.run`: the board after one action and after several. A call that is refused
  leaves the store as it was.
* `Board.Reachable`: the boards that come about from an empty store, with any source of identifiers.
-/

namespace PropertyBoard

inductive ServiceCall where
  | createField (r : FieldRequest) (userId : String)
  | getField (id : String)
  | listFields (filter : FieldFilter)
  | searchFields (term teamId : String) (limit : Int64)
  | updateField (id : String) (r : FieldRequest) (userId : String)
  | deleteField (id : String)
  | createProperty (input : PropertyInput) (userId : String)
  | getProperty (id : String)
  | listProperties (objectId : String)
  | updateProperty (id : String) (raw : List Json) (userId : String)
  | deleteProperty (id : String)
  | resyncObject (objectId : String)
  | createView (r : ViewRequest)
  | getView (id : String)
  | updateView (id : String) (p : ViewPatch)
  | addMember (userId viewId : String)
  | listMembers (viewId : String)
  | listViews (userId : String)
  | runQuery (q : Query) (page : Page)
  | resolveView (id : String) (page : Page)

namespace ServiceCall

/-- A call whose answer does not matter. -/
def silent {α : Type} (c : Call α) : Call Unit :=
  fun b =>
    match c b with
    | (.ok _, b) => (.ok (), b)
    | (.error e, b) => (.error e, b)

def run : ServiceCall → Call Unit
  | createField r userId => silent (Fields.create r userId)
  | getField id => silent (Call.look fun s => Fields.get s id)
  | listFields filter => silent (Call.look fun s => Fields.list s filter)
  | searchFields term teamId limit =>
    silent (Call.look fun s => Fields.search s term teamId limit)
  | updateField id r userId => silent (Fields.update id r userId)
  | deleteField id => silent (Fields.delete id)
  | createProperty input userId => silent (Properties.create input userId)
  | getProperty id => silent (Call.look fun s => Properties.get s id)
  | listProperties objectId => silent (Call.look fun s => Properties.ofObject s objectId)
  | updateProperty id raw userId => silent (Properties.update id raw userId)
  | deleteProperty id => Properties.delete id
  | resyncObject objectId => silent (Properties.resync objectId)
  | createView r => silent (Views.create r)
  | getView id => silent (Call.look fun s => Views.get s id)
  | updateView id p => silent (Views.update id p)
  | addMember userId viewId => Views.addMember userId viewId
  | listMembers viewId => silent (Call.look fun s => Views.members s viewId)
  | listViews userId => silent (Call.look fun s => Views.visibleTo s userId)
  | runQuery q page => silent (Call.look fun s => Views.runQuery s q (some .post) page)
  | resolveView id page => silent (Call.look fun s => Views.resolve s id page)

end ServiceCall

inductive Action where
  | call (c : ServiceCall)
  | host (w : HostWrite)
  | setClock (now : Int64)

namespace Board

/-- A write that the store cannot take changes nothing. -/
def after (b : Board) : Action → Board
  | .call c => (c.run b).2
  | .host w =>
    match w.on b.store with
    | .ok (s, _) => { b with store := s }
    | .error _ => b
  | .setClock now => { b with now }

def run (b : Board) (actions : List Action) : Board :=
  actions.foldl after b

/-- The boards of all runs, whatever the source of identifiers. -/
def Reachable (b : Board) : Prop :=
  ∃ source now actions, b = run { now, source } actions

end Board
end PropertyBoard
