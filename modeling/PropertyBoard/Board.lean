import PropertyBoard.Identifier
import PropertyBoard.Sql.Statement
import PropertyBoard.Store.Objects

/-!
# PropertyBoard.Board

The board between two calls, and what a call is made of.

* `Board`: the store, the clock, and how many identifiers were drawn from their source.
* `Change`: work on the store that is done as a whole or not at all.
* `Call`: what a caller starts. It looks at the store, makes changes, draws identifiers and may
  end with a refusal. An identifier that was drawn stays drawn.
-/

namespace PropertyBoard

structure Board where
  store : Store := {}
  /-- Milliseconds since 1970. -/
  now : Int64
  drawn : Nat := 0
  source : Identifier.Source := .scattered

/-- The identifier that is drawn next. -/
def Board.nextId (b : Board) : String :=
  b.source.nth (b.drawn + 1)

abbrev Change (α : Type) := StateT Store (Except Refusal) α

abbrev Call (α : Type) := ExceptT Refusal (StateM Board) α

namespace Change

variable {α ρ : Type}

def check (result : Except Refusal α) : Change α :=
  fun s => result.map fun a => (a, s)

def look (read : Store → Except Refusal α) : Change α :=
  fun s => (read s).map fun a => (a, s)

/-- Puts a row into its table. -/
def insert (context : String) (put : Store → ρ → Except StorageError Store) (q : Sql.Insert ρ) :
    Change Unit :=
  fun s =>
    match put s q.row with
    | .ok s => .ok ((), s)
    | .error e => .error (.storage e context)

def updateFields (q : Sql.Update Store.FieldRow) : Change Nat :=
  fun s =>
    let r := q.on s.fields
    .ok (r.2, { s with fields := r.1 })

def updateProperties (q : Sql.Update Store.PropertyRow) : Change Nat :=
  fun s =>
    let r := q.on s.properties
    .ok (r.2, { s with properties := r.1 })

def updateViews (q : Sql.Update Store.ViewRow) : Change Nat :=
  fun s =>
    let r := q.on s.views
    .ok (r.2, { s with views := r.1 })

/-- Properties go with their field. -/
def deleteFields (q : Sql.Delete Store.FieldRow) : Change Nat :=
  fun s =>
    let r := q.on s.fields
    .ok (r.2, s.keepFields r.1)

def deleteProperties (q : Sql.Delete Store.PropertyRow) : Change Nat :=
  fun s =>
    let r := q.on s.properties
    .ok (r.2, { s with properties := r.1 })

end Change

namespace Call

variable {α : Type}

def check (result : Except Refusal α) : Call α :=
  fun b => (result, b)

def look (read : Store → Except Refusal α) : Call α :=
  fun b => (read b.store, b)

/-- Makes a change, unless it is refused. -/
def make (change : Change α) : Call α :=
  fun b =>
    match change b.store with
    | .ok (a, s) => (.ok a, { b with store := s })
    | .error e => (.error e, b)

/-- A change that is refused leaves the board as it was. -/
theorem make_of_error {change : Change α} {b : Board} {e : Refusal}
    (h : change b.store = .error e) : make change b = (.error e, b) := by
  unfold make
  rw [h]

theorem make_of_ok {change : Change α} {b : Board} {a : α} {s : Store}
    (h : change b.store = .ok (a, s)) : make change b = (.ok a, { b with store := s }) := by
  unfold make
  rw [h]

def now : Call Int64 :=
  fun b => (.ok b.now, b)

def drawId : Call String :=
  fun b => (.ok b.nextId, { b with drawn := b.drawn + 1 })

end Call

namespace Store

variable {ρ α : Type}

/-- The rows that a statement shows. -/
def query (context : String) (rows : List ρ) (q : Sql.Select ρ) : Except Refusal (List ρ) :=
  Refusal.ofStorage context (q.on rows)

/-- What each row says, or the first row that cannot be read. -/
def readRows (context table : String) (id : ρ → String) (read : ρ → Option α) :
    List ρ → List α → Except Refusal (List α)
  | [], done => .ok done.reverse
  | r :: rest, done =>
    match read r with
    | some a => readRows context table id read rest (a :: done)
    | none => .error (.storage (.undecodableRow table (id r)) context)

/-- What the first row says, if there is one. -/
def readFirst (context table : String) (id : ρ → String) (read : ρ → Option α) :
    List ρ → Except Refusal (Option α)
  | [] => .ok none
  | r :: _ =>
    match read r with
    | some a => .ok (some a)
    | none => .error (.storage (.undecodableRow table (id r)) context)

end Store
end PropertyBoard
