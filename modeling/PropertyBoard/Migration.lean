import PropertyBoard.Store.Objects

/-!
# PropertyBoard.Migration

The steps that bring a database to the form that the board needs. A step that was taken is recorded
by its name and not taken again. A new file has no table at all, not even the one of the records.

* `Table`, `Definition`: what a step makes. Whatever is there by the name is left as it is.
* `Migration.all`: the steps, in order. `Migration.definitions`: what each of them makes.
* `Database.define`, `Database.take`: one definition, one step.
* `Database.migrate`: all steps that are still to be taken, or none of them.
* `Database.opened`: the database after the board was started on it.
-/

namespace PropertyBoard

inductive Table where
  | fields
  | properties
  | views
  | members
  | channels
  | roles
  | posts
  deriving Repr, DecidableEq

namespace Table

def name : Table → String
  | fields => Store.FieldRow.table
  | properties => Store.PropertyRow.table
  | views => Store.ViewRow.table
  | members => Store.MemberRow.table
  | channels => Store.ChannelRow.table
  | roles => Store.RoleRow.table
  | posts => Store.PostRow.table

/-- The store with no rows in a table. -/
def empty (s : Store) : Table → Store
  | fields => { s with fields := [] }
  | properties => { s with properties := [] }
  | views => { s with views := [] }
  | members => { s with members := [] }
  | channels => { s with channels := [] }
  | roles => { s with roles := [] }
  | posts => { s with posts := [] }

end Table

/-- What a database can be made to have. All of it stands under one set of names. -/
inductive Definition where
  /-- The table that records the steps taken. -/
  | steps
  | table (t : Table)
  | index (name : String) (table : Table)
  /-- At most one property for an object and a field. -/
  | uniquePairs
  /-- The rows of the objects, each made of the properties of one object. -/
  | objects
  deriving Repr, DecidableEq

namespace Definition

/-- Why a definition cannot be carried out. -/
inductive Fault where
  | noTable (name : String)
  | notUnique (index : String)
  deriving Repr, DecidableEq

def name : Definition → String
  | steps => "_migrations"
  | table t => t.name
  | index name _ => name
  | uniquePairs => "idx_properties_object_field"
  | objects => Store.ObjectRow.view

/-- Whether something of the same name was made. -/
def isAmong (made : List Definition) (c : Definition) : Bool :=
  (made.map name).contains c.name

end Definition

inductive Migration where
  | schema
  | platform
  | uniqueProperties
  deriving Repr, DecidableEq

namespace Migration

def all : List Migration :=
  [schema, platform, uniqueProperties]

def name : Migration → String
  | schema => "0001_schema"
  | platform => "0002_host"
  | uniqueProperties => "0003_property_unique"

def definitions : Migration → List Definition
  | schema => [
      .table .fields,
      .index "idx_property_fields_team" .fields,
      .table .properties,
      .index "idx_properties_object" .properties,
      .index "idx_properties_field" .properties,
      .index "idx_properties_channel" .properties,
      .table .views,
      .table .members,
      .index "idx_view_members_user" .members,
      .objects]
  | platform => [
      .table .channels,
      .table .roles,
      .table .posts,
      .index "idx_posts_channel" .posts]
  | uniqueProperties => [.uniquePairs]

inductive Failure where
  | running (step : Migration) (fault : Definition.Fault)
  /-- A name is recorded once. -/
  | recording (step : Migration)
  deriving Repr, DecidableEq

def Failure.message : Failure → String
  | running m _ => "running migration " ++ m.name
  | recording _ => "UNIQUE constraint failed: _migrations.name"

def holdsPair (rows : List Store.PropertyRow) (r : Store.PropertyRow) : Bool :=
  rows.any fun p => p.objectId = r.objectId && p.fieldId = r.fieldId

/-- Whether no object has two properties for one field. -/
def arePairsUnique : List Store.PropertyRow → Bool
  | [] => true
  | r :: rest => !holdsPair rest r && arePairsUnique rest

end Migration

/-- What was made, the names of the steps taken, in order, and the rows. -/
structure Database where
  made : List Definition := []
  applied : List String := []
  store : Store := {}
  deriving Repr, DecidableEq

namespace Database

open Migration

def has (d : Database) (c : Definition) : Bool :=
  c.isAmong d.made

/-- An index is over a table that is there, and one that allows no repetition over rows that have
none. The rest can always be made. -/
def fault (d : Database) : Definition → Option Definition.Fault
  | .index _ t => if d.has (.table t) then none else some (.noTable t.name)
  | .uniquePairs =>
    if !d.has (.table .properties) then some (.noTable Table.properties.name)
    else if arePairsUnique d.store.properties then none
    else some (.notUnique Definition.uniquePairs.name)
  | _ => none

/-- A new table has no rows. -/
def make (d : Database) (c : Definition) : Database :=
  let made := d.made ++ [c]
  match c with
  | .steps => { d with made, applied := [] }
  | .table t => { d with made, store := t.empty d.store }
  | _ => { d with made }

def define (d : Database) (c : Definition) : Except Definition.Fault Database :=
  if d.has c then .ok d
  else
    match d.fault c with
    | some e => .error e
    | none => .ok (d.make c)

/-- One step, whether or not it was taken before. -/
def take (d : Database) (m : Migration) : Except Failure Database :=
  match m.definitions.foldlM define d with
  | .error e => .error (.running m e)
  | .ok d =>
    if d.applied.contains m.name then .error (.recording m)
    else .ok { d with applied := d.applied ++ [m.name] }

def apply (d : Database) (m : Migration) : Except Failure Database :=
  if d.applied.contains m.name then .ok d else d.take m

/-- The database with a table that records the steps. -/
def tracked (d : Database) : Database :=
  if d.has .steps then d else d.make .steps

def migrate (d : Database) : Except Failure Database :=
  Migration.all.foldlM apply d.tracked

/-- What is left when the board was started. A start that fails leaves the database as it was. -/
def opened (d : Database) : Database :=
  match d.migrate with
  | .ok d' => d'
  | .error _ => d

/-- The names recorded after each of several openings of one database. -/
def openings : Nat → Database → List (List String)
  | 0, _ => []
  | n + 1, d =>
    match d.migrate with
    | .ok d => d.applied :: openings n d
    | .error _ => []

end Database
end PropertyBoard
