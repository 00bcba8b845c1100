import PropertyBoard.Sql.Statement
import PropertyBoard.Store.Basic

/-!
# PropertyBoard.Statement.Views

Statements about views and their members.

* `Views.byId`, `Views.visibleTo`: a view, and the views that a user sees, oldest first. A view
  without members is seen by everybody.
* `Views.insert`, `Views.update`: a new view; new parts of a view, if there are any.
* `Members.insert`, `Members.countOf`, `Members.ofView`: who sees a view.
-/

namespace PropertyBoard
namespace Statement

open Sql Store

namespace Views

def own (c : Column ViewRow) : Column ViewRow :=
  c.within ViewRow.table id

def insert (r : ViewRow) : Insert ViewRow where
  table := ViewRow.table
  columns := ViewRow.columns
  row := r

def byId (id : String) : Select ViewRow where
  columns := ViewRow.columns.map own
  source := quoted ViewRow.table
  conditions := [.equals (own ViewRow.idColumn) (.text id)]

/-- What to replace in a view; JSON as it is stored. -/
structure Parts where
  title : Option String := none
  query : Option String := none
  layout : Option String := none
  deriving Repr, DecidableEq

def assignments (p : Parts) : List (Assignment ViewRow) :=
  (p.title.toList.map (.text "title" fun title old => { old with title })) ++
  (p.query.toList.map (.text "query" fun query old => { old with query })) ++
  (p.layout.toList.map (.text "format" fun layout old => { old with layout }))

/-- `none` if there is nothing to replace. -/
def update? (id : String) (p : Parts) : Option (Update ViewRow) :=
  if (assignments p).isEmpty then none
  else some {
    table := ViewRow.table
    assignments := assignments p
    conditions := [.equals ViewRow.idColumn (.text id)] }

/-- A view beside the members of all views. -/
abbrev WithMembers := ViewRow × List Member

def beside (c : Column ViewRow) : Column WithMembers :=
  c.within ViewRow.table Prod.fst

def withMembers (s : Store) : List WithMembers :=
  s.views.map fun v => (v, s.members)

def members : Relation WithMembers Member where
  written := quoted MemberRow.table ++ " AS \"m\""
  rows r := r.2.map some

def ofMember (c : Column Member) : Column (WithMembers × Member) :=
  c.within "m" Prod.snd

/-- The comparison of a member with the view at hand. -/
def isOfView : Comparison (WithMembers × Member) :=
  .agrees (ofMember MemberRow.viewColumn) (ViewRow.idColumn.within ViewRow.table fun r => r.1.1)

def listsUser (userId : String) : Condition WithMembers :=
  .hasRow (.among members
    [isOfView, .equals (ofMember MemberRow.userColumn) (.text userId)] .here)

def listsAnybody : Condition WithMembers :=
  .hasRow (.among members [isOfView] .here)

def visibleTo (userId : String) : Select WithMembers where
  columns := ViewRow.columns.map beside
  source := quoted ViewRow.table
  conditions := [.either (listsUser userId) (.not listsAnybody)]
  order := [{ column := beside ViewRow.createdAtColumn }, { column := beside ViewRow.idColumn }]

end Views

namespace Members

def insert (m : Member) : Insert Member where
  table := MemberRow.table
  columns := MemberRow.columns
  row := m

def countOf (viewId userId : String) : Count Member where
  source := quoted MemberRow.table
  conditions := [
    .equals MemberRow.viewColumn (.text viewId),
    .equals MemberRow.userColumn (.text userId)]

def ofView (viewId : String) : Select Member where
  columns := [MemberRow.userColumn]
  source := quoted MemberRow.table
  conditions := [.equals MemberRow.viewColumn (.text viewId)]
  order := [{ column := MemberRow.userColumn }]

end Members
end Statement
end PropertyBoard
