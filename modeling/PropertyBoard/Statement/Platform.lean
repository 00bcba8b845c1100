import PropertyBoard.Sql.Statement
import PropertyBoard.Store.Basic

/-!
# PropertyBoard.Statement.Platform

Statements about posts, channels and the roles of users in channels; all of them only read.
-/

namespace PropertyBoard
namespace Statement

open Sql Store

namespace Posts

def byId (id : String) : Select Post where
  columns := PostRow.columns
  source := quoted PostRow.table
  conditions := [.equals PostRow.idColumn (.text id)]

def byIds (ids : List String) : Select Post where
  columns := PostRow.columns
  source := quoted PostRow.table
  conditions := [.isIn PostRow.idColumn (ids.map .text)]

/-- A page of the posts of a channel, newest first. -/
def timeline (channelId : String) (page : Page) : Select Post where
  columns := PostRow.columns
  source := quoted PostRow.table
  conditions := [.equals PostRow.channelColumn (.text channelId)]
  order := [
    { column := PostRow.createdAtColumn, descending := true },
    { column := PostRow.idColumn, descending := true }]
  window := some page.window

end Posts

namespace Channels

def byId (id : String) : Select ChannelRow where
  columns := ChannelRow.columns
  source := quoted ChannelRow.table
  conditions := [.equals ChannelRow.idColumn (.text id)]

def roleOf (channelId userId : String) : Select RoleRow where
  columns := [RoleRow.roleColumn]
  source := quoted RoleRow.table
  conditions := [
    .equals RoleRow.channelColumn (.text channelId),
    .equals RoleRow.userColumn (.text userId)]

end Channels
end Statement
end PropertyBoard
