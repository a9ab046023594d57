import BoundSql.Change.Delete
import BoundSql.Change.Insert
import BoundSql.Change.Update
import BoundSql.Schema.Index
import BoundSql.Schema.Table

/-!
# Query documents

A document holds one statement of any kind, under the name of its kind.
-/
namespace BoundSql

/-- A statement of any kind. -/
inductive Query where
  | select (query : Select)
  | insert (query : Insert)
  | update (query : Update)
  | delete (query : Delete)
  | createTable (query : CreateTable)
  | createIndex (query : CreateIndex)

namespace Query

/-- The kind as it is shown to a reader. -/
def kind : Query → String
  | .select _ => "SELECT"
  | .insert _ => "INSERT"
  | .update _ => "UPDATE"
  | .delete q => if q.truncate then "TRUNCATE" else "DELETE"
  | .createTable _ => "CREATE TABLE"
  | .createIndex _ => "CREATE INDEX"

/-- The table the statement is about. -/
def table : Query → Option String
  | .select q => q.table
  | .insert q => q.table
  | .update q => q.table
  | .delete q => q.table
  | .createTable q => q.table
  | .createIndex q => q.table

/-- The SQL of a statement. -/
def sql (d : Dialect) : Query → Except Error Fragment
  | .select q => q.sql d
  | .insert q => q.sql d
  | .update q => q.sql d
  | .delete q => q.sql d
  | .createTable q => q.sql d
  | .createIndex q => q.sql d

def toJson : Query → Json
  | .select q => .object [("select", q.toJson)]
  | .insert q => .object [("insert", q.toJson)]
  | .update q => .object [("update", q.toJson)]
  | .delete q => .object [("delete", q.toJson)]
  | .createTable q => .object [("create_table", q.toJson)]
  | .createIndex q => .object [("create_index", q.toJson)]

def ofJson? (j : Json) : Option Query :=
  match j.variant? with
  | some ("select", part) => (Select.ofJson? part.val).map .select
  | some ("insert", part) => (Insert.ofJson? part.val).map .insert
  | some ("update", part) => (Update.ofJson? part.val).map .update
  | some ("delete", part) => (Delete.ofJson? part.val).map .delete
  | some ("create_table", part) => (CreateTable.ofJson? part.val).map .createTable
  | some ("create_index", part) => (CreateIndex.ofJson? part.val).map .createIndex
  | _ => none

/-- Reads a statement from JSON text. -/
def parse? (text : String) : Option Query := Json.parse? text >>= ofJson?

end Query
end BoundSql
