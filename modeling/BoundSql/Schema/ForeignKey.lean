import BoundSql.Sql.Fragment
import BoundSql.Sql.Naming

/-!
# Foreign keys

A foreign key ties a column to a column of another table. All three names are needed.
-/
namespace BoundSql

/-- A reference to a row of another table. -/
structure ForeignKey where
  column : String
  referencedTable : String
  referencedColumn : String
  onDelete : ReferentialAction
  onUpdate : ReferentialAction
deriving DecidableEq

namespace ForeignKey

/-- A key that references nothing yet. -/
def ofColumn (column : String) : ForeignKey := ⟨column, "", "", .noAction, .noAction⟩

/-- No name may be blank. -/
def check (k : ForeignKey) : Except Error Unit :=
  if Text.isBlank k.column || Text.isBlank k.referencedTable || Text.isBlank k.referencedColumn then
    .error (.incompleteReference k.column)
  else .ok ()

def text (d : Dialect) (k : ForeignKey) : String :=
  "FOREIGN KEY (" ++ d.quote k.column ++ ") REFERENCES " ++ d.quote k.referencedTable ++ "(" ++
    d.quote k.referencedColumn ++ ") ON DELETE " ++ k.onDelete.keyword ++ " ON UPDATE " ++
    k.onUpdate.keyword

/-- The SQL of a foreign key. -/
def sql (d : Dialect) (k : ForeignKey) : Except Error Fragment := do
  k.check
  return .ofText (k.text d)

/-! ## Building -/

/-- A change to a foreign key. -/
inductive Edit where
  | references (table column : String)
  | onDelete (action : ReferentialAction)
  | onUpdate (action : ReferentialAction)

def edit (k : ForeignKey) : Edit → ForeignKey
  | .references table column => { k with referencedTable := table, referencedColumn := column }
  | .onDelete action => { k with onDelete := action }
  | .onUpdate action => { k with onUpdate := action }

/-- The foreign key that edits make from another. -/
def build (k : ForeignKey) (edits : List Edit) : ForeignKey := edits.foldl edit k

/-! ## Documents -/

def toJson (k : ForeignKey) : Json :=
  .object
    [("column", .string k.column), ("referenced_table", .string k.referencedTable),
      ("referenced_column", .string k.referencedColumn), ("on_delete", k.onDelete.toJson),
      ("on_update", k.onUpdate.toJson)]

def ofJson? (j : Json) : Option ForeignKey :=
  match j.fields? ["column", "referenced_table", "referenced_column", "on_delete", "on_update"] with
  | some [column, referencedTable, referencedColumn, onDelete, onUpdate] => do
    return {
      column := ← Json.required Json.string? column
      referencedTable := ← Json.required Json.string? referencedTable
      referencedColumn := ← Json.required Json.string? referencedColumn
      onDelete := ← Json.defaulted .noAction ReferentialAction.ofJson? onDelete
      onUpdate := ← Json.defaulted .noAction ReferentialAction.ofJson? onUpdate }
  | _ => none

/-- Reads a foreign key from JSON text. -/
def parse? (text : String) : Option ForeignKey := Json.parse? text >>= ofJson?

end ForeignKey
end BoundSql
