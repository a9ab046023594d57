import BoundSql.Sql.Dialect
import BoundSql.Sql.Error

/-!
# Names in statements

A column is qualified by its own qualifier, or else by the alias of the statement it stands in;
join keys take only their own. The table of a statement must have a name, and neither the name
nor a schema or alias that is given may be blank.
-/
namespace BoundSql

/-- A column, possibly with the alias of its table. The name `*` is the wildcard. -/
structure ColumnName where
  name : String
  qualifier : Option String
deriving DecidableEq

namespace ColumnName

def plain (name : String) : ColumnName := ⟨name, none⟩

def qualified (qualifier name : String) : ColumnName := ⟨name, some qualifier⟩

def isWildcard (c : ColumnName) : Bool := c.name == "*"

end ColumnName

/-- Where an expression stands: the dialect, and the alias of the statement's table. -/
structure Scope where
  dialect : Dialect
  tableAlias : Option String

namespace Scope

def quote (s : Scope) (name : String) : String := s.dialect.quote name

def placeholder (s : Scope) : String := s.dialect.placeholder

/-- A column under its own qualifier or else the alias of the statement. -/
def column (s : Scope) (c : ColumnName) : String :=
  s.dialect.qualify (c.qualifier.or s.tableAlias) c.name

/-- A column under its own qualifier only. -/
def columnOwn (s : Scope) (c : ColumnName) : String := s.dialect.qualify c.qualifier c.name

/-- Text followed by its alias, if there is one. -/
def aliased (s : Scope) (text : String) : Option String → String
  | some label => text ++ " as " ++ s.quote label
  | none => text

end Scope

/-- The table a statement is about. -/
structure Target where
  table : String
  schema : Option String
  tableAlias : Option String
deriving DecidableEq

namespace Target

/-- Checks the table, then the schema, then the alias. -/
def resolve (table schema tableAlias : Option String) : Except Error Target :=
  match table with
  | none => .error .noTable
  | some table =>
    if Text.isBlank table then .error .blankTable
    else if schema.any Text.isBlank then .error .blankSchema
    else if tableAlias.any Text.isBlank then .error .blankAlias
    else .ok ⟨table, schema, tableAlias⟩

/-- The table's name behind its schema. -/
def name (d : Dialect) (t : Target) : String :=
  match t.schema with
  | some schema => d.quote schema ++ "." ++ d.quote t.table
  | none => d.quote t.table

/-- The table's name with its alias. -/
def nameAliased (d : Dialect) (t : Target) : String :=
  Scope.aliased ⟨d, none⟩ (t.name d) t.tableAlias

/-- Expressions about the target take its alias. -/
def scope (d : Dialect) (t : Target) : Scope := ⟨d, t.tableAlias⟩

theorem resolve_eq_ok_iff {table schema tableAlias : Option String} {t : Target} :
    resolve table schema tableAlias = .ok t ↔
      table = some t.table ∧ schema = t.schema ∧ tableAlias = t.tableAlias ∧
        Text.isBlank t.table = false ∧ t.schema.any Text.isBlank = false ∧
        t.tableAlias.any Text.isBlank = false := by
  cases t
  unfold resolve
  cases table with
  | none => simp
  | some table =>
    dsimp only
    split
    · simp; rintro rfl; simp_all
    · split
      · simp; rintro rfl rfl; simp_all
      · split
        · simp; rintro rfl rfl rfl; simp_all
        · simp only [Except.ok.injEq, mk.injEq, Option.some.injEq]
          constructor
          · rintro ⟨rfl, rfl, rfl⟩; simp_all
          · rintro ⟨rfl, rfl, rfl, -⟩; simp

end Target
end BoundSql
