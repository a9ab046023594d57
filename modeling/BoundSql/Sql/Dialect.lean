import BoundSql.Text.Quoted

/-!
# Dialects

A dialect fixes what may differ between databases: how a name is quoted, what a placeholder
looks like, which row count stands for all rows, and how a column is qualified. Ordinary
dialects leave the wildcard `*` unquoted behind its qualifier.
-/
namespace BoundSql

/-- The choices of a database. -/
structure Dialect where
  quote : String → String
  placeholder : String
  maxRowCount : UInt64
  qualify : Option String → String → String := fun qualifier name =>
    let column := if name = "*" then name else quote name
    match qualifier with
    | some q => quote q ++ "." ++ column
    | none => column

namespace Dialect

/-- Backticks around names, `?` as placeholder, and the largest 64-bit count for all rows. -/
def mysql : Dialect :=
  { quote := Text.quoted '\x60'
    placeholder := "?"
    maxRowCount := 18446744073709551615 }

end Dialect
end BoundSql
