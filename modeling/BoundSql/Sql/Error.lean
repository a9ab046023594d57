import BoundSql.Sql.Operator
import BoundSql.Value.Basic

/-!
# Refused statements

A statement that cannot be written as SQL is refused for one cause. The cause carries what its
message names.
-/
namespace BoundSql

/-- Why a statement has no SQL. -/
inductive Error where
  | noTable
  | blankTable
  | blankSchema
  | blankAlias
  | noDistinctColumns
  | blankRecursionKey
  | notLiteral (op : Operator) (column : String) (value : Value)
  | noAssignments
  | noRows
  | noInsertedColumns
  | notInserted (column : String)
  | noTableColumns
  | blankColumn
  | noMembers (column : String) (type : ColumnType)
  | incompleteReference (column : String)
  | blankIndex
  | noIndexColumns
  | unknownOperator (token : String)

namespace Error

/-- What is wrong in general: a statement without its table, a part with a value that SQL cannot
take, or a token that spells no operator. -/
inductive Kind where
  | construction
  | invalidArgument
  | unsupportedOperator
deriving DecidableEq

def kind : Error → Kind
  | .noTable => .construction
  | .unknownOperator _ => .unsupportedOperator
  | _ => .invalidArgument

/-- The cause in words. -/
def detail : Error → String
  | .noTable => "query has no table"
  | .blankTable => "table name cannot be empty"
  | .blankSchema => "schema name cannot be empty"
  | .blankAlias => "table alias cannot be empty"
  | .noDistinctColumns => "DISTINCT requires at least one explicit, non-wildcard column"
  | .blankRecursionKey => "recursive CTE keys cannot be empty"
  | .notLiteral op column value =>
    op.keyword ++ " on '" ++ column ++ "' needs a boolean or null, got " ++ value.text
  | .noAssignments => "UPDATE requires at least one SET value"
  | .noRows => "INSERT requires at least one row"
  | .noInsertedColumns => "INSERT requires at least one column"
  | .notInserted column => "ON DUPLICATE KEY column '" ++ column ++ "' is not inserted"
  | .noTableColumns => "CREATE TABLE requires at least one column"
  | .blankColumn => "column name cannot be empty"
  | .noMembers column type =>
    "column '" ++ column ++ "' of type " ++ type.keyword ++ " needs at least one member"
  | .incompleteReference column =>
    "foreign key on '" ++ column ++ "' needs a column and a referenced table and column"
  | .blankIndex => "index name cannot be empty"
  | .noIndexColumns => "CREATE INDEX requires at least one column"
  | .unknownOperator token => "'" ++ token ++ "'"

/-- The whole message. -/
def message (e : Error) : String :=
  let heading :=
    match e.kind with
    | .construction => "Cannot construct compiler: "
    | .invalidArgument => "Invalid argument: "
    | .unsupportedOperator => "Unsupported operator: "
  heading ++ e.detail

end Error

/-- The operator that a token spells; any other token is refused as it stands. -/
def Operator.parse (token : String) : Except Error Operator :=
  match parse? token with
  | some op => .ok op
  | none => .error (.unknownOperator token)

end BoundSql
