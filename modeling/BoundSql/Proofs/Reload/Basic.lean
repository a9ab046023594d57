import BoundSql.Query

/-!
# Reloaded values

A document does not tell an unsigned integer from a signed one, so an unsigned value comes back
as a signed one wherever it fits. Two kinds of value do not come back at all: a double, whose text
may stand for an integer, and a list of one text that reads as a time or a date.
-/
namespace BoundSql

namespace Value

mutual

/-- The value that a document gives back: unsigned integers are signed wherever they fit. -/
def signed : Value → Value
  | .uint n => if n ≤ 0x7fffffffffffffff then .int n.toInt64 else .uint n
  | .list members => .list (signeds members)
  | v => v

def signeds : List Value → List Value
  | [] => []
  | v :: rest => v.signed :: signeds rest

end

/-- A list that would be taken for a time or a date. -/
def isTag : List Value → Bool
  | [.string s] => (DateTime.parse? s).isSome || (Date.parse? s).isSome
  | _ => false

mutual

/-- A document says all of the value: there is no double in it and no list that would be taken for
a time or a date. -/
def isExact : Value → Bool
  | .float _ => false
  | .list members => !isTag members && areExact members
  | _ => true

def areExact : List Value → Bool
  | [] => true
  | v :: rest => v.isExact && areExact rest

end

theorem signeds_eq_map (vs : List Value) : signeds vs = vs.map signed := by
  induction vs with
  | nil => rfl
  | cons v rest ih => rw [signeds, ih, List.map_cons]

theorem areExact_eq_all (vs : List Value) : areExact vs = vs.all isExact := by
  induction vs with
  | nil => rfl
  | cons v rest ih => rw [areExact, ih, List.all_cons]

end Value

/-! ## Statements with other values -/

section
variable (f : Value → Value)

def RawSql.mapValues (r : RawSql) : RawSql := ⟨r.text, r.bindings.map f⟩

def Join.mapValues : Join → Join
  | .table kind joined tableAlias primaryKey foreignKey =>
    .table kind joined tableAlias primaryKey foreignKey
  | .raw kind sql => .raw kind (sql.mapValues f)

def Grouping.mapValues : Grouping → Grouping
  | .column c => .column c
  | .raw sql => .raw (sql.mapValues f)

mutual

/-- An expression with other values. -/
def Expr.mapValues : Expr → Expr
  | .raw sql => .raw (sql.mapValues f)
  | .column c label => .column c label
  | .aggregate function c label => .aggregate function c label
  | .rawColumn sql => .rawColumn (sql.mapValues f)
  | .datePart part c label => .datePart part c label
  | .comparison c op value => .comparison c op (f value)
  | .between c low high negated => .between c (f low) (f high) negated
  | .oneOf c values negated => .oneOf c (values.map f) negated
  | .group filter => .group filter.mapValues
  | .existence query negated => .existence query.mapValues negated

def Expr.mapListValues : List Expr → List Expr
  | [] => []
  | e :: rest => e.mapValues :: Expr.mapListValues rest

def Filter.mapValues : Filter → Filter
  | ⟨terms, connective⟩ => ⟨Expr.mapListValues terms, connective⟩

def Select.mapValues : Select → Select
  | ⟨table, schema, tableAlias, distinct, columns, filter, joins, groups, sort, limits,
      recursion⟩ =>
    ⟨table, schema, tableAlias, distinct, Expr.mapListValues columns, filter.mapValues,
      joins.map (Join.mapValues f), groups.map (Grouping.mapValues f), sort, limits, recursion⟩

end

def Cell.mapValues : Cell → Cell
  | .default => .default
  | .value v => .value (f v)

def Row.mapValues (row : Row) : Row :=
  ⟨row.fields.map fun field => (field.1, field.2.mapValues f)⟩

def Refresh.mapValues : Refresh → Refresh
  | .column c => .column c
  | .raw sql => .raw (sql.mapValues f)

def Insert.mapValues (q : Insert) : Insert :=
  ⟨q.table, q.schema, q.rows.map (Row.mapValues f), q.ignore,
    q.onDuplicate.map (List.map (Refresh.mapValues f))⟩

def Update.mapValues (q : Update) : Update :=
  ⟨q.table, q.schema, q.tableAlias, q.assignments.map fun assignment =>
    (assignment.1, f assignment.2), q.filter.mapValues f⟩

def Delete.mapValues (q : Delete) : Delete := { q with filter := q.filter.mapValues f }

def ColumnDefault.mapValues : ColumnDefault → ColumnDefault
  | .raw sql => .raw (sql.mapValues f)
  | c => c

def Column.mapValues (c : Column) : Column :=
  { c with default := c.default.map (ColumnDefault.mapValues f) }

def CreateTable.mapValues (q : CreateTable) : CreateTable :=
  { q with columns := q.columns.map (Column.mapValues f) }

/-- A statement with other values in every place where its document has one. -/
def Query.mapValues : Query → Query
  | .select q => .select (q.mapValues f)
  | .insert q => .insert (q.mapValues f)
  | .update q => .update (q.mapValues f)
  | .delete q => .delete (q.mapValues f)
  | .createTable q => .createTable (q.mapValues f)
  | .createIndex q => .createIndex q

end

theorem Expr.mapListValues_eq_map (f : Value → Value) (es : List Expr) :
    Expr.mapListValues f es = es.map (Expr.mapValues f) := by
  induction es with
  | nil => rw [Expr.mapListValues, List.map_nil]
  | cons e rest ih => rw [Expr.mapListValues, ih, List.map_cons]

/-- The statement that a document gives back. -/
def Query.reloaded (q : Query) : Query := q.mapValues Value.signed

/-! ## The values of a statement -/

def Join.allValues : Join → List Value
  | .table .. => []
  | .raw _ sql => sql.bindings

def Grouping.allValues : Grouping → List Value
  | .column _ => []
  | .raw sql => sql.bindings

mutual

/-- The values of an expression, also those of its filter or query. -/
def Expr.allValues : Expr → List Value
  | .raw sql | .rawColumn sql => sql.bindings
  | .comparison _ _ value => [value]
  | .between _ low high _ => [low, high]
  | .oneOf _ values _ => values
  | .group filter => filter.allValues
  | .existence query _ => query.allValues
  | _ => []

def Expr.listValues : List Expr → List Value
  | [] => []
  | e :: rest => e.allValues ++ Expr.listValues rest

def Filter.allValues : Filter → List Value
  | ⟨terms, _⟩ => Expr.listValues terms

def Select.allValues : Select → List Value
  | ⟨_, _, _, _, columns, filter, joins, groups, _, _, _⟩ =>
    Expr.listValues columns ++ filter.allValues ++ joins.flatMap Join.allValues ++
      groups.flatMap Grouping.allValues

end

def Cell.allValues : Cell → List Value
  | .default => []
  | .value v => [v]

def Row.allValues (row : Row) : List Value := row.fields.flatMap fun field => field.2.allValues

def Refresh.allValues : Refresh → List Value
  | .column _ => []
  | .raw sql => sql.bindings

namespace ColumnDefault

def allValues : ColumnDefault → List Value
  | .raw sql => sql.bindings
  | _ => []

/-- A document may read a double as another number, or not at all. -/
def isFloat : ColumnDefault → Bool
  | .float _ => true
  | _ => false

end ColumnDefault

namespace Column

def allValues (c : Column) : List Value := c.default.toList.flatMap ColumnDefault.allValues

def hasFloat (c : Column) : Bool := c.default.any ColumnDefault.isFloat

end Column

namespace Query

/-- All values in a statement's document, those of raw SQL too. -/
def allValues : Query → List Value
  | .select q => q.allValues
  | .insert q => q.rows.flatMap Row.allValues ++ (q.onDuplicate.getD []).flatMap Refresh.allValues
  | .update q => q.assignments.map (·.2) ++ q.filter.allValues
  | .delete q => q.filter.allValues
  | .createTable q => q.columns.flatMap Column.allValues
  | .createIndex _ => []

/-- Whether a double is the default of some column. -/
def hasFloatDefault : Query → Bool
  | .createTable q => q.columns.any Column.hasFloat
  | _ => false

end Query
end BoundSql
