import BoundSql.Select.Basic

/-!
# Queries in documents

The form of expressions, filters and queries in documents. A written document has every field;
a read one may leave out what has a default. A filter's field is called `where`.
-/
namespace BoundSql

namespace ColumnName

def toJson (c : ColumnName) : Json :=
  .object [("name", .string c.name), ("table_alias", .ofString? c.qualifier)]

def ofJson? (j : Json) : Option ColumnName :=
  match j.fields? ["name", "table_alias"] with
  | some [name, qualifier] => do
    return ⟨← Json.required Json.string? name, ← Json.optional Json.string? qualifier⟩
  | _ => none

end ColumnName

namespace RawSql

def toJson (r : RawSql) : Json :=
  .object [("query", .string r.text), ("bindings", .ofList Value.toJson r.bindings)]

def ofJson? (j : Json) : Option RawSql :=
  match j.fields? ["query", "bindings"] with
  | some [text, bindings] => do
    return ⟨← Json.required Json.string? text, ← Json.defaulted [] Value.listOfJson? bindings⟩
  | _ => none

end RawSql

namespace Join

def toJson : Join → Json
  | .table kind joined tableAlias primaryKey foreignKey =>
    .object [("table", .object
      [("method", kind.toJson), ("table", .string joined), ("alias", .ofString? tableAlias),
        ("primary_key", primaryKey.toJson), ("foreign_key", foreignKey.toJson)])]
  | .raw kind sql => .object [("raw", .object [("method", kind.toJson), ("query", sql.toJson)])]

def ofJson? (j : Json) : Option Join :=
  match j.variant? with
  | some ("table", part) =>
    match part.val.fields? ["method", "table", "alias", "primary_key", "foreign_key"] with
    | some [kind, joined, tableAlias, primaryKey, foreignKey] => do
      return .table (← Json.required JoinKind.ofJson? kind) (← Json.required Json.string? joined)
        (← Json.optional Json.string? tableAlias) (← Json.required ColumnName.ofJson? primaryKey)
        (← Json.required ColumnName.ofJson? foreignKey)
    | _ => none
  | some ("raw", part) =>
    match part.val.fields? ["method", "query"] with
    | some [kind, sql] => do
      return .raw (← Json.required JoinKind.ofJson? kind) (← Json.required RawSql.ofJson? sql)
    | _ => none
  | _ => none

end Join

namespace Grouping

def toJson : Grouping → Json
  | .column c => .object [("column", c.toJson)]
  | .raw sql => .object [("raw", sql.toJson)]

def ofJson? (j : Json) : Option Grouping :=
  match j.variant? with
  | some ("column", part) => (ColumnName.ofJson? part.val).map .column
  | some ("raw", part) => (RawSql.ofJson? part.val).map .raw
  | _ => none

end Grouping

namespace SortKey

def toJson (k : SortKey) : Json :=
  .object [("column", .string k.column), ("order", k.direction.toJson)]

def ofJson? (j : Json) : Option SortKey :=
  match j.fields? ["column", "order"] with
  | some [column, direction] => do
    return ⟨← Json.required Json.string? column, ← Json.defaulted .asc Direction.ofJson? direction⟩
  | _ => none

end SortKey

namespace Limits

def toJson (l : Limits) : Json :=
  .object [("limit", .ofUInt64 l.limit), ("offset", .ofUInt64 l.offset)]

def ofJson? (j : Json) : Option Limits :=
  match j.fields? ["limit", "offset"] with
  | some [limit, offset] => do
    return ⟨← Json.defaulted 0 Json.uint64? limit, ← Json.defaulted 0 Json.uint64? offset⟩
  | _ => Option.none

end Limits

namespace Recursion

def toJson (r : Recursion) : Json :=
  .object [("recursive_key", .string r.recursiveKey), ("anchor_key", .string r.anchorKey)]

def ofJson? (j : Json) : Option Recursion :=
  match j.fields? ["recursive_key", "anchor_key"] with
  | some [recursiveKey, anchorKey] => do
    return ⟨← Json.required Json.string? recursiveKey, ← Json.required Json.string? anchorKey⟩
  | _ => none

end Recursion

/-! ## Writing -/

mutual

def Expr.toJson : Expr → Json
  | .raw sql => .object [("raw", sql.toJson)]
  | .column c label =>
    .object [("column", .object [("column", c.toJson), ("alias", .ofString? label)])]
  | .aggregate function c label =>
    .object [("column_method", .object
      [("method", function.toJson), ("column", c.toJson), ("alias", .ofString? label)])]
  | .rawColumn sql => .object [("column_raw", sql.toJson)]
  | .datePart part c label =>
    .object [("date_wrap", .object
      [("wrap", part.toJson), ("column", c.toJson), ("alias", .ofString? label)])]
  | .comparison c op value =>
    .object [("comparison", .object
      [("column", c.toJson), ("op", op.toJson), ("value", value.toJson)])]
  | .between c low high negated =>
    .object [("between", .object
      [("column", c.toJson), ("low", low.toJson), ("high", high.toJson),
        ("negated", .bool negated)])]
  | .oneOf c values negated =>
    .object [("in", .object
      [("column", c.toJson), ("values", .ofList Value.toJson values), ("negated", .bool negated)])]
  | .group filter => .object [("nested_where", filter.toJson)]
  | .existence query negated =>
    .object [("exists", .object [("query", query.toJson), ("negated", .bool negated)])]

def Expr.toJsons : List Expr → List Json
  | [] => []
  | e :: rest => e.toJson :: Expr.toJsons rest

def Filter.toJson : Filter → Json
  | ⟨terms, connective⟩ =>
    .object [("statements", .array (Expr.toJsons terms)), ("op", connective.toJson)]

def Select.toJson : Select → Json
  | ⟨table, schema, tableAlias, distinct, columns, filter, joins, groups, sort, limits,
      recursion⟩ =>
    .object
      [("table", .ofString? table), ("schema", .ofString? schema),
        ("table_alias", .ofString? tableAlias), ("distinct", .bool distinct),
        ("columns", .array (Expr.toJsons columns)), ("where", filter.toJson),
        ("joins", .ofList Join.toJson joins), ("group_by", .ofList Grouping.toJson groups),
        ("sort", .ofOption SortKey.toJson sort), ("limits", limits.toJson),
        ("recursive", .ofOption Recursion.toJson recursion)]

end

/-! ## Reading -/

mutual

def Expr.ofJson? (j : Json) : Option Expr :=
  match j.variant? with
  | some ("raw", part) => (RawSql.ofJson? part.val).map .raw
  | some ("column", part) =>
    match part.val.fields? ["column", "alias"] with
    | some [c, label] => do
      return .column (← Json.required ColumnName.ofJson? c) (← Json.optional Json.string? label)
    | _ => none
  | some ("column_method", part) =>
    match part.val.fields? ["method", "column", "alias"] with
    | some [function, c, label] => do
      return .aggregate (← Json.required Aggregate.ofJson? function)
        (← Json.required ColumnName.ofJson? c) (← Json.optional Json.string? label)
    | _ => none
  | some ("column_raw", part) => (RawSql.ofJson? part.val).map .rawColumn
  | some ("date_wrap", part) =>
    match part.val.fields? ["wrap", "column", "alias"] with
    | some [wrap, c, label] => do
      return .datePart (← Json.required DatePart.ofJson? wrap)
        (← Json.required ColumnName.ofJson? c) (← Json.optional Json.string? label)
    | _ => none
  | some ("comparison", part) =>
    match part.val.fields? ["column", "op", "value"] with
    | some [c, op, value] => do
      return .comparison (← Json.required ColumnName.ofJson? c)
        (← Json.required Operator.ofJson? op) (← Json.defaulted .null Value.ofJson? value)
    | _ => none
  | some ("between", part) =>
    match part.val.fields? ["column", "low", "high", "negated"] with
    | some [c, low, high, negated] => do
      return .between (← Json.required ColumnName.ofJson? c) (← Json.required Value.ofJson? low)
        (← Json.required Value.ofJson? high) (← Json.defaulted false Json.bool? negated)
    | _ => none
  | some ("in", part) =>
    match part.val.fields? ["column", "values", "negated"] with
    | some [c, values, negated] => do
      return .oneOf (← Json.required ColumnName.ofJson? c)
        (← Json.required Value.listOfJson? values) (← Json.defaulted false Json.bool? negated)
    | _ => none
  | some ("nested_where", part) => (Filter.ofJson? part.val).map .group
  | some ("exists", part) =>
    match part.val.fields? ["query", "negated"] with
    | some [some query, negated] => do
      return .existence (← Select.ofJson? query.val) (← Json.defaulted false Json.bool? negated)
    | _ => none
  | _ => none
termination_by sizeOf j
decreasing_by
  · exact part.property
  · exact Nat.lt_trans query.property part.property

/-- The expressions of an array. -/
def Expr.listOfJson? (j : Json) : Option (List Expr) :=
  match j.items? with
  | some parts => parts.mapM fun part => Expr.ofJson? part.val
  | none => none
termination_by sizeOf j
decreasing_by exact part.property

def Filter.ofJson? (j : Json) : Option Filter :=
  match j.fields? ["statements", "op"] with
  | some [terms, connective] => do
    let terms ←
      match terms with
      | some part => Expr.listOfJson? part.val
      | none => some []
    return ⟨terms, ← Json.defaulted .and Connective.ofJson? connective⟩
  | _ => none
termination_by sizeOf j
decreasing_by exact part.property

def Select.ofJson? (j : Json) : Option Select :=
  match j.fields? ["table", "schema", "table_alias", "distinct", "columns", "where", "joins",
      "group_by", "sort", "limits", "recursive"] with
  | some [table, schema, tableAlias, distinct, columns, filter, joins, groups, sort, limits,
      recursion] => do
    let columns ←
      match columns with
      | some part => Expr.listOfJson? part.val
      | none => some []
    let filter ←
      match filter with
      | some part => Filter.ofJson? part.val
      | none => some .empty
    return {
      table := ← Json.optional Json.string? table
      schema := ← Json.optional Json.string? schema
      tableAlias := ← Json.optional Json.string? tableAlias
      distinct := ← Json.defaulted false Json.bool? distinct
      columns
      filter
      joins := ← Json.defaulted [] (Json.list? Join.ofJson?) joins
      groups := ← Json.defaulted [] (Json.list? Grouping.ofJson?) groups
      sort := ← Json.optional SortKey.ofJson? sort
      limits := ← Json.defaulted .none Limits.ofJson? limits
      recursion := ← Json.optional Recursion.ofJson? recursion }
  | _ => none
termination_by sizeOf j
decreasing_by
  · exact part.property
  · exact part.property

end

/-- Reads an expression from JSON text. -/
def Expr.parse? (text : String) : Option Expr := Json.parse? text >>= Expr.ofJson?

/-- Reads a filter from JSON text. -/
def Filter.parse? (text : String) : Option Filter := Json.parse? text >>= Filter.ofJson?

end BoundSql
