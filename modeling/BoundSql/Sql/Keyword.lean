import BoundSql.Json.Decode

/-!
# Keywords

The closed vocabularies of a statement. Each keyword has a name, by which documents call it,
and a spelling in SQL. In a document a keyword is its bare name, or an object whose only member
has that name and the value `null`.
-/
namespace BoundSql

/-- The entry of a vocabulary with a given name. -/
def named? {α : Type} (all : List α) (name : α → String) (s : String) : Option α :=
  all.find? fun a => name a == s

/-- How the predicates of one group are combined. -/
inductive Connective where
  | and
  | or
deriving DecidableEq

namespace Connective

def all : List Connective := [.and, .or]

def name : Connective → String
  | .and => "and"
  | .or => "or"

def keyword : Connective → String
  | .and => "AND"
  | .or => "OR"

def toJson (c : Connective) : Json := .string c.name

def ofJson? (j : Json) : Option Connective := j.tag?.bind (named? all name)

end Connective

/-- The direction of a sort. -/
inductive Direction where
  | asc
  | desc
deriving DecidableEq

namespace Direction

def all : List Direction := [.asc, .desc]

def name : Direction → String
  | .asc => "asc"
  | .desc => "desc"

def keyword : Direction → String
  | .asc => "ASC"
  | .desc => "DESC"

def toJson (d : Direction) : Json := .string d.name

def ofJson? (j : Json) : Option Direction := j.tag?.bind (named? all name)

end Direction

/-- How two tables are joined. -/
inductive JoinKind where
  | left
  | leftOuter
  | right
  | rightOuter
  | inner
  | fullOuter
  | cross
deriving DecidableEq

namespace JoinKind

def all : List JoinKind := [.left, .leftOuter, .right, .rightOuter, .inner, .fullOuter, .cross]

def name : JoinKind → String
  | .left => "left"
  | .leftOuter => "left_outer"
  | .right => "right"
  | .rightOuter => "right_outer"
  | .inner => "inner"
  | .fullOuter => "full_outer"
  | .cross => "cross"

def keyword : JoinKind → String
  | .left => "LEFT JOIN"
  | .leftOuter => "LEFT OUTER JOIN"
  | .right => "RIGHT JOIN"
  | .rightOuter => "RIGHT OUTER JOIN"
  | .inner => "INNER JOIN"
  | .fullOuter => "FULL OUTER JOIN"
  | .cross => "CROSS JOIN"

def toJson (k : JoinKind) : Json := .string k.name

def ofJson? (j : Json) : Option JoinKind := j.tag?.bind (named? all name)

end JoinKind

/-- An aggregate function over a column. -/
inductive Aggregate where
  | count
  | sum
  | avg
  | min
  | max
deriving DecidableEq

namespace Aggregate

def all : List Aggregate := [.count, .sum, .avg, .min, .max]

def name : Aggregate → String
  | .count => "count"
  | .sum => "sum"
  | .avg => "avg"
  | .min => "min"
  | .max => "max"

def keyword : Aggregate → String
  | .count => "COUNT"
  | .sum => "SUM"
  | .avg => "AVG"
  | .min => "MIN"
  | .max => "MAX"

def toJson (a : Aggregate) : Json := .string a.name

def ofJson? (j : Json) : Option Aggregate := j.tag?.bind (named? all name)

end Aggregate

/-- The part of a time that is selected. -/
inductive DatePart where
  | date
  | dateTime
deriving DecidableEq

namespace DatePart

def all : List DatePart := [.date, .dateTime]

def name : DatePart → String
  | .date => "date"
  | .dateTime => "date_time"

def keyword : DatePart → String
  | .date => "DATE"
  | .dateTime => "DATETIME"

def toJson (p : DatePart) : Json := .string p.name

def ofJson? (j : Json) : Option DatePart := j.tag?.bind (named? all name)

end DatePart

/-- What happens to a row whose referenced row is deleted or updated. -/
inductive ReferentialAction where
  | cascade
  | setNull
  | restrict
  | noAction
  | setDefault
deriving DecidableEq

namespace ReferentialAction

def all : List ReferentialAction := [.cascade, .setNull, .restrict, .noAction, .setDefault]

def name : ReferentialAction → String
  | .cascade => "cascade"
  | .setNull => "set_null"
  | .restrict => "restrict"
  | .noAction => "no_action"
  | .setDefault => "set_default"

def keyword : ReferentialAction → String
  | .cascade => "CASCADE"
  | .setNull => "SET NULL"
  | .restrict => "RESTRICT"
  | .noAction => "NO ACTION"
  | .setDefault => "SET DEFAULT"

def toJson (a : ReferentialAction) : Json := .string a.name

def ofJson? (j : Json) : Option ReferentialAction := j.tag?.bind (named? all name)

end ReferentialAction

/-- The type of a column. -/
inductive ColumnType where
  | tinyint
  | smallint
  | mediumint
  | int
  | bigint
  | tinytext
  | mediumtext
  | longtext
  | text
  | string
  | float
  | double
  | decimal
  | boolean
  | bit
  | binary
  | blob
  | date
  | time
  | dateTime
  | timestamp
  | json
  | set
  | enumeration
deriving DecidableEq

namespace ColumnType

def all : List ColumnType :=
  [.tinyint, .smallint, .mediumint, .int, .bigint, .tinytext, .mediumtext, .longtext, .text,
    .string, .float, .double, .decimal, .boolean, .bit, .binary, .blob, .date, .time, .dateTime,
    .timestamp, .json, .set, .enumeration]

def name : ColumnType → String
  | .tinyint => "tinyint"
  | .smallint => "smallint"
  | .mediumint => "mediumint"
  | .int => "int"
  | .bigint => "bigint"
  | .tinytext => "tinytext"
  | .mediumtext => "mediumtext"
  | .longtext => "longtext"
  | .text => "text"
  | .string => "string"
  | .float => "float"
  | .double => "double"
  | .decimal => "decimal"
  | .boolean => "boolean"
  | .bit => "bit"
  | .binary => "binary"
  | .blob => "blob"
  | .date => "date"
  | .time => "time"
  | .dateTime => "date_time"
  | .timestamp => "timestamp"
  | .json => "json"
  | .set => "set"
  | .enumeration => "enum"

/-- A boolean is a small integer and a string is a `VARCHAR`. -/
def keyword : ColumnType → String
  | .tinyint => "TINYINT"
  | .smallint => "SMALLINT"
  | .mediumint => "MEDIUMINT"
  | .int => "INT"
  | .bigint => "BIGINT"
  | .tinytext => "TINYTEXT"
  | .mediumtext => "MEDIUMTEXT"
  | .longtext => "LONGTEXT"
  | .text => "TEXT"
  | .string => "VARCHAR"
  | .float => "FLOAT"
  | .double => "DOUBLE"
  | .decimal => "DECIMAL"
  | .boolean => "TINYINT"
  | .bit => "BIT"
  | .binary => "BINARY"
  | .blob => "BLOB"
  | .date => "DATE"
  | .time => "TIME"
  | .dateTime => "DATETIME"
  | .timestamp => "TIMESTAMP"
  | .json => "JSON"
  | .set => "SET"
  | .enumeration => "ENUM"

/-- The members of the column's values are listed in its definition. -/
def hasMembers : ColumnType → Bool
  | .set | .enumeration => true
  | _ => false

def toJson (t : ColumnType) : Json := .string t.name

def ofJson? (j : Json) : Option ColumnType := j.tag?.bind (named? all name)

end ColumnType
end BoundSql
