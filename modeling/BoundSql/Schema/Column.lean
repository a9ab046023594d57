import BoundSql.Select.Clause
import BoundSql.Select.Document

/-!
# Columns of a table

The definition of a column: its type with arguments or members, and its modifiers in a fixed
order. Modifiers that are blank are left out. A definition has no placeholders, so every value
in it is written as a literal.
-/
namespace BoundSql

/-- What a column holds when nothing is inserted. -/
inductive ColumnDefault where
  | text (text : String)
  | int (value : Int64)
  | float (value : Number.Binary64)
  | raw (sql : RawSql)

/-- The definition of a column. -/
structure Column where
  name : String
  type : ColumnType
  args : List UInt32
  members : List String
  unsigned : Bool
  notNull : Bool
  primaryKey : Bool
  autoIncrement : Bool
  default : Option ColumnDefault
  charset : Option String
  collation : Option String
  comment : Option String

namespace ColumnDefault

/-- `DEFAULT` and the literal. Text is trimmed; nothing is left of a blank one. -/
def clause? : ColumnDefault → Option String
  | .text t =>
    let t := Text.trim t
    if t = "" then none else some ("DEFAULT " ++ Text.literal t)
  | .int n => some ("DEFAULT " ++ Value.int64Text n)
  | .float x => some ("DEFAULT " ++ Number.FloatFormat.plain.text x)
  | .raw r => if Text.isBlank r.text then none else some ("DEFAULT " ++ r.text)

def toJson : ColumnDefault → Json
  | .text t => .object [("text", .string t)]
  | .int n => .object [("int", .ofInt64 n)]
  | .float x => .object [("float", .ofBinary64 x)]
  | .raw r => .object [("raw", r.toJson)]

def ofJson? (j : Json) : Option ColumnDefault :=
  match j.variant? with
  | some ("text", part) => part.val.string?.map .text
  | some ("int", part) => part.val.int64?.map .int
  | some ("float", part) => part.val.binary64?.map .float
  | some ("raw", part) => (RawSql.ofJson? part.val).map .raw
  | _ => none

end ColumnDefault

namespace Column

/-- A column without any modifier. -/
def ofType (name : String) (type : ColumnType) : Column :=
  { name
    type
    args := []
    members := []
    unsigned := false
    notNull := false
    primaryKey := false
    autoIncrement := false
    default := none
    charset := none
    collation := none
    comment := none }

/-- A text of limited length. -/
def varchar (name : String) (length : UInt32) : Column :=
  { ofType name .string with args := [length] }

def decimal (name : String) (precision scale : UInt32) : Column :=
  { ofType name .decimal with args := [precision, scale] }

/-- A set of members. -/
def set (name : String) (members : List String) : Column := { ofType name .set with members }

/-- One of its members. -/
def enumeration (name : String) (members : List String) : Column :=
  { ofType name .enumeration with members }

/-- The name may not be blank, and a type with members needs one. -/
def check (c : Column) : Except Error Unit :=
  if Text.isBlank c.name then .error .blankColumn
  else if c.type.hasMembers && c.members.isEmpty then .error (.noMembers c.name c.type)
  else .ok ()

/-- An argument of the type; zero counts as missing. -/
def arg (c : Column) (index : Nat) (fallback : UInt32) : UInt32 :=
  ((c.args[index]?).filter (0 < ·)).getD fallback

def uint32Text (n : UInt32) : String := Number.natText n.toNat

/-- The type with its arguments or members. Texts have 255 characters and numbers with a
fraction eight digits, two of them after the point, unless the arguments say otherwise. -/
def typeText (c : Column) : String :=
  let keyword := c.type.keyword
  match c.type with
  | .string => keyword ++ "(" ++ uint32Text (c.arg 0 255) ++ ")"
  | .boolean => keyword ++ "(1)"
  | .float | .double | .decimal =>
    keyword ++ "(" ++ uint32Text (c.arg 0 8) ++ "," ++ uint32Text (c.arg 1 2) ++ ")"
  | .set | .enumeration =>
    keyword ++ "(" ++ String.intercalate "," (c.members.map Text.literal) ++ ")"
  | _ => keyword

/-- A keyword with a literal, unless the text is blank. -/
def literalClause? (keyword : String) (text : Option String) : Option String :=
  (text.filter fun t => !Text.isBlank t).map fun t => keyword ++ " " ++ Text.literal t

def flagClause? (keyword : String) (flag : Bool) : Option String :=
  if flag then some keyword else none

/-- The modifiers that are present. -/
def modifiers (c : Column) : List String :=
  [flagClause? "UNSIGNED" c.unsigned, literalClause? "CHARACTER SET" c.charset,
    literalClause? "COLLATE" c.collation, flagClause? "NOT NULL" c.notNull,
    c.default.bind ColumnDefault.clause?, flagClause? "AUTO_INCREMENT" c.autoIncrement,
    literalClause? "COMMENT" c.comment].filterMap id

/-- Name, type and modifiers with a space between them. -/
def text (d : Dialect) (c : Column) : String :=
  String.intercalate " " (d.quote c.name :: c.typeText :: c.modifiers)

/-- The SQL of a column definition. -/
def sql (d : Dialect) (c : Column) : Except Error Fragment := do
  c.check
  return .ofText (c.text d)

/-! ## Building -/

/-- A change to a column. -/
inductive Edit where
  | args (args : List UInt32)
  | unsigned
  | notNull
  | primaryKey
  | autoIncrement
  | default (value : ColumnDefault)
  | charset (name : String)
  | collation (name : String)
  | comment (text : String)

def edit (c : Column) : Edit → Column
  | .args args => { c with args }
  | .unsigned => { c with unsigned := true }
  | .notNull => { c with notNull := true }
  | .primaryKey => { c with primaryKey := true }
  | .autoIncrement => { c with autoIncrement := true }
  | .default value => { c with default := some value }
  | .charset name => { c with charset := some name }
  | .collation name => { c with collation := some name }
  | .comment text => { c with comment := some text }

/-- The column that edits make from another. -/
def build (c : Column) (edits : List Edit) : Column := edits.foldl edit c

/-! ## Documents -/

def toJson (c : Column) : Json :=
  .object
    [("name", .string c.name), ("type", c.type.toJson), ("args", .ofList .ofUInt32 c.args),
      ("values", .ofList .string c.members), ("unsigned", .bool c.unsigned),
      ("not_null", .bool c.notNull), ("primary_key", .bool c.primaryKey),
      ("auto_increment", .bool c.autoIncrement),
      ("default", .ofOption ColumnDefault.toJson c.default), ("charset", .ofString? c.charset),
      ("collation", .ofString? c.collation), ("comment", .ofString? c.comment)]

def ofJson? (j : Json) : Option Column :=
  match j.fields? ["name", "type", "args", "values", "unsigned", "not_null", "primary_key",
      "auto_increment", "default", "charset", "collation", "comment"] with
  | some [name, type, args, members, unsigned, notNull, primaryKey, autoIncrement, default,
      charset, collation, comment] => do
    return {
      name := ← Json.required Json.string? name
      type := ← Json.required ColumnType.ofJson? type
      args := ← Json.defaulted [] (Json.list? Json.uint32?) args
      members := ← Json.defaulted [] (Json.list? Json.string?) members
      unsigned := ← Json.defaulted false Json.bool? unsigned
      notNull := ← Json.defaulted false Json.bool? notNull
      primaryKey := ← Json.defaulted false Json.bool? primaryKey
      autoIncrement := ← Json.defaulted false Json.bool? autoIncrement
      default := ← Json.optional ColumnDefault.ofJson? default
      charset := ← Json.optional Json.string? charset
      collation := ← Json.optional Json.string? collation
      comment := ← Json.optional Json.string? comment }
  | _ => none

/-- Reads a column definition from JSON text. -/
def parse? (text : String) : Option Column := Json.parse? text >>= ofJson?

end Column
end BoundSql
