import BoundSql.Proofs.Tokens

/-!
# Renaming

A renaming changes the names that a statement quotes, and nothing else. Since a name stays
between its quotation marks whatever it holds, a renamed statement is refused for the same cause,
binds the same values and has the same tokens up to the new names: no name can reach out of its
place in the statement.
-/
namespace BoundSql

open Layout Text

/-- A map of names that keeps them apart and keeps what statements look at in a name. -/
structure IsRenaming (r : String → String) : Prop where
  injective : Function.Injective r
  wildcard : r "*" = "*"
  table : r "recursive_cte" = "recursive_cte"
  member : r "$recursive$" = "$recursive$"
  anchor : r "$recursive_cte$" = "$recursive_cte$"
  blank : ∀ name, isBlank (r name) = isBlank name

/-! ## Renamed statements -/

section
variable (r : String → String)

def ColumnName.rename (c : ColumnName) : ColumnName := ⟨r c.name, c.qualifier.map r⟩

def Target.rename (t : Target) : Target := ⟨r t.table, t.schema.map r, t.tableAlias.map r⟩

def Join.rename : Join → Join
  | .table kind joined tableAlias primaryKey foreignKey =>
    .table kind (r joined) (tableAlias.map r) (primaryKey.rename r) (foreignKey.rename r)
  | .raw kind sql => .raw kind sql

def Grouping.rename : Grouping → Grouping
  | .column c => .column (c.rename r)
  | .raw sql => .raw sql

def Recursion.rename (k : Recursion) : Recursion := ⟨r k.recursiveKey, r k.anchorKey⟩

mutual

/-- An expression with other names. -/
def Expr.rename : Expr → Expr
  | .raw sql => .raw sql
  | .column c label => .column (c.rename r) (label.map r)
  | .aggregate function c label => .aggregate function (c.rename r) (label.map r)
  | .rawColumn sql => .rawColumn sql
  | .datePart part c label => .datePart part (c.rename r) (label.map r)
  | .comparison c op value => .comparison (c.rename r) op value
  | .between c low high negated => .between (c.rename r) low high negated
  | .oneOf c values negated => .oneOf (c.rename r) values negated
  | .group filter => .group filter.rename
  | .existence query negated => .existence query.rename negated

def Expr.renames : List Expr → List Expr
  | [] => []
  | e :: rest => e.rename :: Expr.renames rest

def Filter.rename : Filter → Filter
  | ⟨terms, connective⟩ => ⟨Expr.renames terms, connective⟩

/-- A query with other names. What it is sorted by is a bound value and stays. -/
def Select.rename : Select → Select
  | ⟨table, schema, tableAlias, distinct, columns, filter, joins, groups, sort, limits,
      recursion⟩ =>
    ⟨table.map r, schema.map r, tableAlias.map r, distinct, Expr.renames columns, filter.rename,
      joins.map (Join.rename r), groups.map (Grouping.rename r), sort, limits,
      recursion.map (Recursion.rename r)⟩

end

def Row.rename (row : Row) : Row := ⟨row.fields.map fun field => (r field.1, field.2)⟩

def Refresh.rename : Refresh → Refresh
  | .column c => .column (r c)
  | .raw sql => .raw sql

def Insert.rename (q : Insert) : Insert :=
  ⟨q.table.map r, q.schema.map r, q.rows.map (Row.rename r), q.ignore,
    q.onDuplicate.map (List.map (Refresh.rename r))⟩

def Update.rename (q : Update) : Update :=
  ⟨q.table.map r, q.schema.map r, q.tableAlias.map r,
    q.assignments.map fun assignment => (r assignment.1, assignment.2), q.filter.rename r⟩

def Delete.rename (q : Delete) : Delete :=
  ⟨q.table.map r, q.schema.map r, q.tableAlias.map r, q.filter.rename r, q.limits, q.truncate⟩

def Column.rename (c : Column) : Column := { c with name := r c.name }

def ForeignKey.rename (k : ForeignKey) : ForeignKey :=
  ⟨r k.column, r k.referencedTable, r k.referencedColumn, k.onDelete, k.onUpdate⟩

def CreateTable.rename (q : CreateTable) : CreateTable :=
  ⟨q.table.map r, q.schema.map r, q.columns.map (Column.rename r),
    q.foreignKeys.map (ForeignKey.rename r)⟩

def CreateIndex.rename (q : CreateIndex) : CreateIndex :=
  ⟨q.table.map r, q.schema.map r, r q.name, q.unique, q.columns.map r⟩

/-- A statement with other names in every place where it quotes one. -/
def Query.rename : Query → Query
  | .select q => .select (q.rename r)
  | .insert q => .insert (q.rename r)
  | .update q => .update (q.rename r)
  | .delete q => .delete (q.rename r)
  | .createTable q => .createTable (q.rename r)
  | .createIndex q => .createIndex (q.rename r)

/-- The same cause, about the renamed column. -/
def Error.rename : Error → Error
  | .notLiteral op column value => .notLiteral op (r column) value
  | .notInserted column => .notInserted (r column)
  | .noMembers column type => .noMembers (r column) type
  | .incompleteReference column => .incompleteReference (r column)
  | e => e

def Piece.rename : Piece → Piece
  | .name n => .name (r n)
  | .column qualifier n => .column (qualifier.map r) (r n)
  | p => p

def Text.Token.rename : Token → Token
  | .identifier name => .identifier (r name)
  | t => t

end

/-! ## Renamed layouts -/

namespace Layout

/-- A layout with other names. -/
def rename (r : String → String) (l : Layout) : Layout := l.map (Piece.rename r)

section
variable (r : String → String)

@[simp] theorem rename_nil : rename r [] = [] := rfl

@[simp] theorem rename_cons (p : Piece) (l : Layout) :
    rename r (p :: l) = p.rename r :: rename r l := rfl

@[simp] theorem rename_append (k l : Layout) : rename r (k ++ l) = rename r k ++ rename r l :=
  List.map_append

/-- Words are no names, and a name shows whatever it is. -/
theorem isStable_rename : IsStable (Piece.rename r) where
  visible p := by cases p <;> rfl
  words _ := rfl

theorem intercalate_rename (separator : String) (parts : List Layout) :
    List.intercalate [.words separator] (parts.map (rename r)) =
      rename r (List.intercalate [.words separator] parts) :=
  intercalate_map (isStable_rename r) separator parts

theorem joined_rename (separator : String) (parts : List Layout) :
    joined separator (parts.map (rename r)) = rename r (joined separator parts) :=
  joined_map (isStable_rename r) separator parts

theorem headed_rename (before : String) (l : Layout) :
    headed before (rename r l) = rename r (headed before l) :=
  headed_map (isStable_rename r) before l

theorem enclosed_rename (before after : String) (l : Layout) :
    enclosed before after (rename r l) = rename r (enclosed before after l) :=
  enclosed_map (isStable_rename r) before after l

theorem labelled_rename (l : Layout) (label : Option String) :
    labelled (rename r l) (label.map r) = rename r (labelled l label) := by
  cases label with
  | none => rfl
  | some label => simp [labelled, Piece.rename]

/-- A renaming reaches no value. -/
theorem bindings_rename (d : Dialect) (l : Layout) :
    (write d (rename r l)).bindings = (write d l).bindings := by
  induction l with
  | nil => rfl
  | cons p l ih =>
    have hp : ((p.rename r).sql d).bindings = (p.sql d).bindings := by cases p <;> rfl
    rw [rename_cons, write_cons, write_cons, Fragment.bindings_append, Fragment.bindings_append,
      hp, ih]

end
end Layout

theorem Phrase.rename (r : String → String) {R : RawSql → Prop} {l : Layout} (h : Phrase R l) :
    Phrase R (l.rename r) := by
  induction h with
  | nil => exact .nil
  | @atom p hp =>
    refine .atom ?_
    cases p <;> exact hp
  | beside hs _ _ ihk ihl =>
    rw [rename_append, rename_cons]
    exact .beside hs ihk ihl
  | around hs ht _ _ _ ihk ihl ihm =>
    rw [rename_append, rename_cons, rename_append, rename_cons]
    exact .around hs ht ihk ihl ihm

section
variable {r : String → String} (hr : IsRenaming r)
include hr

namespace IsRenaming

theorem isWildcard (c : ColumnName) : (c.rename r).isWildcard = c.isWildcard := by
  have hname : r c.name = "*" ↔ c.name = "*" := by
    rw [← hr.injective.eq_iff (a := c.name), hr.wildcard]
  rw [Bool.eq_iff_iff]
  simpa [ColumnName.isWildcard, ColumnName.rename] using hname

theorem piece_tokens (p : Piece) : (p.rename r).tokens = p.tokens.map (Token.rename r) := by
  cases p with
  | words s => simp [Piece.tokens, Piece.rename, Token.rename]
  | name n => rfl
  | literal s => rfl
  | allRows => simp [Piece.tokens, Piece.rename, Token.rename]
  | value v => rfl
  | count rows => rfl
  | raw sql => rfl
  | column qualifier n =>
    have hn := hr.isWildcard ⟨n, none⟩
    simp only [ColumnName.isWildcard, ColumnName.rename] at hn
    have hstar : r n = "*" ↔ n = "*" := by simpa using Bool.eq_iff_iff.1 hn
    by_cases h : n = "*" <;> cases qualifier <;>
      simp [Piece.tokens, Piece.rename, Token.rename, hstar, h, hr.wildcard]

theorem tokens (l : Layout) : (rename r l).tokens = l.tokens.map (Token.rename r) := by
  rw [Layout.tokens, Layout.tokens, rename, List.flatMap_map, List.map_flatMap]
  simp only [hr.piece_tokens]

end IsRenaming
end

end BoundSql
