import BoundSql.Proofs.Layout.Piece

/-!
# Layouts of names and clauses

The parts of a statement that no check can refuse: names, joins, groupings, limits and the sort.
Each is written by the dialect from its layout.
-/
namespace BoundSql

open Layout

/-! ## Names -/

namespace Target

/-- The table behind its schema. -/
def nameLayout (t : Target) : Layout :=
  match t.schema with
  | some schema => [.name schema, .words ".", .name t.table]
  | none => [.name t.table]

/-- The table with its alias. -/
def layout (t : Target) : Layout := labelled t.nameLayout t.tableAlias

end Target

theorem Scope.aliased_eq (s : Scope) {text : String} {l : Layout}
    (h : Fragment.ofText text = write s.dialect l) (label : Option String) :
    Fragment.ofText (s.aliased text label) = write s.dialect (labelled l label) := by
  cases label with
  | none => exact h
  | some label =>
    rw [labelled, write_append, ← h]
    ext1 <;> simp [Scope.aliased, Scope.quote, Piece.sql, String.append_assoc]

namespace Target

theorem name_eq (d : Dialect) (t : Target) :
    Fragment.ofText (t.name d) = write d t.nameLayout := by
  obtain ⟨table, schema, tableAlias⟩ := t
  cases schema <;> ext1 <;> simp [name, nameLayout, Piece.sql, String.append_assoc]

theorem nameAliased_eq (d : Dialect) (t : Target) :
    Fragment.ofText (t.nameAliased d) = write d t.layout :=
  Scope.aliased_eq ⟨d, none⟩ (name_eq d t) t.tableAlias

end Target

/-! ## Clauses -/

namespace Join

def layout : Join → Layout
  | .table kind joined tableAlias primaryKey foreignKey =>
    .words kind.keyword :: .words " " :: (labelled [.name joined] tableAlias ++
      [.words " ON ", .column primaryKey.qualifier primaryKey.name, .words " = ",
        .column foreignKey.qualifier foreignKey.name])
  | .raw kind r => [.words kind.keyword, .words " ", .raw r]

def clauseLayout (joins : List Join) : Layout := joined " " (joins.map layout)

theorem sql_eq (s : Scope) (j : Join) : j.sql s = write s.dialect j.layout := by
  cases j with
  | table kind joined tableAlias primaryKey foreignKey =>
    have hj := s.aliased_eq (write_singleton s.dialect (.name joined)).symm tableAlias
    have htext := congrArg Fragment.text hj
    have hbindings := congrArg Fragment.bindings hj
    simp only [Fragment.text_ofText, Fragment.bindings_ofText] at htext hbindings
    ext1 <;> simp [sql, layout, Piece.sql, Scope.columnOwn, String.append_assoc,
      ← htext, ← hbindings, Scope.quote]
  | raw kind r => ext1 <;> simp [sql, layout, Piece.sql, String.append_assoc]

theorem clause_eq {d : Dialect} (hd : d.Visible) (tableAlias : Option String) (joins : List Join) :
    clause ⟨d, tableAlias⟩ joins = write d (clauseLayout joins) := by
  rw [clause, clauseLayout, ← joined_write hd, List.map_map]
  congr 1
  exact List.map_congr_left fun j _ => sql_eq ⟨d, tableAlias⟩ j

end Join

namespace Grouping

def layout (tableAlias : Option String) : Grouping → Layout
  | .column c => [.column (c.qualifier.or tableAlias) c.name]
  | .raw r => [.raw r]

def clauseLayout (tableAlias : Option String) (groups : List Grouping) : Layout :=
  headed "GROUP BY " (joined "," (groups.map (layout tableAlias)))

theorem sql_eq (s : Scope) (g : Grouping) : g.sql s = write s.dialect (g.layout s.tableAlias) := by
  cases g <;> ext1 <;> simp [sql, layout, Piece.sql, Scope.column]

theorem clause_eq {d : Dialect} (hd : d.Visible) (tableAlias : Option String)
    (groups : List Grouping) :
    clause ⟨d, tableAlias⟩ groups = write d (clauseLayout tableAlias groups) := by
  rw [clause, clauseLayout, ← headed_write hd _ joined_eq_nil, ← joined_write hd, List.map_map]
  congr 2
  exact List.map_congr_left fun g _ => sql_eq ⟨d, tableAlias⟩ g

end Grouping

namespace Limits

def limitLayout (l : Limits) : Layout :=
  if 0 < l.limit then [.words " LIMIT ", .count l.limit] else []

def layout (l : Limits) : Layout :=
  (if 0 < l.limit then [.words " LIMIT ", .count l.limit]
    else if 0 < l.offset then [.words " LIMIT ", .allRows]
    else []) ++
  (if 0 < l.offset then [.words " OFFSET ", .count l.offset] else [])

theorem limitClause_eq (s : Scope) (l : Limits) :
    l.limitClause s = write s.dialect l.limitLayout := by
  unfold limitClause limitLayout
  split <;> ext1 <;> simp [Piece.sql, Scope.placeholder]

theorem clause_eq (s : Scope) (l : Limits) : l.clause s = write s.dialect l.layout := by
  unfold clause layout
  by_cases hl : 0 < l.limit <;> by_cases ho : 0 < l.offset <;> ext1 <;>
    simp [hl, ho, Piece.sql, Scope.placeholder,
      String.append_assoc]

end Limits

namespace SortKey

def layout (k : SortKey) : Layout :=
  [.words " ORDER BY ", .value (.string k.column), .words " ",
    .value (.string k.direction.keyword)]

def clauseLayout : Option SortKey → Layout
  | some k => k.layout
  | none => []

theorem clause_eq (s : Scope) (k : Option SortKey) :
    clause s k = write s.dialect (clauseLayout k) := by
  cases k with
  | none => rfl
  | some k =>
    ext1 <;> simp [clause, clauseLayout, sql, layout, Piece.sql,
      Scope.placeholder, String.append_assoc]

end SortKey

end BoundSql
