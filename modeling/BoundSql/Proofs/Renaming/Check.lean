import BoundSql.Proofs.Renaming.Statement

/-!
# Checks of renamed statements

Checks compare names with each other and with the wildcard, and look for blank ones. A renaming
keeps all of that, so a renamed statement is refused whenever the statement is, and the cause
names the renamed column.
-/
namespace BoundSql

open Layout Text

theorem Expr.renames_eq_map (r : String → String) (es : List Expr) :
    Expr.renames r es = es.map (Expr.rename r) := by
  induction es with
  | nil => rw [Expr.renames, List.map_nil]
  | cons e rest ih => rw [Expr.renames, ih, List.map_cons]

section
variable {r : String → String} (hr : IsRenaming r)
include hr

theorem IsRenaming.any_blank (name : Option String) :
    (name.map r).any isBlank = name.any isBlank := by
  cases name with
  | none => rfl
  | some name => exact hr.blank name

theorem Target.resolve_rename (table schema tableAlias : Option String) :
    resolve (table.map r) (schema.map r) (tableAlias.map r) =
      ((resolve table schema tableAlias).map (Target.rename r)).mapError (Error.rename r) := by
  cases table with
  | none => rfl
  | some table =>
    rw [Option.map_some, resolve, resolve, hr.blank, hr.any_blank, hr.any_blank]
    split
    · rfl
    · split
      · rfl
      · split <;> rfl

namespace Expr

omit hr in
theorem comparisonCheck_rename (c : ColumnName) (op : Operator) (value : Value) :
    comparisonCheck (c.rename r) op value =
      (comparisonCheck c op value).mapError (Error.rename r) := by
  cases op
  case is | isNot =>
    simp only [comparisonCheck]
    split <;> rfl
  all_goals rfl

theorem nameColumns_rename (columns : List Expr) :
    nameColumns (Expr.renames r columns) = nameColumns columns := by
  have hwildcard : ∀ e : Expr, (e.rename r).isWildcard = e.isWildcard := by
    intro e
    cases e
    case column c label =>
      rw [Expr.rename]
      exact hr.isWildcard c
    all_goals rw [Expr.rename] <;> rfl
  rw [renames_eq_map, nameColumns, nameColumns, List.isEmpty_map, List.any_map]
  simp only [Function.comp_def, hwildcard]

end Expr

theorem Recursion.check_rename (k : Recursion) :
    (k.rename r).check = k.check.mapError (Error.rename r) := by
  rw [check, check, Recursion.rename, hr.blank, hr.blank]
  split <;> rfl

end

mutual

theorem Expr.check_rename {r : String → String} (hr : IsRenaming r) :
    (e : Expr) → (e.rename r).check = e.check.mapError (Error.rename r)
  | .raw _ | .column .. | .aggregate .. | .rawColumn _ | .datePart .. | .between .. | .oneOf .. =>
    rfl
  | .comparison c op value => by
    rw [Expr.rename, Expr.check, Expr.check, Expr.comparisonCheck_rename]
  | .group filter => by
    rw [Expr.rename, Expr.check, Expr.check, Filter.check_rename hr filter]
  | .existence query negated => by
    rw [Expr.rename, Expr.check, Expr.check, Select.check_rename hr query]

theorem Expr.checks_rename {r : String → String} (hr : IsRenaming r) :
    (es : List Expr) → Expr.checks (Expr.renames r es) =
      (Expr.checks es).mapError (Error.rename r)
  | [] => by
    rw [Expr.renames, Expr.checks]
    rfl
  | e :: rest => by
    rw [Expr.renames, Expr.checks, Expr.checks, Except.mapError_bind, Expr.check_rename hr e,
      Expr.checks_rename hr rest]

theorem Filter.check_rename {r : String → String} (hr : IsRenaming r) :
    (f : Filter) → (f.rename r).check = f.check.mapError (Error.rename r)
  | ⟨terms, connective⟩ => by
    rw [Filter.rename, Filter.check, Filter.check, Expr.checks_rename hr terms]

/-- A renamed query is refused for the same cause. -/
theorem Select.check_rename {r : String → String} (hr : IsRenaming r) :
    (q : Select) → (q.rename r).check = q.check.mapError (Error.rename r)
  | ⟨table, schema, tableAlias, distinct, columns, filter, joins, groups, sort, limits,
      recursion⟩ => by
    rw [Select.rename, Select.check, Select.check, Target.resolve_rename hr,
      Expr.nameColumns_rename hr, Expr.checks_rename hr columns, Filter.check_rename hr filter]
    cases Target.resolve table schema tableAlias with
    | error e => rfl
    | ok t =>
      cases distinct && !Expr.nameColumns columns with
      | true => rfl
      | false =>
        cases recursion with
        | none => exact (Except.mapError_bind ..).symm
        | some k =>
          have hk := Recursion.check_rename hr k
          simp only [Option.map_some, hk]
          cases k.check with
          | error e => rfl
          | ok u => exact (Except.mapError_bind ..).symm

end

end BoundSql
