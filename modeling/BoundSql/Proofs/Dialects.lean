import BoundSql.Proofs.Layout.Query

/-!
# Dialects change text only

A statement is checked and laid out before any dialect writes it, and a piece binds the same
values however a dialect spells it. So two dialects that leave no name, placeholder or column
without text refuse the same statements for the same causes, and bind the same values in the same
order in all others. Text has to be there because a part without text is left out together with
its bindings.
-/
namespace BoundSql

open Layout

/-- The values of a piece do not depend on its spelling. -/
theorem Piece.bindings_sql (d e : Dialect) (p : Piece) :
    (p.sql d).bindings = (p.sql e).bindings := by
  cases p with
  | raw r => rfl
  | _ => rfl

theorem Layout.bindings_write (d e : Dialect) (l : Layout) :
    (write d l).bindings = (write e l).bindings := by
  induction l with
  | nil => rfl
  | cons p l ih =>
    rw [write_cons, write_cons, Fragment.bindings_append, Fragment.bindings_append,
      Piece.bindings_sql d e p, ih]

/-- Any two dialects that write every name, placeholder and column as some text refuse a statement
with the same error, or both accept it and bind the same values. -/
theorem Query.sql_dialects {d e : Dialect} (hd : d.Visible) (he : e.Visible) (q : Query) :
    (∃ x, q.sql d = .error x ∧ q.sql e = .error x) ∨
      ∃ f g, q.sql d = .ok f ∧ q.sql e = .ok g ∧ f.bindings = g.bindings := by
  rw [sql_eq hd, sql_eq he]
  cases q.check with
  | error x => exact .inl ⟨x, rfl, rfl⟩
  | ok u => exact .inr ⟨_, _, rfl, rfl, bindings_write d e q.layout⟩

/-- Double quotes around names, a named placeholder, and columns that hide their qualifier. -/
def Dialect.unqualified : Dialect :=
  { quote := Text.quoted '\x22'
    placeholder := ":p"
    maxRowCount := 1
    qualify := fun _ name => Text.quoted '\x22' name }

theorem Dialect.visible_unqualified : Dialect.unqualified.Visible where
  quote _ := Text.quoted_ne_empty _ _
  placeholder := by decide
  qualify _ _ := Text.quoted_ne_empty _ _

/-- A page of the rows below another, where an empty group, a subquery and a count for all rows
stand between the values. -/
def Query.laterPage : Query :=
  .select
    { Select.ofTable "nodes" with
      tableAlias := some "n"
      columns := [.ofColumn (.plain "id"), .group .empty, .aggregate .count (.plain "*") none]
      filter :=
        ⟨[.group ⟨[.group .empty], .or⟩, .comparison (.plain "kind") .eq (.list [.int 1, .int 2]),
          .existence
            { Select.ofTable "leaves" with
              filter := ⟨[.between (.plain "age") (.int 3) .null true], .and⟩ }
            false], .or⟩
      sort := some ⟨"id", .desc⟩
      limits := ⟨0, 4⟩
      recursion := some ⟨"parent", "id"⟩ }

theorem Query.bindings_laterPage : (Query.laterPage.layout.write .mysql).bindings =
    [.string "1,2", .int 3, .null, .uint 4, .string "id", .string "DESC"] := by
  rfl

theorem Query.sql_dialects_laterPage :
    Dialect.mysql.Visible ∧ Dialect.unqualified.Visible ∧
      ∃ f g, Query.laterPage.sql .mysql = .ok f ∧ Query.laterPage.sql .unqualified = .ok g ∧
        f.bindings = [.string "1,2", .int 3, .null, .uint 4, .string "id", .string "DESC"] ∧
        f.bindings = g.bindings := by
  have hsql : Query.laterPage.sql .mysql = .ok (Query.laterPage.layout.write .mysql) :=
    (Query.sql_eq_ok_iff Dialect.visible_mysql).2 ⟨rfl, rfl⟩
  refine ⟨Dialect.visible_mysql, Dialect.visible_unqualified, ?_⟩
  rcases Query.sql_dialects Dialect.visible_mysql Dialect.visible_unqualified Query.laterPage with
    ⟨x, hx, -⟩ | ⟨f, g, hf, hg, hbindings⟩
  · rw [hsql] at hx
    cases hx
  · obtain rfl : Query.laterPage.layout.write .mysql = f := Except.ok.inj (hsql.symm.trans hf)
    exact ⟨_, g, hf, hg, bindings_laterPage, hbindings⟩

end BoundSql
