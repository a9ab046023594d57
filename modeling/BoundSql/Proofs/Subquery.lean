import BoundSql.Proofs.Placeholders

/-!
# Queries under `EXISTS`

A query under `EXISTS`, however deep it stands, is written as it is written on its own: the
statement around it has no part in its text, nor has the alias of that statement. Its text and its
bindings each stand in one block, and the placeholders in front of its text are those of the
bindings in front of its bindings.
-/
namespace BoundSql

open Layout

mutual

/-- The queries under `EXISTS` in an expression, also those in its filter or in its query. -/
def Expr.subqueries : Expr → List Select
  | .group filter => filter.subqueries
  | .existence query _ => query :: query.subqueries
  | _ => []

def Expr.listSubqueries : List Expr → List Select
  | [] => []
  | e :: rest => e.subqueries ++ Expr.listSubqueries rest

def Filter.subqueries : Filter → List Select
  | ⟨terms, _⟩ => Expr.listSubqueries terms

/-- Those in the select list, then those in the filter. -/
def Select.subqueries : Select → List Select
  | ⟨_, _, _, _, columns, filter, _, _, _, _, _⟩ =>
    Expr.listSubqueries columns ++ filter.subqueries

end

/-- The queries under `EXISTS` in a statement; a truncated table has no filter. -/
def Query.subqueries : Query → List Select
  | .select q => q.subqueries
  | .update q => q.filter.subqueries
  | .delete q => if q.truncate then [] else q.filter.subqueries
  | _ => []

/-! ## Checks -/

section
variable {s : Select}

mutual

theorem Expr.check_subquery : (e : Expr) → s ∈ e.subqueries → e.check = .ok () → s.check = .ok ()
  | .group filter, hs, h => by
    rw [Expr.subqueries] at hs
    rw [Expr.check] at h
    exact Filter.check_subquery filter hs h
  | .existence query negated, hs, h => by
    rw [Expr.subqueries] at hs
    rw [Expr.check] at h
    rcases List.mem_cons.1 hs with rfl | hs
    · exact h
    · exact Select.check_subquery query hs h
  | .raw r, hs, _ | .rawColumn r, hs, _ => by simp [Expr.subqueries] at hs
  | .column c label, hs, _ | .aggregate function c label, hs, _
  | .datePart part c label, hs, _ => by
    simp [Expr.subqueries] at hs
  | .comparison c op value, hs, _ | .between c low high negated, hs, _
  | .oneOf c values negated, hs, _ => by
    simp [Expr.subqueries] at hs

theorem Expr.checks_subquery : (es : List Expr) → s ∈ Expr.listSubqueries es →
    Expr.checks es = .ok () → s.check = .ok ()
  | [], hs, _ => by simp [Expr.listSubqueries] at hs
  | e :: rest, hs, h => by
    rw [Expr.listSubqueries] at hs
    rw [Expr.checks] at h
    obtain ⟨_, he, hrest⟩ := Except.bind_eq_ok.1 h
    rcases List.mem_append.1 hs with hs | hs
    · exact Expr.check_subquery e hs he
    · exact Expr.checks_subquery rest hs hrest

theorem Filter.check_subquery : (f : Filter) → s ∈ f.subqueries → f.check = .ok () →
    s.check = .ok ()
  | ⟨terms, _⟩, hs, h => by
    rw [Filter.subqueries] at hs
    rw [Filter.check] at h
    exact Expr.checks_subquery terms hs h

/-- What passes its checks passes those of every query in it. -/
theorem Select.check_subquery : (q : Select) → s ∈ q.subqueries → q.check = .ok () →
    s.check = .ok ()
  | ⟨table, schema, tableAlias, distinct, columns, filter, joins, groups, sort, limits,
      recursion⟩, hs, h => by
    obtain ⟨-, hcolumns, hfilter⟩ := Select.check_eq_ok h
    rw [Select.subqueries] at hs
    rcases List.mem_append.1 hs with hs | hs
    · exact Expr.checks_subquery columns hs hcolumns
    · exact Filter.check_subquery filter hs hfilter

end

theorem Query.check_subquery {q : Query} (hs : s ∈ q.subqueries) (h : q.check = .ok ()) :
    s.check = .ok () := by
  cases q with
  | select q => exact Select.check_subquery q hs h
  | update q => exact Filter.check_subquery q.filter hs (Update.check_eq_ok h).2
  | delete q =>
    rw [subqueries] at hs
    cases htruncate : q.truncate with
    | true => simp [htruncate] at hs
    | false =>
      rw [htruncate, if_neg Bool.false_ne_true] at hs
      exact Filter.check_subquery q.filter hs ((Delete.check_eq_ok h).2 htruncate)
  | insert q | createTable q | createIndex q => simp [subqueries] at hs

end

/-! ## Blocks of a layout -/

namespace Layout

theorem isVisible_of_block {k l : Layout} (h : k <:+: l) (hk : isVisible k = true) :
    isVisible l = true := by
  obtain ⟨p, hp, hvisible⟩ := List.any_eq_true.1 hk
  exact List.any_eq_true.2 ⟨p, h.subset hp, hvisible⟩

theorem infix_headed (before : String) (l : Layout) : l <:+: headed before l := by
  cases l with
  | nil => exact List.nil_infix
  | cons p l => exact List.infix_cons List.infix_rfl

theorem infix_enclosed (before after : String) (l : Layout) : l <:+: enclosed before after l := by
  cases l with
  | nil => exact List.nil_infix
  | cons p l => exact ⟨[.words before], [.words after], rfl⟩

theorem infix_intercalate (separator : String) {l : Layout} {parts : List Layout}
    (h : l ∈ parts) : l <:+: List.intercalate [.words separator] parts := by
  induction parts with
  | nil => cases h
  | cons m rest ih =>
    cases rest with
    | nil =>
      obtain rfl := List.mem_singleton.1 h
      exact ⟨[], [], by simp⟩
    | cons m' rest =>
      rw [List.intercalate_cons_cons, List.append_assoc]
      rcases List.mem_cons.1 h with rfl | h
      · exact List.infix_append_left
      · exact List.infix_append_of_infix_right (List.infix_append_of_infix_right (ih h))

/-- A part that shows is written with the others. -/
theorem infix_joined (separator : String) {l : Layout} {parts : List Layout} (h : l ∈ parts)
    (hl : isVisible l = true) : l <:+: joined separator parts :=
  infix_intercalate separator (List.mem_filter.2 ⟨h, hl⟩)

end Layout

namespace Select

namespace Arm

theorem columns_infix (t : Target) (a : Arm) : a.columns <:+: a.layout t := by
  have hlist : a.columns <:+: a.columnList := by
    unfold columnList
    split
    · rename_i h
      rw [List.isEmpty_iff.1 h]
      exact List.nil_infix
    · exact List.infix_rfl
  exact List.infix_cons (List.infix_append_of_infix_left hlist)

theorem filter_infix (t : Target) (a : Arm) : a.filter <:+: a.layout t := by
  have hclause : a.filter <:+: headed " WHERE " a.filter := infix_headed " WHERE " a.filter
  refine List.infix_cons (List.infix_append_of_infix_right (List.infix_cons ?_))
  refine List.infix_append_of_infix_left (List.infix_append_of_infix_left ?_)
  exact List.infix_append_of_infix_left (List.infix_append_of_infix_right hclause)

end Arm

/-- The first arm of a query, or its only one, stands in one block. -/
theorem infix_arm (q : Select) : ∃ joins, { q.arm with joins }.layout q.target <:+: q.layout := by
  cases hr : q.recursion with
  | none =>
    rw [layout_eq_arm hr]
    exact ⟨q.joins, List.infix_rfl⟩
  | some r =>
    rw [layout_eq_arms hr]
    exact ⟨[], List.infix_cons List.infix_append_left⟩

theorem columns_infix (q : Select) : q.arm.columns <:+: q.layout := by
  obtain ⟨joins, harm⟩ := q.infix_arm
  exact (Arm.columns_infix q.target { q.arm with joins }).trans harm

theorem filter_infix (q : Select) : q.arm.filter <:+: q.layout := by
  obtain ⟨joins, harm⟩ := q.infix_arm
  exact (Arm.filter_infix q.target { q.arm with joins }).trans harm

/-- A query as it stands under `EXISTS`. -/
def embedded (s : Select) : Layout := .words "EXISTS ( " :: (s.layout ++ [.words " )"])

theorem isVisible_embedded (s : Select) : isVisible s.embedded = true := rfl

end Select

section
variable {s : Select}

mutual

theorem Expr.infix_embedded (tableAlias : Option String) : (e : Expr) → s ∈ e.subqueries →
    s.embedded <:+: e.layout tableAlias
  | .group filter, hs => by
    rw [Expr.subqueries] at hs
    rw [Expr.layout]
    exact (Filter.infix_embedded tableAlias filter hs).trans (infix_enclosed "( " " )" _)
  | .existence query negated, hs => by
    have hquery : query.embedded <:+: (Expr.existence query negated).layout tableAlias := by
      rw [Expr.layout]
      exact List.infix_append_right
    rw [Expr.subqueries] at hs
    rcases List.mem_cons.1 hs with rfl | hs
    · exact hquery
    · refine (Select.infix_embedded query hs).trans (List.IsInfix.trans ?_ hquery)
      exact List.infix_cons List.infix_append_left
  | .raw r, hs | .rawColumn r, hs => by simp [Expr.subqueries] at hs
  | .column c label, hs | .aggregate function c label, hs | .datePart part c label, hs => by
    simp [Expr.subqueries] at hs
  | .comparison c op value, hs | .between c low high negated, hs
  | .oneOf c values negated, hs => by
    simp [Expr.subqueries] at hs

/-- Some expression of the list holds the query. -/
theorem Expr.infix_embedded_list (tableAlias : Option String) : (es : List Expr) →
    s ∈ Expr.listSubqueries es → ∃ l ∈ Expr.layouts tableAlias es, s.embedded <:+: l
  | [], hs => by simp [Expr.listSubqueries] at hs
  | e :: rest, hs => by
    rw [Expr.listSubqueries] at hs
    rw [Expr.layouts]
    rcases List.mem_append.1 hs with hs | hs
    · exact ⟨_, List.mem_cons_self .., Expr.infix_embedded tableAlias e hs⟩
    · obtain ⟨l, hl, hblock⟩ := Expr.infix_embedded_list tableAlias rest hs
      exact ⟨l, List.mem_cons_of_mem _ hl, hblock⟩

theorem Filter.infix_embedded (tableAlias : Option String) : (f : Filter) → s ∈ f.subqueries →
    s.embedded <:+: f.layout tableAlias
  | ⟨terms, connective⟩, hs => by
    rw [Filter.subqueries] at hs
    rw [Filter.layout]
    obtain ⟨l, hl, hblock⟩ := Expr.infix_embedded_list tableAlias terms hs
    exact hblock.trans (infix_joined _ hl (isVisible_of_block hblock s.isVisible_embedded))

/-- A query in another stands in one block of its layout. -/
theorem Select.infix_embedded : (q : Select) → s ∈ q.subqueries → s.embedded <:+: q.layout
  | ⟨table, schema, tableAlias, distinct, columns, filter, joins, groups, sort, limits,
      recursion⟩, hs => by
    have hcolumns := Select.columns_infix ⟨table, schema, tableAlias, distinct, columns, filter,
      joins, groups, sort, limits, recursion⟩
    have hfilter := Select.filter_infix ⟨table, schema, tableAlias, distinct, columns, filter,
      joins, groups, sort, limits, recursion⟩
    rw [Select.subqueries] at hs
    rcases List.mem_append.1 hs with hs | hs
    · obtain ⟨l, hl, hblock⟩ := Expr.infix_embedded_list tableAlias columns hs
      have hlist := infix_joined "," hl (isVisible_of_block hblock s.isVisible_embedded)
      exact (hblock.trans hlist).trans hcolumns
    · exact (Filter.infix_embedded tableAlias filter hs).trans hfilter

end

theorem Query.infix_embedded {q : Query} (hs : s ∈ q.subqueries) :
    s.embedded <:+: q.layout := by
  have hclause : ∀ (tableAlias : Option String) (f : Filter), s ∈ f.subqueries →
      s.embedded <:+: headed " WHERE " (f.layout tableAlias) := fun tableAlias f hs =>
    (f.infix_embedded tableAlias hs).trans (infix_headed " WHERE " _)
  cases q with
  | select q => exact Select.infix_embedded q hs
  | update q =>
    have hwhere := hclause q.tableAlias q.filter hs
    refine List.infix_cons (List.infix_append_of_infix_right (List.infix_cons ?_))
    exact List.infix_append_of_infix_right hwhere
  | delete q =>
    rw [subqueries] at hs
    cases htruncate : q.truncate with
    | true => simp [htruncate] at hs
    | false =>
      rw [htruncate, if_neg Bool.false_ne_true] at hs
      have hwhere := hclause q.tableAlias q.filter hs
      rw [layout, Delete.layout, htruncate, if_neg Bool.false_ne_true]
      refine List.infix_cons (List.infix_append_of_infix_left ?_)
      exact List.infix_append_of_infix_right hwhere
  | insert q | createTable q | createIndex q => simp [subqueries] at hs

end

/-! ## Fragments -/

/-- A query under `EXISTS` has SQL of its own, and the statement's fragment holds it as one block.
What stands in front is balanced, so it has a placeholder for each of its bindings. -/
theorem Query.sql_subquery {q : Query} {s : Select} {f : Fragment}
    (hraws : ∀ r ∈ q.raws, r.sql.IsBalanced) (hs : s ∈ q.subqueries) (h : q.sql .mysql = .ok f) :
    ∃ before g after : Fragment, s.sql .mysql = .ok g ∧
      f = before.push "EXISTS ( " ++ g ++ (.ofText " )" ++ after) ∧
      (before.push "EXISTS ( ").IsBalanced ∧ g.IsBalanced := by
  obtain ⟨hcheck, rfl⟩ := (Query.sql_eq_ok_iff Dialect.visible_mysql).1 h
  obtain ⟨before, after, hlayout⟩ := Query.infix_embedded hs
  have hpieces : ∀ p ∈ q.layout, (p.sql .mysql).IsBalanced :=
    (q.phrase_layout hraws).isBalanced_pieces
  have hbalanced : ∀ l : Layout, l <:+: q.layout → (write .mysql l).IsBalanced := fun l hl =>
    (filled_write fun p hp => hpieces p (hl.subset hp)).1
  refine ⟨write .mysql before, write .mysql s.layout, write .mysql after, ?_, ?_, ?_, ?_⟩
  · rw [Select.sql_eq Dialect.visible_mysql, Query.check_subquery hs hcheck]
    rfl
  · rw [← hlayout]
    simp only [Select.embedded, write_append, write_cons, write_nil, Piece.sql, Fragment.push,
      Fragment.append_assoc, Fragment.append_empty]
  · have hfront := hbalanced (before ++ [.words "EXISTS ( "])
      ⟨[], s.layout ++ [.words " )"] ++ after, by simp [← hlayout, Select.embedded]⟩
    rwa [write_append, write_singleton] at hfront
  · exact hbalanced s.layout
      ⟨before ++ [.words "EXISTS ( "], [.words " )"] ++ after, by
        simp [← hlayout, Select.embedded]⟩

/-- The pages of a site that has no closed account; its name has a question mark in it. -/
def Select.openPages : Select :=
  { Select.ofTable "page?" with
    filter :=
      ⟨[.comparison (.plain "open") .is (.bool true), .rawColumn ⟨"size > ?", [.int 2]⟩], .or⟩
    limits := ⟨3, 0⟩ }

/-- Sites under an alias, two levels of `EXISTS` above the pages. -/
def Query.siteUpdate : Query :=
  .update
    { Update.ofTable "site" with
      tableAlias := some "s\x60?"
      assignments := [("seen", .int 0)]
      filter :=
        ⟨[.group ⟨[], .or⟩,
          .group
            ⟨[.comparison (.plain "id") .eq (.int 1),
              .existence
                { Select.ofTable "user" with
                  tableAlias := some "u"
                  filter := ⟨[.existence Select.openPages true], .and⟩ }
                false], .or⟩], .and⟩ }

theorem Query.sql_subquery_siteUpdate :
    (∀ r ∈ Query.siteUpdate.raws, r.sql.IsBalanced) ∧
      Select.openPages ∈ Query.siteUpdate.subqueries ∧
      ∃ f before g after : Fragment, Query.siteUpdate.sql .mysql = .ok f ∧
        f.bindings = [.int 0, .int 1, .int 2, .uint 3] ∧
        Select.openPages.sql .mysql = .ok g ∧
        g = ⟨"SELECT * FROM \x60page?\x60 WHERE \x60open\x60 IS TRUE OR size > ? LIMIT ?",
          [.int 2, .uint 3]⟩ ∧
        f = before.push "EXISTS ( " ++ g ++ (.ofText " )" ++ after) ∧
        (before.push "EXISTS ( ").IsBalanced := by
  have hraws : ∀ r ∈ Query.siteUpdate.raws, r.sql.IsBalanced := by
    intro r hr
    obtain rfl : r = ⟨"size > ?", [.int 2]⟩ := List.mem_singleton.1 hr
    exact ⟨by decide, by decide⟩
  have hmem : Select.openPages ∈ Query.siteUpdate.subqueries :=
    List.mem_cons_of_mem _ (List.mem_cons_self ..)
  have hsql : Query.siteUpdate.sql .mysql = .ok (Query.siteUpdate.layout.write .mysql) :=
    (Query.sql_eq_ok_iff Dialect.visible_mysql).2 ⟨rfl, rfl⟩
  obtain ⟨before, g, after, hpages, hsplit, hfront, -⟩ := Query.sql_subquery hraws hmem hsql
  have hwritten : Select.openPages.sql .mysql = .ok (Select.openPages.layout.write .mysql) :=
    Select.sql_eq Dialect.visible_mysql Select.openPages
  have hg : g = Select.openPages.layout.write .mysql := Except.ok.inj (hpages.symm.trans hwritten)
  refine ⟨hraws, hmem, _, before, g, after, hsql, rfl, hpages, ?_, hsplit, hfront⟩
  rw [hg]
  exact Fragment.ext (by decide) rfl

end BoundSql
