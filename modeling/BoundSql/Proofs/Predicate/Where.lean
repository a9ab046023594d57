import BoundSql.Proofs.Joined
import BoundSql.Proofs.Layout.Query
import BoundSql.Proofs.Predicate.Filter

/-!
# Predicates of changes

An update or a deletion without ` WHERE` changes every row, so no predicate may get lost on the
way through nested groups. A group is left out if nothing in it has text, and only raw SQL can be
without text: so the filter is missing exactly if the tree has no other predicate at any depth.
Else all of them are written in the order of the tree, with nothing but parentheses and connectives
between them.
-/
namespace BoundSql

open Fragment

/-! ## Signs -/

/-- A predicate of a filter, or what stands around and between predicates. -/
inductive FilterSign where
  | opening
  | closing
  | connective (c : Connective)
  | predicate (sql : Fragment)

namespace FilterSign

def sql : FilterSign → Fragment
  | .opening => .ofText "( "
  | .closing => .ofText " )"
  | .connective c => .ofText (" " ++ c.keyword ++ " ")
  | .predicate f => f

/-- All signs side by side. -/
def write (signs : List FilterSign) : Fragment := signs.foldr (fun m f => m.sql ++ f) .empty

def predicate? : FilterSign → Option Fragment
  | .predicate f => some f
  | _ => none

/-- What is left without parentheses and connectives. -/
def predicates (signs : List FilterSign) : List Fragment := signs.filterMap predicate?

mutual

/-- A predicate with text, or a group of terms between parentheses. -/
inductive IsTerm : List FilterSign → Prop
  | predicate {f : Fragment} (text : f.isEmpty = false) : IsTerm [.predicate f]
  | group {c : Connective} {signs : List FilterSign} (terms : AreTerms c signs) :
      IsTerm (.opening :: (signs ++ [.closing]))

/-- Terms with one connective between them. -/
inductive AreTerms : Connective → List FilterSign → Prop
  | last {c : Connective} {signs : List FilterSign} (term : IsTerm signs) : AreTerms c signs
  | more {c : Connective} {signs rest : List FilterSign} (term : IsTerm signs)
      (terms : AreTerms c rest) : AreTerms c (signs ++ .connective c :: rest)

end

@[simp] theorem write_nil : write [] = .empty := rfl

@[simp] theorem write_cons (m : FilterSign) (signs : List FilterSign) :
    write (m :: signs) = m.sql ++ write signs := rfl

@[simp] theorem write_append (signs rest : List FilterSign) :
    write (signs ++ rest) = write signs ++ write rest := by
  induction signs with
  | nil => rw [List.nil_append, write_nil, empty_append]
  | cons m signs ih => rw [List.cons_append, write_cons, write_cons, ih, append_assoc]

theorem predicates_append (signs rest : List FilterSign) :
    predicates (signs ++ rest) = predicates signs ++ predicates rest := List.filterMap_append

/-- Parentheses and connectives bind nothing. -/
theorem bindings_write (signs : List FilterSign) :
    (write signs).bindings = (predicates signs).flatMap bindings := by
  induction signs with
  | nil => rfl
  | cons m signs ih =>
    rw [predicates] at ih
    cases m <;> simp [sql, predicates, predicate?, List.filterMap_cons, ih]

theorem IsTerm.isEmpty_write {signs : List FilterSign} (h : IsTerm signs) :
    (write signs).isEmpty = false := by
  cases h with
  | predicate text => rw [write_cons, isEmpty_append, sql, text, Bool.false_and]
  | group terms =>
    rw [write_cons, isEmpty_append]
    rfl

theorem AreTerms.isEmpty_write {c : Connective} {signs : List FilterSign} (h : AreTerms c signs) :
    (write signs).isEmpty = false := by
  cases h with
  | last term => exact term.isEmpty_write
  | more term terms => rw [write_append, isEmpty_append, term.isEmpty_write, Bool.false_and]

end FilterSign

open FilterSign

/-- The fragment is written as signs of the given shape with the predicates in their order; if there
are no predicates, it has no text. -/
def Fragment.Shows (shape : List FilterSign → Prop) (parts : List Fragment) (f : Fragment) : Prop :=
  if parts = [] then f.isEmpty = true
  else ∃ signs, shape signs ∧ predicates signs = parts ∧ f = write signs

namespace Fragment

variable {shape : List FilterSign → Prop} {c : Connective} {f : Fragment} {parts : List Fragment}

theorem shows_nil : f.Shows shape [] ↔ f.isEmpty = true := by
  rw [Shows, if_pos rfl]

theorem shows_of_ne_nil (h : parts ≠ []) :
    f.Shows shape parts ↔ ∃ signs, shape signs ∧ predicates signs = parts ∧ f = write signs := by
  rw [Shows, if_neg h]

/-- A group stands between parentheses if it has text. -/
theorem Shows.surrounded (h : f.Shows (AreTerms c) parts) :
    (f.surrounded "( " " )").Shows IsTerm parts := by
  by_cases hparts : parts = []
  · subst hparts
    rw [shows_nil, isEmpty_surrounded]
    exact shows_nil.1 h
  · obtain ⟨signs, hsigns, hpredicates, rfl⟩ := (shows_of_ne_nil hparts).1 h
    refine (shows_of_ne_nil hparts).2 ⟨_, .group hsigns, ?_, ?_⟩
    · rw [← hpredicates]
      exact (predicates_append signs [.closing]).trans (List.append_nil _)
    · rw [Fragment.surrounded, hsigns.isEmpty_write, if_neg Bool.false_ne_true, write_cons,
        write_append, append_assoc]
      exact congrArg (fun g => ofText "( " ++ (write signs ++ g)) (append_empty _).symm

/-- A connective stands between two members of a filter if both have text. -/
theorem Shows.joined_cons {fs rest : List Fragment} (h : f.Shows IsTerm parts)
    (hrest : (joined (" " ++ c.keyword ++ " ") fs).Shows (AreTerms c) rest) :
    (joined (" " ++ c.keyword ++ " ") (f :: fs)).Shows (AreTerms c) (parts ++ rest) := by
  by_cases hparts : parts = []
  · subst hparts
    rw [joined_cons_of_isEmpty _ fs (shows_nil.1 h)]
    exact hrest
  · obtain ⟨signs, hsigns, rfl, rfl⟩ := (shows_of_ne_nil hparts).1 h
    rw [Fragment.joined_cons _ _ fs hsigns.isEmpty_write,
      ← isEmpty_joined (" " ++ c.keyword ++ " ")]
    by_cases hnone : rest = []
    · subst hnone
      rw [if_pos (shows_nil.1 hrest), List.append_nil]
      exact (shows_of_ne_nil hparts).2 ⟨signs, .last hsigns, rfl, rfl⟩
    · obtain ⟨others, hothers, rfl, hjoined⟩ := (shows_of_ne_nil hnone).1 hrest
      rw [hjoined, hothers.isEmpty_write, if_neg Bool.false_ne_true]
      refine (shows_of_ne_nil (by simp [hparts])).2 ⟨_, .more hsigns hothers, ?_, ?_⟩
      · exact predicates_append signs (.connective c :: others)
      · rw [write_append, write_cons, append_assoc]
        rfl

end Fragment

/-! ## Predicates of a tree -/

namespace Expr

/-- Raw SQL with an empty text. -/
def isEmptyRaw : Expr → Bool
  | .raw r | .rawColumn r => r.text == ""
  | _ => false

/-- All expressions but raw SQL with an empty text. -/
def written (es : List Expr) : List Expr := es.filter fun e => !e.isEmptyRaw

theorem sqls_cons_eq_ok {s : Scope} {e : Expr} {rest : List Expr} {fs : List Fragment} :
    sqls s (e :: rest) = .ok fs ↔
      ∃ f gs, e.sql s = .ok f ∧ sqls s rest = .ok gs ∧ f :: gs = fs := by
  rw [sqls]
  simp only [Except.bind_eq_ok, pure, Except.pure, Except.ok.injEq, exists_and_left]

theorem length_sqls {s : Scope} {es : List Expr} {fs : List Fragment} (h : sqls s es = .ok fs) :
    fs.length = es.length := by
  induction es generalizing fs with
  | nil =>
    obtain rfl := Except.ok.inj h
    rfl
  | cons e rest ih =>
    obtain ⟨f, gs, -, hgs, rfl⟩ := sqls_cons_eq_ok.1 h
    rw [List.length_cons, List.length_cons, ih hgs]

theorem sqls_append {s : Scope} {es rest : List Expr} {fs gs : List Fragment}
    (h : sqls s es = .ok fs) (hrest : sqls s rest = .ok gs) :
    sqls s (es ++ rest) = .ok (fs ++ gs) := by
  induction es generalizing fs with
  | nil =>
    obtain rfl := Except.ok.inj h
    exact hrest
  | cons e es ih =>
    obtain ⟨f, fs, hf, hfs, rfl⟩ := sqls_cons_eq_ok.1 h
    exact sqls_cons_eq_ok.2 ⟨f, fs ++ gs, hf, ih hfs, rfl⟩

section
variable {s : Scope} (hs : s.dialect.Visible)
include hs

/-- Of the predicates that are no groups only raw SQL may have no text. -/
theorem isEmpty_sql {e : Expr} {f : Fragment} (hgroup : ∀ g, e ≠ .group g) (h : e.sql s = .ok f) :
    f.isEmpty = e.isEmptyRaw := by
  have hvisible : Layout.isVisible (e.layout s.tableAlias) = !e.isEmptyRaw := by
    cases e with
    | group g => exact absurd rfl (hgroup g)
    | raw r | rawColumn r => simp [layout, isEmptyRaw, Piece.isVisible, bne]
    | column c label =>
      cases label <;> simp [layout, isEmptyRaw, Layout.labelled, columnLayout, Piece.isVisible]
    | aggregate function c label =>
      cases label <;> simp [layout, isEmptyRaw, Layout.labelled, aggregateLayout, Piece.isVisible]
    | datePart part c label =>
      cases label <;> simp [layout, isEmptyRaw, Layout.labelled, datePartLayout, Piece.isVisible]
    | comparison c op v =>
      simp [layout, isEmptyRaw, comparisonLayout, columnLayout, Piece.isVisible]
    | between c low high negated =>
      simp [layout, isEmptyRaw, betweenLayout, columnLayout, Piece.isVisible]
    | oneOf c values negated =>
      simp [layout, isEmptyRaw, oneOfLayout, columnLayout, Piece.isVisible]
    | existence q negated => simp [layout, isEmptyRaw, Piece.isVisible]
  have hsql := sql_eq hs s.tableAlias e
  cases hcheck : e.check with
  | error cause =>
    rw [hcheck] at hsql
    cases h.symm.trans hsql
  | ok u =>
    rw [hcheck] at hsql
    obtain rfl := Except.ok.inj (h.symm.trans hsql)
    rw [Layout.isEmpty_write hs, hvisible, Bool.not_not]

theorem shows_leaf {e : Expr} {f : Fragment} (hgroup : ∀ g, e ≠ .group g) (h : e.sql s = .ok f) :
    ∃ parts, sqls s (written [e]) = .ok parts ∧ f.Shows IsTerm parts := by
  have hempty := isEmpty_sql hs hgroup h
  cases hraw : e.isEmptyRaw with
  | true =>
    refine ⟨[], ?_, shows_nil.2 (hempty.trans hraw)⟩
    rw [written, List.filter_cons_of_neg (by simp [hraw])]
    rfl
  | false =>
    refine ⟨[f], ?_, (shows_of_ne_nil (List.cons_ne_nil _ _)).2
      ⟨[.predicate f], .predicate (hempty.trans hraw), rfl, (append_empty f).symm⟩⟩
    rw [written, List.filter_cons_of_pos (by simp [hraw]), List.filter_nil, sqls, h]
    rfl

end
end Expr

theorem Filter.sql_eq_ok_iff {s : Scope} {g : Filter} {f : Fragment} :
    g.sql s = .ok f ↔ ∃ fs, Expr.sqls s g.terms = .ok fs ∧
      joined (" " ++ g.connective.keyword ++ " ") fs = f := by
  obtain ⟨terms, connective⟩ := g
  rw [sql]
  simp only [Except.bind_eq_ok, pure, Except.pure, Except.ok.injEq]

section
variable {s : Scope}

-- A group hands its predicates on to the level above, where it counts as one term.
mutual

theorem Expr.shows (hs : s.dialect.Visible) : (e : Expr) → (f : Fragment) → e.sql s = .ok f →
    ∃ parts, Expr.sqls s (Expr.written e.leaves) = .ok parts ∧ f.Shows IsTerm parts
  | .group g, f, h => by
    rw [Expr.sql] at h
    obtain ⟨inner, hinner, hf⟩ := Except.bind_eq_ok.1 h
    obtain rfl := Except.ok.inj hf
    obtain ⟨parts, hparts, hshows⟩ := Filter.shows hs g inner hinner
    rw [Expr.leaves]
    exact ⟨parts, hparts, hshows.surrounded⟩
  | .raw _, f, h | .column .., f, h | .aggregate .., f, h | .rawColumn _, f, h
  | .datePart .., f, h | .comparison .., f, h | .between .., f, h | .oneOf .., f, h
  | .existence .., f, h => by
    rw [Expr.leaves]
    · exact Expr.shows_leaf hs (by simp) h
    · simp

theorem Expr.shows_list (hs : s.dialect.Visible) (c : Connective) :
    (es : List Expr) → (fs : List Fragment) → Expr.sqls s es = .ok fs →
    ∃ parts, Expr.sqls s (Expr.written (Expr.listLeaves es)) = .ok parts ∧
      (joined (" " ++ c.keyword ++ " ") fs).Shows (AreTerms c) parts
  | [], fs, h => by
    obtain rfl := Except.ok.inj h
    refine ⟨[], ?_, shows_nil.2 (isEmpty_joined _ [])⟩
    rw [Expr.listLeaves]
    rfl
  | e :: rest, fs, h => by
    obtain ⟨f, gs, hf, hgs, rfl⟩ := Expr.sqls_cons_eq_ok.1 h
    obtain ⟨parts, hparts, hshows⟩ := Expr.shows hs e f hf
    obtain ⟨others, hothers, hrest⟩ := Expr.shows_list hs c rest gs hgs
    refine ⟨parts ++ others, ?_, hshows.joined_cons hrest⟩
    rw [Expr.listLeaves, Expr.written, List.filter_append]
    exact Expr.sqls_append hparts hothers

theorem Filter.shows (hs : s.dialect.Visible) : (g : Filter) → (f : Fragment) → g.sql s = .ok f →
    ∃ parts, Expr.sqls s (Expr.written g.leaves) = .ok parts ∧
      f.Shows (AreTerms g.connective) parts
  | ⟨terms, c⟩, f, h => by
    obtain ⟨fs, hfs, rfl⟩ := Filter.sql_eq_ok_iff.1 h
    rw [Filter.leaves]
    exact Expr.shows_list hs c terms fs hfs

end

/-- A filter without text binds nothing either. -/
theorem Filter.eq_empty_of_isEmpty {g : Filter} {f : Fragment} (h : g.sql s = .ok f)
    (hempty : f.isEmpty = true) : f = .empty := by
  obtain ⟨fs, -, rfl⟩ := sql_eq_ok_iff.1 h
  ext1
  · exact isEmpty_iff.1 hempty
  · rw [← kept_joined, kept_of_isEmpty hempty]
    rfl

/-- The keyword stands in front of a filter with predicates. -/
theorem Filter.clause_shows (hs : s.dialect.Visible) {g : Filter} {f : Fragment}
    (h : g.clause s = .ok f) :
    ∃ parts, Expr.sqls s (Expr.written g.leaves) = .ok parts ∧
      if parts = [] then f = .empty
      else ∃ signs, AreTerms g.connective signs ∧ predicates signs = parts ∧
        f = .ofText " WHERE " ++ write signs := by
  obtain ⟨inner, hinner, hf⟩ := Except.bind_eq_ok.1 h
  obtain rfl := Except.ok.inj hf
  obtain ⟨parts, hparts, hshows⟩ := Filter.shows hs g inner hinner
  refine ⟨parts, hparts, ?_⟩
  by_cases hnone : parts = []
  · subst hnone
    rw [if_pos rfl, Filter.eq_empty_of_isEmpty hinner (shows_nil.1 hshows)]
    rfl
  · obtain ⟨signs, hsigns, hpredicates, rfl⟩ := (shows_of_ne_nil hnone).1 hshows
    rw [if_neg hnone]
    refine ⟨signs, hsigns, hpredicates, ?_⟩
    rw [surrounded, hsigns.isEmpty_write, if_neg Bool.false_ne_true]
    exact append_empty _

end

/-! ## Changes -/

/-- A change of the rows that a filter selects. -/
structure Change where
  /-- What stands in front of the filter. -/
  opening : Fragment
  filter : Filter
  scope : Scope
  /-- What stands behind the filter. -/
  tail : Fragment

namespace Change

/-- The SQL of a change around its filter. -/
def sql (c : Change) : Except Error Fragment := do
  return c.opening ++ (← c.filter.clause c.scope) ++ c.tail

end Change

/-- An update has its assignments in front of the filter. -/
def Update.change (d : Dialect) (q : Update) : Change :=
  let target : Target := ⟨q.table.getD "", q.schema, q.tableAlias⟩
  { opening := .ofText ("UPDATE " ++ target.nameAliased d ++ " SET ") ++
      .joined "," (q.assignments.map (assignmentSql (target.scope d)))
    filter := q.filter
    scope := target.scope d
    tail := .empty }

/-- A deletion has its limit behind the filter. -/
def Delete.change (d : Dialect) (q : Delete) : Change :=
  let target : Target := ⟨q.table.getD "", q.schema, q.tableAlias⟩
  { opening := .ofText ("DELETE FROM " ++ target.nameAliased d)
    filter := q.filter
    scope := target.scope d
    tail := q.limits.limitClause (target.scope d) }

/-- Updates and deletions; a truncated table has no filter. -/
def Query.change? (d : Dialect) : Query → Option Change
  | .update q => some (q.change d)
  | .delete q => if q.truncate then none else some (q.change d)
  | _ => none

section
variable {d : Dialect} {f : Fragment}

theorem Update.sql_change {q : Update} (h : q.sql d = .ok f) : (q.change d).sql = .ok f := by
  obtain ⟨target, htarget, hrest⟩ := Except.bind_eq_ok.1 h
  obtain rfl := Target.eq_of_resolve htarget
  obtain ⟨-, hwritten⟩ := Except.guard_eq_ok.1 hrest
  rw [← hwritten]
  simp only [change, Change.sql, append_empty]

theorem Delete.sql_change {q : Delete} (htruncate : q.truncate = false) (h : q.sql d = .ok f) :
    (q.change d).sql = .ok f := by
  obtain ⟨target, htarget, hrest⟩ := Except.bind_eq_ok.1 h
  obtain rfl := Target.eq_of_resolve htarget
  simp only [htruncate, Bool.false_eq_true, if_false] at hrest
  exact hrest

/-- What follows the filter of an update or a deletion does not look like a filter. -/
theorem Query.sql_change {q : Query} {c : Change} (hc : q.change? d = some c)
    (h : q.sql d = .ok f) :
    c.sql = .ok f ∧ c.scope.dialect = d ∧ ¬ " WHERE ".toList <+: c.tail.text.toList := by
  cases q with
  | update q =>
    obtain rfl := Option.some.inj hc
    exact ⟨Update.sql_change h, rfl, by simp [Update.change]⟩
  | delete q =>
    cases htruncate : q.truncate with
    | true => simp [change?, htruncate] at hc
    | false =>
      simp only [change?, htruncate, Bool.false_eq_true, if_false, Option.some.injEq] at hc
      obtain rfl := hc
      refine ⟨Delete.sql_change htruncate h, rfl, ?_⟩
      simp only [Delete.change, Limits.limitClause]
      split <;> simp
  | select q | insert q | createTable q | createIndex q => cases hc

end

/-- An update or a deletion goes on with ` WHERE ` exactly if some predicate of its filter, at any
depth of groups, is not raw SQL with an empty text. Then all these predicates stand there in the
order of the tree, with nothing but parentheses and connectives around them, and they bind their
values in this order. -/
theorem Query.sql_where {d : Dialect} (hd : d.Visible) {q : Query} {c : Change} {f : Fragment}
    (hc : q.change? d = some c) (h : q.sql d = .ok f) :
    ((c.opening.text ++ " WHERE ").toList <+: f.text.toList ↔
      ∃ e ∈ c.filter.leaves, e.isEmptyRaw = false) ∧
    ∃ parts, Expr.sqls c.scope (Expr.written c.filter.leaves) = .ok parts ∧
      if parts = [] then f = c.opening ++ c.tail
      else ∃ signs, AreTerms c.filter.connective signs ∧ predicates signs = parts ∧
        f = c.opening ++ .ofText " WHERE " ++ write signs ++ c.tail ∧
        (write signs).bindings = parts.flatMap bindings := by
  obtain ⟨hsql, rfl, htail⟩ := sql_change hc h
  obtain ⟨clause, hclause, hf⟩ := Except.bind_eq_ok.1 hsql
  obtain rfl := Except.ok.inj hf
  obtain ⟨parts, hparts, hshows⟩ := Filter.clause_shows hd hclause
  have hleaves : parts = [] ↔ ¬ ∃ e ∈ c.filter.leaves, e.isEmptyRaw = false := by
    rw [← List.length_eq_zero_iff, Expr.length_sqls hparts, List.length_eq_zero_iff,
      Expr.written, List.filter_eq_nil_iff]
    simp
  by_cases hnone : parts = []
  · rw [if_pos hnone] at hshows
    obtain rfl := hshows
    refine ⟨iff_of_false ?_ (hleaves.1 hnone), parts, hparts, ?_⟩
    · simpa [List.prefix_append_right_inj] using htail
    · rw [if_pos hnone, append_empty]
  · rw [if_neg hnone] at hshows
    obtain ⟨signs, hsigns, hpredicates, rfl⟩ := hshows
    refine ⟨iff_of_true ?_ (not_not.1 (hleaves.not.1 hnone)), parts, hparts, ?_⟩
    · simp [List.prefix_append_right_inj, String.toList_append]
    · rw [if_neg hnone, ← append_assoc]
      exact ⟨signs, hsigns, hpredicates, rfl, by rw [bindings_write, hpredicates]⟩

/-- Two predicates at different depths, beside groups and raw SQL without text. -/
def Query.staleSessions : Query :=
  .delete
    { Delete.ofTable "sessions" with
      tableAlias := some "s"
      limits := ⟨10, 0⟩
      filter :=
        ⟨[.group ⟨[.raw ⟨"", [.int 1]⟩, .group .empty], .or⟩,
          .group
            ⟨[.group
                ⟨[.comparison (.plain "kind") .eq (.list [.int 2, .int 3]), .rawColumn ⟨"", []⟩],
                  .and⟩,
              .raw ⟨"age > ?", [.int 4]⟩], .or⟩], .and⟩ }

theorem Query.sql_where_staleSessions :
    ∃ (c : Change) (f : Fragment) (parts : List Fragment) (signs : List FilterSign),
      staleSessions.change? .mysql = some c ∧ staleSessions.sql .mysql = .ok f ∧
      f.text = "DELETE FROM \x60sessions\x60 as \x60s\x60 " ++
        "WHERE ( ( \x60s\x60.\x60kind\x60 = ? ) OR age > ? ) LIMIT ?" ∧
      (c.opening.text ++ " WHERE ").toList <+: f.text.toList ∧ parts.length = 2 ∧
      AreTerms .and signs ∧ predicates signs = parts ∧
      f = c.opening ++ .ofText " WHERE " ++ write signs ++ c.tail := by
  have hsql : staleSessions.sql .mysql = .ok (staleSessions.layout.write .mysql) :=
    (sql_eq_ok_iff Dialect.visible_mysql).2 ⟨rfl, rfl⟩
  obtain ⟨hwhere, parts, hparts, hshows⟩ := sql_where Dialect.visible_mysql rfl hsql
  have hlength : parts.length = 2 := Expr.length_sqls hparts
  rw [if_neg (List.ne_nil_of_length_eq_add_one hlength)] at hshows
  obtain ⟨signs, hsigns, hpredicates, hwritten, -⟩ := hshows
  exact ⟨_, _, parts, signs, rfl, hsql, by decide +kernel, hwhere.2 ⟨_, .tail _ (.head _), rfl⟩,
    hlength, hsigns, hpredicates, hwritten⟩

end BoundSql
