import BoundSql.Proofs.Joined
import BoundSql.Proofs.Layout.Query
import BoundSql.Proofs.Refusal
import BoundSql.Select.Build

/-!
# The order of building steps

Steps that set different parts of a query can be exchanged, with one exception. A join qualifies
its foreign key by the alias that the query has when the join is added, so a join and a step that
sets the alias make different queries in the two orders. The SQL differs in the qualifier of that
one key, unless the join is cleared later, the query is recursive and drops its joins, or it has no
SQL at all.
-/
namespace BoundSql
namespace Select

/-! ## Parts of a query -/

/-- What a step can set. -/
inductive Part where
  | schema
  | tableAlias
  | columns
  | distinct
  | groups
  | sort
  | limit
  | offset
  | recursion
  | joins
  | filter
deriving DecidableEq

namespace Edit

/-- The part that a step sets. -/
def part : Edit → Part
  | .schema _ => .schema
  | .tableAlias _ => .tableAlias
  | .addColumns _ | .clearColumns => .columns
  | .distinct => .distinct
  | .groupBy _ => .groups
  | .sortBy _ => .sort
  | .take _ => .limit
  | .skip _ => .offset
  | .recurse _ => .recursion
  | .join .. | .joinRaw .. | .clearJoins => .joins
  | .filter _ => .filter

/-- Whether a step takes over the alias of the query. -/
def takesAlias : Edit → Bool
  | .join .. => true
  | _ => false

/-- Two steps that set different parts, neither of which reads what the other sets. -/
structure Independent (a b : Edit) : Prop where
  part_ne : a.part ≠ b.part
  left_reads : a.takesAlias = true → b.part ≠ .tableAlias
  right_reads : b.takesAlias = true → a.part ≠ .tableAlias

/-- The exception: one step takes over the alias that the other sets. -/
theorem independent_or {a b : Edit} (h : a.part ≠ b.part) :
    a.Independent b ∨ (a.takesAlias = true ∧ b.part = .tableAlias) ∨
      (b.takesAlias = true ∧ a.part = .tableAlias) := by
  by_cases ha : a.takesAlias = true ∧ b.part = .tableAlias
  · exact .inr (.inl ha)
  by_cases hb : b.takesAlias = true ∧ a.part = .tableAlias
  · exact .inr (.inr hb)
  exact .inl ⟨h, fun hreads hsets => ha ⟨hreads, hsets⟩, fun hreads hsets => hb ⟨hreads, hsets⟩⟩

/-- The joins that a step adds to a query of this alias. -/
def addedJoins (qualifier : Option String) : Edit → List Join
  | .join kind table joined foreignKey primaryKey =>
    [.table kind table joined ⟨primaryKey, joined⟩ ⟨foreignKey, qualifier⟩]
  | .joinRaw kind sql => [.raw kind sql]
  | _ => []

end Edit

/-! ## Exchanging steps -/

theorem edit_comm {a b : Edit} (h : a.Independent b) (q : Select) :
    (q.edit a).edit b = (q.edit b).edit a := by
  cases a <;> cases b <;> first
    | rfl
    | exact absurd rfl h.part_ne
    | exact absurd rfl (h.left_reads rfl)
    | exact absurd rfl (h.right_reads rfl)

theorem build_append (q : Select) (before after : List Edit) :
    q.build (before ++ after) = (q.build before).build after :=
  List.foldl_append

theorem build_swap {a b : Edit} (h : a.Independent b) (q : Select) (before after : List Edit) :
    q.build (before ++ a :: b :: after) = q.build (before ++ b :: a :: after) := by
  rw [build_append, build_append]
  exact congrArg (build · after) (edit_comm h (q.build before))

/-! ## Joins of a built query -/

/-- The query with other joins. -/
def withJoins (q : Select) (joins : List Join) : Select := { q with joins := joins }

/-- A step adds joins behind those that are there, and does the same to all other parts whatever
they are. -/
theorem edit_withJoins {e : Edit} (h : e ≠ .clearJoins) (q : Select) (joins : List Join) :
    (q.withJoins joins).edit e = (q.edit e).withJoins (joins ++ e.addedJoins q.tableAlias) := by
  cases e with
  | clearJoins => exact absurd rfl h
  | join | joinRaw => rfl
  | _ => simp only [Edit.addedJoins, List.append_nil]; rfl

/-- So does a run of steps that clears no joins. -/
theorem build_withJoins {edits : List Edit} (h : .clearJoins ∉ edits) (q : Select) :
    ∃ added, ∀ joins,
      (q.withJoins joins).build edits = (q.build edits).withJoins (joins ++ added) := by
  induction edits generalizing q with
  | nil => exact ⟨[], fun joins => by rw [List.append_nil]; rfl⟩
  | cons e rest ih =>
    rw [List.mem_cons, not_or] at h
    obtain ⟨added, hrest⟩ := ih h.2 (q.edit e)
    refine ⟨e.addedJoins q.tableAlias ++ added, fun joins => ?_⟩
    change ((q.withJoins joins).edit e).build rest = ((q.edit e).build rest).withJoins _
    rw [edit_withJoins (Ne.symm h.1), hrest, List.append_assoc]

/-- Once joins are cleared it does not matter which there were. -/
theorem build_withJoins_of_mem {edits : List Edit} (h : .clearJoins ∈ edits) (q : Select)
    (joins : List Join) : (q.withJoins joins).build edits = q.build edits := by
  induction edits generalizing q joins with
  | nil => cases h
  | cons e rest ih =>
    change ((q.withJoins joins).edit e).build rest = (q.edit e).build rest
    by_cases he : e = .clearJoins
    · rw [he]; rfl
    · rw [edit_withJoins he]
      exact ih ((List.mem_cons.1 h).resolve_left (Ne.symm he)) (q.edit e) _

/-! ## SQL around a key -/

/-- A join begins with its keyword and a space. -/
theorem isEmpty_joinSql (s : Scope) (j : Join) : (j.sql s).isEmpty = false := by
  cases j <;> simp [Join.sql, Fragment.isEmpty, String.append_eq_empty_iff]

/-- A foreign key stands in a text that does not depend on it. -/
theorem exists_joinClause (s : Scope) (left right : List Join) (kind : JoinKind) (table : String)
    (joined : Option String) (primaryKey : ColumnName) :
    ∃ front back bindings, ∀ foreignKey,
      (Join.clause s (left ++ .table kind table joined primaryKey foreignKey :: right)).surrounded
        " " "" = ⟨front ++ s.columnOwn foreignKey ++ back, bindings⟩ := by
  obtain ⟨front, back, htext⟩ :=
    exists_intercalate " " (left.map fun j => (j.sql s).text) (right.map fun j => (j.sql s).text)
  let opening := kind.keyword ++ " " ++ s.aliased (s.quote table) joined ++ " ON " ++
    s.columnOwn primaryKey ++ " = "
  refine ⟨" " ++ (front ++ opening), back,
    (left ++ right).flatMap fun j => (j.sql s).bindings, fun foreignKey => ?_⟩
  have hclause : Join.clause s (left ++ .table kind table joined primaryKey foreignKey :: right) =
      ⟨front ++ (opening ++ s.columnOwn foreignKey) ++ back,
        (left ++ right).flatMap fun j => (j.sql s).bindings⟩ := by
    rw [Join.clause, Fragment.joined_eq " " fun f hf => ?_]
    · ext1
      · simp only [← htext, List.map_append, List.map_cons, List.map_map]
        rfl
      · simp only [List.map_append, List.map_cons, List.flatMap_append, List.flatMap_cons,
          List.flatMap_map]
        rfl
    · obtain ⟨j, -, rfl⟩ := List.mem_map.1 hf
      exact isEmpty_joinSql s j
  rw [hclause, Fragment.surrounded, if_neg (by simp [Fragment.isEmpty, opening])]
  ext1
  · simp only [Fragment.text_append, Fragment.text_ofText, String.append_empty, String.append_assoc]
  · simp only [Fragment.bindings_append, Fragment.bindings_ofText, List.nil_append, List.append_nil]

variable (d : Dialect)

/-- A recursive query drops its joins. -/
theorem sql_withJoins_of_recursion {q : Select} {r : Recursion} (h : q.recursion = some r)
    (joins : List Join) : (q.withJoins joins).sql d = q.sql d := by
  obtain ⟨table, schema, tableAlias, distinct, columns, filter, own, groups, sort, limits,
    recursion⟩ := q
  obtain rfl : recursion = some r := h
  rw [withJoins, sql, sql]

/-- The clauses of a query stand in front of its joins and behind them. -/
theorem Body.sql_joins (t : Target) (b : Body) :
    ∃ front back, ∀ joins, ({ b with joins := joins } : Body).sql d t =
      front ++ (Join.clause (t.scope d) joins).surrounded " " "" ++ back := by
  refine ⟨.ofText (if b.distinct then "SELECT DISTINCT " else "SELECT ") ++ b.columnList ++
      .ofText (" FROM " ++ t.nameAliased d), b.filter.surrounded " WHERE " "" ++
    (Grouping.clause (t.scope d) b.groups).surrounded " " "" ++
      b.limits.clause (t.scope d) ++ SortKey.clause (t.scope d) b.sort, fun joins => ?_⟩
  simp only [Body.sql, Fragment.append_assoc]
  rfl

/-- Any other query writes them between two fragments, once the rest is accepted. -/
theorem exists_frame {q : Select} (h : q.recursion = none) :
    ∃ frame : Except Error (Fragment × Fragment), ∀ joins,
      (q.withJoins joins).sql d = frame.map fun (front, back) =>
        front ++ (Join.clause ⟨d, q.tableAlias⟩ joins).surrounded " " "" ++ back := by
  obtain ⟨table, schema, tableAlias, distinct, columns, filter, own, groups, sort, limits,
    recursion⟩ := q
  obtain rfl : recursion = none := h
  simp only [withJoins, sql]
  cases htarget : Target.resolve table schema tableAlias with
  | error e => exact ⟨.error e, fun _ => rfl⟩
  | ok target =>
    obtain ⟨rfl, rfl, rfl, -⟩ := Target.resolve_eq_ok_iff.1 htarget
    by_cases hdistinct : (distinct && !Expr.nameColumns columns) = true
    · simp only [hdistinct, if_true]
      exact ⟨.error .noDistinctColumns, fun _ => rfl⟩
    simp only [if_neg hdistinct, bind, Except.bind]
    cases Expr.sqls (target.scope d) columns with
    | error e => exact ⟨.error e, fun _ => rfl⟩
    | ok rendered =>
      cases filter.sql (target.scope d) with
      | error e => exact ⟨.error e, fun _ => rfl⟩
      | ok predicates =>
        obtain ⟨front, back, hbody⟩ := Body.sql_joins d target
          ⟨distinct, .joined "," rendered, [], predicates, groups, limits, sort⟩
        exact ⟨.ok (front, back), fun joins => congrArg Except.ok (hbody joins)⟩

/-! ## Joins and the alias -/

/-- Two foreign keys make the same SQL exactly if they are written alike, unless no key is
written at all. -/
theorem sql_withJoins_eq_iff (q : Select) (left right : List Join) (kind : JoinKind)
    (table : String) (joined : Option String) (primaryKey k k' : ColumnName) :
    (q.withJoins (left ++ .table kind table joined primaryKey k :: right)).sql d =
        (q.withJoins (left ++ .table kind table joined primaryKey k' :: right)).sql d ↔
      q.recursion.isSome = true ∨
        Fails ((q.withJoins (left ++ .table kind table joined primaryKey k :: right)).sql d) ∨
        d.qualify k.qualifier k.name = d.qualify k'.qualifier k'.name := by
  cases hrecursion : q.recursion with
  | some r => simp [sql_withJoins_of_recursion d hrecursion]
  | none =>
    obtain ⟨frame, hframe⟩ := exists_frame d hrecursion
    obtain ⟨front, back, bindings, hclause⟩ :=
      exists_joinClause ⟨d, q.tableAlias⟩ left right kind table joined primaryKey
    cases frame with
    | error e => simp [hframe, Except.map]
    | ok sides =>
      simp [hframe, hclause, Except.map, Fragment.ext_iff, Scope.columnOwn]

/-- A join that is not cleared later stands among the joins of the built query. The alias that
its key has taken over is all that a step setting the alias can change of it. -/
theorem exists_joins_build (q : Select) {after : List Edit} (h : .clearJoins ∉ after)
    (kind : JoinKind) (table : String) (joined : Option String)
    (foreignKey primaryKey name : String) :
    ∃ built left right,
      (q.build (.join kind table joined foreignKey primaryKey :: .tableAlias name :: after) =
        withJoins built (left ++ .table kind table joined ⟨primaryKey, joined⟩
          ⟨foreignKey, q.tableAlias⟩ :: right)) ∧
      q.build (.tableAlias name :: .join kind table joined foreignKey primaryKey :: after) =
        withJoins built (left ++ .table kind table joined ⟨primaryKey, joined⟩
          ⟨foreignKey, some name⟩ :: right) := by
  obtain ⟨added, hadded⟩ := build_withJoins h (q.edit (.tableAlias name))
  refine ⟨(q.edit (.tableAlias name)).build after, q.joins, added, ?_, ?_⟩
  · rw [List.append_cons, ← hadded]
    rfl
  · rw [List.append_cons, ← hadded]
    rfl

/-- Two steps that set different parts make the same query in either order, unless one of them is
a join and the other one sets the alias. Behind a new alias a join differs only in the qualifier of
its foreign key, which is the alias that the query had when the join was added; so the SQL is the
same exactly if a later step clears the joins, the query is recursive and drops them, it has no SQL,
or both aliases are written alike. -/
theorem sql_build_swap (d : Dialect) (q : Select) (before after : List Edit) :
    (∀ a b : Edit, a.part ≠ b.part →
      q.build (before ++ a :: b :: after) = q.build (before ++ b :: a :: after) ∨
        (a.takesAlias = true ∧ b.part = .tableAlias) ∨
          (b.takesAlias = true ∧ a.part = .tableAlias)) ∧
      ∀ kind table joined foreignKey primaryKey name,
        let early := q.build
          (before ++ .join kind table joined foreignKey primaryKey :: .tableAlias name :: after)
        let late := q.build
          (before ++ .tableAlias name :: .join kind table joined foreignKey primaryKey :: after)
        (.clearJoins ∉ after → ∃ built left right,
          early = withJoins built (left ++ .table kind table joined ⟨primaryKey, joined⟩
            ⟨foreignKey, (q.build before).tableAlias⟩ :: right) ∧
          late = withJoins built (left ++ .table kind table joined ⟨primaryKey, joined⟩
            ⟨foreignKey, some name⟩ :: right)) ∧
        (early.sql d = late.sql d ↔
          .clearJoins ∈ after ∨ early.recursion.isSome = true ∨ Fails (early.sql d) ∨
            d.qualify (q.build before).tableAlias foreignKey =
              d.qualify (some name) foreignKey) := by
  constructor
  · intro a b hparts
    exact (Edit.independent_or hparts).imp_left fun h => build_swap h q before after
  · intro kind table joined foreignKey primaryKey name early late
    have hjoins : .clearJoins ∉ after → ∃ built left right,
        early = withJoins built (left ++ .table kind table joined ⟨primaryKey, joined⟩
          ⟨foreignKey, (q.build before).tableAlias⟩ :: right) ∧
        late = withJoins built (left ++ .table kind table joined ⟨primaryKey, joined⟩
          ⟨foreignKey, some name⟩ :: right) := by
      intro hkept
      simp only [early, late, build_append]
      exact exists_joins_build (q.build before) hkept kind table joined foreignKey primaryKey name
    refine ⟨hjoins, ?_⟩
    by_cases hcleared : .clearJoins ∈ after
    · have hsame : early = late := by
        simp only [early, late, build_append]
        exact (build_withJoins_of_mem hcleared ((q.build before).edit (.tableAlias name)) _).trans
          (build_withJoins_of_mem hcleared ((q.build before).edit (.tableAlias name)) _).symm
      simp [hsame, hcleared]
    · obtain ⟨built, left, right, hearly, hlate⟩ := hjoins hcleared
      rw [hearly, hlate, sql_withJoins_eq_iff]
      simp only [hcleared, false_or]
      rfl

/-- The tasks that a user owns, joined before the users have their alias. -/
def tasksOfUser : Edit := .join .left "tasks" (some "t") "id" "user_id"

theorem sql_build_swap_tasksOfUser :
    let before : List Edit := [.tableAlias "m"]
    let after : List Edit := [.joinRaw .left ⟨"logs", []⟩, .take 5]
    let early := (ofTable "users").build (before ++ tasksOfUser :: .tableAlias "u" :: after)
    let late := (ofTable "users").build (before ++ .tableAlias "u" :: tasksOfUser :: after)
    Edit.part .distinct ≠ Edit.part (.sortBy ⟨"id", .asc⟩) ∧
      (ofTable "users").build (before ++ .distinct :: .sortBy ⟨"id", .asc⟩ :: after) =
        (ofTable "users").build (before ++ .sortBy ⟨"id", .asc⟩ :: .distinct :: after) ∧
      .clearJoins ∉ after ∧
      (∃ built left right,
        early = withJoins built (left ++
          .table .left "tasks" (some "t") ⟨"user_id", some "t"⟩ ⟨"id", some "m"⟩ :: right) ∧
        late = withJoins built (left ++
          .table .left "tasks" (some "t") ⟨"user_id", some "t"⟩ ⟨"id", some "u"⟩ :: right)) ∧
      early.sql .mysql ≠ late.sql .mysql := by
  intro before after early late
  obtain ⟨hindependent, hjoin⟩ := sql_build_swap .mysql (ofTable "users") before after
  obtain ⟨hjoins, hsql⟩ := hjoin .left "tasks" (some "t") "id" "user_id" "u"
  have hkept : .clearJoins ∉ after := by simp [after]
  have hparts : Edit.part .distinct ≠ Edit.part (.sortBy ⟨"id", .asc⟩) := by decide
  have hearly : early.sql .mysql = .ok (early.layout.write .mysql) :=
    (Query.sql_eq_ok_iff Dialect.visible_mysql (q := .select early)).2 ⟨rfl, rfl⟩
  refine ⟨hparts, (hindependent _ _ hparts).resolve_right (by decide), hkept, hjoins hkept,
    fun heq => ?_⟩
  obtain hcleared | hrecursive | hfails | halike := hsql.1 heq
  · exact hkept hcleared
  · exact absurd hrecursive (by decide)
  · exact absurd (hearly ▸ hfails) (not_fails_ok _)
  · exact absurd halike (by decide)

/-- The posts of users, joined without an alias of their own. -/
def joinPosts : Edit := .join .left "posts" none "post_id" "id"

/-- An alias that is set behind a join does not reach the join's foreign key. -/
theorem sql_build_aliasBehindJoin :
    joinPosts.part ≠ Edit.part (.tableAlias "u") ∧
      ((ofTable "users").build [joinPosts, .tableAlias "u"]).sql .mysql =
        .ok ⟨"SELECT * FROM \x60users\x60 as \x60u\x60 " ++
          "LEFT JOIN \x60posts\x60 ON \x60id\x60 = \x60post_id\x60", []⟩ ∧
      ((ofTable "users").build [.tableAlias "u", joinPosts]).sql .mysql =
        .ok ⟨"SELECT * FROM \x60users\x60 as \x60u\x60 " ++
          "LEFT JOIN \x60posts\x60 ON \x60id\x60 = \x60u\x60.\x60post_id\x60", []⟩ := by
  refine ⟨by decide, ?_, ?_⟩
  · exact (Query.sql_eq_ok_iff Dialect.visible_mysql
      (q := .select ((ofTable "users").build [joinPosts, .tableAlias "u"]))).2
      ⟨rfl, Fragment.ext (by decide) rfl⟩
  · exact (Query.sql_eq_ok_iff Dialect.visible_mysql
      (q := .select ((ofTable "users").build [.tableAlias "u", joinPosts]))).2
      ⟨rfl, Fragment.ext (by decide) rfl⟩

end Select
end BoundSql
