import BoundSql.Proofs.Reload.Query

/-!
# Outlines

The outline of a statement leaves its bound data out: what is compared, assigned or inserted, the
bindings of raw SQL, what rows are sorted by, and by how much their number is limited. A value
beside `IS` or `IS NOT` stays, since it is written out, and so does whether there is a limit or
offset at all. Text depends on the outline alone, in any dialect.
-/
namespace BoundSql

/-! ## Statements without bound data -/

def RawSql.outline (r : RawSql) : RawSql := r.mapValues fun _ => .null

def Join.outline (j : Join) : Join := j.mapValues fun _ => .null

def Grouping.outline (g : Grouping) : Grouping := g.mapValues fun _ => .null

/-- Column and direction are both bound. -/
def SortKey.outline (_ : SortKey) : SortKey := ⟨"", .asc⟩

/-- A bound counts as one; no bound stays none. -/
def Limits.outline (l : Limits) : Limits :=
  ⟨if l.limit = 0 then 0 else 1, if l.offset = 0 then 0 else 1⟩

/-- A value on the right of an operator; beside `IS` and `IS NOT` it is written out. -/
def Operator.outline (op : Operator) (value : Value) : Value :=
  match op with
  | .is | .isNot => value
  | _ => .null

mutual

/-- An expression without its bound data. -/
def Expr.outline : Expr → Expr
  | .raw sql => .raw sql.outline
  | .column c label => .column c label
  | .aggregate function c label => .aggregate function c label
  | .rawColumn sql => .rawColumn sql.outline
  | .datePart part c label => .datePart part c label
  | .comparison c op value => .comparison c op (op.outline value)
  | .between c _ _ negated => .between c .null .null negated
  | .oneOf c values negated => .oneOf c (values.map fun _ => .null) negated
  | .group filter => .group filter.outline
  | .existence query negated => .existence query.outline negated

def Expr.outlines : List Expr → List Expr
  | [] => []
  | e :: rest => e.outline :: Expr.outlines rest

def Filter.outline : Filter → Filter
  | ⟨terms, connective⟩ => ⟨Expr.outlines terms, connective⟩

def Select.outline : Select → Select
  | ⟨table, schema, tableAlias, distinct, columns, filter, joins, groups, sort, limits,
      recursion⟩ =>
    ⟨table, schema, tableAlias, distinct, Expr.outlines columns, filter.outline,
      joins.map Join.outline, groups.map Grouping.outline, sort.map SortKey.outline,
      limits.outline, recursion⟩

end

def Update.outline (q : Update) : Update :=
  { q with
    assignments := q.assignments.map fun assignment => (assignment.1, .null)
    filter := q.filter.outline }

def Delete.outline (q : Delete) : Delete :=
  { q with filter := q.filter.outline, limits := q.limits.outline }

def Insert.outline (q : Insert) : Insert := q.mapValues fun _ => .null

/-- The bindings of a raw default are its only bound data. -/
def CreateTable.outline (q : CreateTable) : CreateTable := q.mapValues fun _ => .null

/-- A statement without its bound data. -/
def Query.outline : Query → Query
  | .select q => .select q.outline
  | .insert q => .insert q.outline
  | .update q => .update q.outline
  | .delete q => .delete q.outline
  | .createTable q => .createTable q.outline
  | .createIndex q => .createIndex q

/-! ## Fragments without values -/

namespace Fragment

/-- The text, and how many values are bound. -/
def outline (f : Fragment) : Fragment := ⟨f.text, f.bindings.map fun _ => .null⟩

theorem outline_eq_iff {f g : Fragment} :
    f.outline = g.outline ↔ f.text = g.text ∧ f.bindings.length = g.bindings.length := by
  simp only [outline, mk.injEq, List.map_const', List.replicate_inj]
  simp

theorem outline_append (f g : Fragment) : (f ++ g).outline = f.outline ++ g.outline := by
  ext1 <;> simp [outline]

theorem outline_ofText (s : String) : (ofText s).outline = ofText s := rfl

theorem outline_bound (text : String) (values : List Value) :
    (bound text values).outline = bound text (values.map fun _ => .null) := by
  ext1 <;> simp [outline, Function.comp_def, Value.binding]

theorem outline_push (f : Fragment) (text : String) :
    (f.push text).outline = f.outline.push text := outline_append _ _

theorem outline_pushBound (f : Fragment) (placeholder : String) (v : Value) :
    (f.pushBound placeholder v).outline = f.outline.pushBound placeholder .null := by
  rw [pushBound, outline_append, outline_bound]
  rfl

theorem outline_joined (separator : String) (parts : List Fragment) :
    (joined separator parts).outline = joined separator (parts.map outline) := by
  ext1 <;> simp [joined, outline, List.filter_map, Function.comp_def, isEmpty, List.map_flatMap,
    List.flatMap_map]

theorem outline_surrounded (before after : String) (f : Fragment) :
    (f.surrounded before after).outline = f.outline.surrounded before after := by
  have hempty : f.outline.isEmpty = f.isEmpty := rfl
  rw [surrounded, surrounded, hempty, apply_ite outline]
  simp only [outline_append, outline_ofText]

end Fragment

/-! ## Clauses -/

open Fragment

theorem RawSql.sql_outline (r : RawSql) : r.outline.sql.outline = r.sql.outline := by
  rw [sql, sql, outline_bound, outline_bound]
  exact congrArg (bound r.text) List.map_map

/-- Joining parts that have the outlines of others. -/
theorem outline_joined_congr {α : Type} (separator : String) {f : α → Fragment} {g : α → α}
    (h : ∀ a, (f (g a)).outline = (f a).outline) (parts : List α) :
    (joined separator ((parts.map g).map f)).outline =
      (joined separator (parts.map f)).outline := by
  simp only [outline_joined, List.map_map, Function.comp_def, h]

section
variable (s : Scope)

theorem Join.sql_outline (j : Join) : (j.outline.sql s).outline = (j.sql s).outline := by
  cases j with
  | table kind joined tableAlias primaryKey foreignKey => rfl
  | raw kind r => exact congrArg (_ ++ ·) r.sql_outline

theorem Join.clause_outline (joins : List Join) :
    (clause s (joins.map outline)).outline = (clause s joins).outline :=
  outline_joined_congr " " (sql_outline s) joins

theorem Grouping.sql_outline (g : Grouping) : (g.outline.sql s).outline = (g.sql s).outline := by
  cases g with
  | column c => rfl
  | raw r => exact r.sql_outline

theorem Grouping.clause_outline (groups : List Grouping) :
    (clause s (groups.map outline)).outline = (clause s groups).outline := by
  rw [clause, clause, outline_surrounded, outline_surrounded,
    outline_joined_congr "," (sql_outline s) groups]

namespace Limits

theorem limit_outline (l : Limits) : 0 < l.outline.limit ↔ 0 < l.limit := by
  by_cases h : l.limit = 0 <;> simp [outline, h, UInt64.pos_iff_ne_zero]

theorem offset_outline (l : Limits) : 0 < l.outline.offset ↔ 0 < l.offset := by
  by_cases h : l.offset = 0 <;> simp [outline, h, UInt64.pos_iff_ne_zero]

theorem clause_outline (l : Limits) : (l.outline.clause s).outline = (l.clause s).outline := by
  simp only [clause, limit_outline, offset_outline]
  by_cases hlimit : 0 < l.limit <;> by_cases hoffset : 0 < l.offset <;>
    simp [hlimit, hoffset, outline_push, outline_pushBound]

theorem limitClause_outline (l : Limits) :
    (l.outline.limitClause s).outline = (l.limitClause s).outline := by
  simp only [limitClause, limit_outline]
  by_cases hlimit : 0 < l.limit <;> simp [hlimit, outline_pushBound]

end Limits

theorem SortKey.clause_outline (k : Option SortKey) :
    (clause s (k.map outline)).outline = (clause s k).outline := by
  cases k with
  | none => rfl
  | some k => simp [clause, sql, outline_push, outline_pushBound]

end

/-! ## Queries -/

namespace Select.Body

theorem outline_columnList (b : Body) :
    b.columnList.outline =
      if b.columns.outline.isEmpty then .ofText "*" else b.columns.outline := by
  rw [columnList, apply_ite Fragment.outline]
  rfl

/-- Two queries with the same outline, whose rendered expressions have the same outlines too. -/
theorem sql_outline (d : Dialect) (t : Target) (distinct : Bool) {columns columns' : Fragment}
    (hcolumns : columns'.outline = columns.outline) (joins : List Join) {filter filter' : Fragment}
    (hfilter : filter'.outline = filter.outline) (groups : List Grouping) (limits : Limits)
    (sort : Option SortKey) :
    (sql d t ⟨distinct, columns', joins.map Join.outline, filter', groups.map Grouping.outline,
      limits.outline, sort.map SortKey.outline⟩).outline =
      (sql d t ⟨distinct, columns, joins, filter, groups, limits, sort⟩).outline := by
  simp only [sql, outline_append, outline_surrounded, outline_columnList, hcolumns, hfilter,
    Join.clause_outline, Grouping.clause_outline, Limits.clause_outline, SortKey.clause_outline]

end Select.Body

namespace Expr

theorem comparisonSql_outline (s : Scope) (c : ColumnName) (op : Operator) (v : Value) :
    (comparisonSql s c op (op.outline v)).map Fragment.outline =
      (comparisonSql s c op v).map Fragment.outline := by
  cases op with
  | is | isNot | isNull | isNotNull => rfl
  | _ => simp [comparisonSql, Operator.outline, Except.map, outline_pushBound]

theorem nameColumns_outlines (columns : List Expr) :
    nameColumns (outlines columns) = nameColumns columns := by
  have hwildcard : ∀ e : Expr, e.outline.isWildcard = e.isWildcard := fun e => by
    cases e <;> simp only [outline, isWildcard]
  have hany : (outlines columns).any isWildcard = columns.any isWildcard := by
    induction columns with
    | nil => rfl
    | cons e rest ih => rw [outlines, List.any_cons, List.any_cons, ih, hwildcard]
  rw [nameColumns, nameColumns, hany]
  cases columns <;> rfl

end Expr

namespace Recursion

theorem outline_sql (initial member : Fragment) :
    (sql initial member).outline = sql initial.outline member.outline := by
  simp only [sql, outline_append, outline_ofText]

theorem memberColumns_outlines (s : Scope) (columns : List Expr) {fs gs : List Fragment}
    (h : fs.map Fragment.outline = gs.map Fragment.outline) :
    (memberColumns s (Expr.outlines columns) fs).outline =
      (memberColumns s columns gs).outline := by
  have hempty : (Expr.outlines columns).isEmpty = columns.isEmpty := by cases columns <;> rfl
  rw [memberColumns, memberColumns, hempty, apply_ite Fragment.outline, apply_ite Fragment.outline,
    outline_joined, outline_joined, h]

end Recursion

mutual

theorem Expr.sql_outline (s : Scope) :
    (e : Expr) → (e.outline.sql s).map Fragment.outline = (e.sql s).map Fragment.outline
  | .raw r => congrArg Except.ok r.sql_outline
  | .column c label => rfl
  | .aggregate function c label => rfl
  | .rawColumn r => congrArg Except.ok r.sql_outline
  | .datePart part c label => rfl
  | .comparison c op v => Expr.comparisonSql_outline s c op v
  | .between c low high negated => by
    simp [Expr.outline, Expr.sql, Expr.betweenSql, Except.map, outline_push, outline_pushBound]
  | .oneOf c values negated => by
    rw [Expr.outline, Expr.sql, Expr.sql, Expr.oneOfSql, Expr.oneOfSql]
    simp only [Except.map, outline_bound, List.map_map]
    rfl
  | .group filter => by
    rw [Expr.outline, Expr.sql, Expr.sql]
    refine map_bind_congr (Filter.sql_outline s filter) fun f g hfg => congrArg Except.ok ?_
    rw [outline_surrounded, outline_surrounded, hfg]
  | .existence query negated => by
    rw [Expr.outline, Expr.sql, Expr.sql]
    refine map_bind_congr (Select.sql_outline s.dialect query) fun f g hfg => congrArg Except.ok ?_
    rw [outline_append, outline_append, outline_append, outline_append, hfg]

theorem Expr.sqls_outline (s : Scope) :
    (es : List Expr) → (Expr.sqls s (Expr.outlines es)).map (List.map Fragment.outline) =
      (Expr.sqls s es).map (List.map Fragment.outline)
  | [] => rfl
  | e :: rest => by
    rw [Expr.outlines, Expr.sqls, Expr.sqls]
    refine map_bind_congr (Expr.sql_outline s e) fun f g hfg => ?_
    refine map_bind_congr (Expr.sqls_outline s rest) fun fs gs hfgs => congrArg Except.ok ?_
    rw [List.map_cons, List.map_cons, hfg, hfgs]

theorem Filter.sql_outline (s : Scope) :
    (f : Filter) → (f.outline.sql s).map Fragment.outline = (f.sql s).map Fragment.outline
  | ⟨terms, connective⟩ => by
    rw [Filter.outline, Filter.sql, Filter.sql]
    refine map_bind_congr (Expr.sqls_outline s terms) fun fs gs hfgs => congrArg Except.ok ?_
    rw [outline_joined, outline_joined, hfgs]

theorem Select.sql_outline (d : Dialect) :
    (q : Select) → (q.outline.sql d).map Fragment.outline = (q.sql d).map Fragment.outline
  | ⟨table, schema, tableAlias, distinct, columns, filter, joins, groups, sort, limits,
      recursion⟩ => by
    have hcolumns := fun s => Expr.sqls_outline s columns
    have hfilter := fun s => Filter.sql_outline s filter
    rw [Select.outline, Select.sql, Select.sql, Expr.nameColumns_outlines]
    refine map_bind_right_congr _ fun target => ?_
    cases (distinct && !Expr.nameColumns columns) with
    | true => rfl
    | false =>
      cases recursion with
      | none =>
        refine map_bind_congr (hcolumns _) fun fs gs hfgs => ?_
        refine map_bind_congr (hfilter _) fun f g hfg => congrArg Except.ok ?_
        apply Select.Body.sql_outline
        · rw [outline_joined, outline_joined, hfgs]
        · exact hfg
      | some r =>
        refine map_bind_right_congr _ fun _ => ?_
        refine map_bind_congr (hcolumns _) fun fs gs hfgs => ?_
        refine map_bind_congr (hfilter _) fun f g hfg => ?_
        refine map_bind_congr (hcolumns _) fun fs' gs' hfgs' => congrArg Except.ok ?_
        have hjoined : (joined "," fs).outline = (joined "," gs).outline := by
          rw [outline_joined, outline_joined, hfgs]
        have hinitial := Select.Body.sql_outline d target distinct hjoined [] hfg groups limits sort
        have hmember := fun s t => Select.Body.sql_outline d t distinct
          (Recursion.memberColumns_outlines s columns hfgs') [r.join]
          (Eq.refl Fragment.empty.outline) groups .none none
        rw [Recursion.outline_sql, Recursion.outline_sql]
        exact (congrArg (Recursion.sql · _) hinitial).trans
          (congrArg (Recursion.sql _) (hmember _ _))

end

/-! ## Other statements -/

theorem Filter.clause_outline (s : Scope) (f : Filter) :
    (f.outline.clause s).map Fragment.outline = (f.clause s).map Fragment.outline := by
  rw [clause, clause]
  refine map_bind_congr (Filter.sql_outline s f) fun f g hfg => congrArg Except.ok ?_
  rw [outline_surrounded, outline_surrounded, hfg]

namespace Update

theorem assignmentSql_outline (s : Scope) (column : String) (v : Value) :
    (assignmentSql s (column, .null)).outline = (assignmentSql s (column, v)).outline := by
  simp only [assignmentSql, outline_pushBound]

theorem sql_outline (d : Dialect) (q : Update) :
    (q.outline.sql d).map Fragment.outline = (q.sql d).map Fragment.outline := by
  obtain ⟨table, schema, tableAlias, assignments, filter⟩ := q
  rw [outline, sql, sql]
  refine map_bind_right_congr _ fun target => ?_
  have hassignments := outline_joined_congr ","
    (fun assignment => assignmentSql_outline (target.scope d) assignment.1 assignment.2) assignments
  cases assignments with
  | nil => rfl
  | cons assignment rest =>
    refine map_bind_congr (Filter.clause_outline _ filter) fun f g hfg => congrArg Except.ok ?_
    rw [outline_append, outline_append, outline_append, outline_append, hassignments, hfg]

end Update

theorem Delete.sql_outline (d : Dialect) (q : Delete) :
    (q.outline.sql d).map Fragment.outline = (q.sql d).map Fragment.outline := by
  obtain ⟨table, schema, tableAlias, filter, limits, truncate⟩ := q
  rw [outline, sql, sql]
  refine map_bind_right_congr _ fun target => ?_
  cases truncate with
  | true => rfl
  | false =>
    refine map_bind_congr (Filter.clause_outline _ filter) fun f g hfg => congrArg Except.ok ?_
    rw [outline_append, outline_append, outline_append, outline_append, hfg,
      Limits.limitClause_outline]

namespace Insert

theorem cellSql_outline (s : Scope) (c : Cell) :
    ((c.mapValues fun _ => .null).sql s).outline = (c.sql s).outline := by
  cases c with
  | default => rfl
  | value v => simp only [Cell.mapValues, Cell.sql, outline_bound, List.map_cons, List.map_nil]

theorem tupleSql_outline (s : Scope) (columns : List String) (row : Row) :
    (tupleSql s columns (row.mapValues fun _ => .null)).outline =
      (tupleSql s columns row).outline := by
  simp only [tupleSql, outline_append, outline_joined, List.map_map, Function.comp_def,
    cell_mapValues, cellSql_outline]

theorem refreshSql_outline (s : Scope) (columns : List String) (first : Row) (item : Refresh) :
    (refreshSql s columns (first.mapValues fun _ => .null)
      (item.mapValues fun _ => .null)).map Fragment.outline =
      (refreshSql s columns first item).map Fragment.outline := by
  cases item with
  | column c =>
    rw [Refresh.mapValues, refreshSql, refreshSql]
    split
    · simp only [Except.map, outline_append, cell_mapValues, cellSql_outline]
    · rfl
  | raw r => exact congrArg Except.ok r.sql_outline

theorem refreshes_outline (s : Scope) (columns : List String) (first : Row)
    (items : List Refresh) :
    ((items.map (Refresh.mapValues fun _ => .null)).mapM
      (refreshSql s columns (first.mapValues fun _ => .null))).map (List.map Fragment.outline) =
      (items.mapM (refreshSql s columns first)).map (List.map Fragment.outline) := by
  induction items with
  | nil => rfl
  | cons item rest ih =>
    rw [List.map_cons, List.mapM_cons, List.mapM_cons]
    refine map_bind_congr (refreshSql_outline s columns first item) fun f g hfg => ?_
    refine map_bind_congr ih fun fs gs hfgs => congrArg Except.ok ?_
    rw [List.map_cons, List.map_cons, hfg, hfgs]

theorem refreshClause_outline (s : Scope) (columns : List String) (first : Row)
    (items : List Refresh) :
    (refreshClause s columns (first.mapValues fun _ => .null)
      (items.map (Refresh.mapValues fun _ => .null))).map Fragment.outline =
      (refreshClause s columns first items).map Fragment.outline := by
  rw [refreshClause, refreshClause]
  refine map_bind_congr (refreshes_outline s columns first items)
    fun fs gs hfgs => congrArg Except.ok ?_
  rw [outline_surrounded, outline_surrounded, outline_joined, outline_joined, hfgs]

theorem sql_outline (d : Dialect) (q : Insert) :
    (q.outline.sql d).map Fragment.outline = (q.sql d).map Fragment.outline := by
  have hnames := columnNames_mapValues (fun _ => .null) q
  rw [outline, sql, sql, hnames]
  generalize q.columnNames = columns
  obtain ⟨table, schema, rows, ignore, onDuplicate⟩ := q
  refine map_bind_right_congr _ fun target => ?_
  have hrows := outline_joined_congr ","
    (tupleSql_outline (target.scope d) columns) rows
  have hitems := getD_mapValues (fun _ => .null) onDuplicate
  cases rows with
  | nil => rfl
  | cons first rest =>
    cases columns with
    | nil => rfl
    | cons column columns =>
      rw [mapValues]
      dsimp only
      rw [hitems]
      refine map_bind_congr (refreshClause_outline _ _ first _) fun f g hfg => congrArg Except.ok ?_
      rw [outline_append, outline_append, outline_append, outline_append, hrows, hfg]

end Insert

namespace CreateTable

theorem checks_mapValues (f : Value → Value) (columns : List Column) :
    (columns.map (Column.mapValues f)).forM Column.check = columns.forM Column.check := by
  induction columns with
  | nil => rfl
  | cons c rest ih => exact congrArg (c.check >>= fun _ => ·) ih

/-- A definition has no placeholders, so none of its text can depend on a value. -/
theorem body_mapValues (d : Dialect) (f : Value → Value) (columns : List Column)
    (foreignKeys : List ForeignKey) :
    body d (columns.map (Column.mapValues f)) foreignKeys = body d columns foreignKeys := by
  have hlayout := bodyLayout_map (Column.layout_mapValues f) (fun _ => rfl) (fun _ => rfl) columns
    foreignKeys
  have hbody := body_eq d (columns.map (Column.mapValues f)) foreignKeys
  rw [hlayout, ← body_eq] at hbody
  exact congrArg Fragment.text hbody

theorem sql_outline (d : Dialect) (q : CreateTable) : q.outline.sql d = q.sql d := by
  obtain ⟨table, schema, columns, foreignKeys⟩ := q
  rw [outline, mapValues, sql, sql]
  simp only [checks_mapValues, body_mapValues, List.isEmpty_map]

end CreateTable

/-- A statement and its outline compile to the same text with as many values, or are refused for
the same cause. -/
theorem Query.sql_outline (d : Dialect) (q : Query) :
    (q.outline.sql d).map Fragment.outline = (q.sql d).map Fragment.outline := by
  cases q with
  | select q => exact Select.sql_outline d q
  | insert q => exact Insert.sql_outline d q
  | update q => exact Update.sql_outline d q
  | delete q => exact Delete.sql_outline d q
  | createTable q => exact congrArg (Except.map Fragment.outline) (CreateTable.sql_outline d q)
  | createIndex q => rfl

/-- In any dialect, statements that differ in bound data only are both refused, or have the same
text and bind as many values. -/
theorem Query.sql_of_outline_eq {p q : Query} (h : p.outline = q.outline) (d : Dialect) :
    (∃ e, p.sql d = .error e ∧ q.sql d = .error e) ∨
      ∃ f g, p.sql d = .ok f ∧ q.sql d = .ok g ∧ f.text = g.text ∧
        f.bindings.length = g.bindings.length := by
  have hmap : (p.sql d).map Fragment.outline = (q.sql d).map Fragment.outline := by
    rw [← sql_outline, h, sql_outline]
  cases hp : p.sql d <;> cases hq : q.sql d <;> rw [hp, hq] at hmap
  · cases hmap
    exact .inl ⟨_, rfl, rfl⟩
  · cases hmap
  · cases hmap
  · exact .inr ⟨_, _, rfl, rfl, outline_eq_iff.1 (Except.ok.inj hmap)⟩

/-- A page of the active rows of an owner that have a tag and come late in some order. -/
def Query.ownedPage (owner first second : Value) (key : SortKey) (skipped : UInt64) : Query :=
  .select
    { Select.ofTable "items" with
      filter :=
        ⟨[.comparison (.plain "owner") .eq owner, .comparison (.plain "active") .is (.bool true),
          .existence
            { Select.ofTable "tags" with
              filter := ⟨[.oneOf (.plain "tag") [first, second] false], .and⟩ }
            false], .and⟩
      sort := some key
      limits := ⟨0, skipped⟩ }

theorem Query.bindings_ownedPage (owner first second : Value) (key : SortKey) :
    ((ownedPage owner first second key 20).layout.write .mysql).bindings =
      [owner.binding, first.binding, second.binding, .uint 20, .string key.column,
        .string key.direction.keyword] := by
  rfl

/-- A value that spells SQL changes no text. -/
theorem Query.sql_of_outline_eq_ownedPage :
    let p := ownedPage (.int 7) .null (.list [.int 1, .int 2]) ⟨"id", .asc⟩ 20
    let q := ownedPage (.string "7 OR TRUE") (.string "a") (.string "?") ⟨"name", .desc⟩ 40
    p.outline = q.outline ∧
      ∃ f g, p.sql .mysql = .ok f ∧ q.sql .mysql = .ok g ∧ f.text = g.text ∧
        f.bindings = [.int 7, .null, .string "1,2", .uint 20, .string "id", .string "ASC"] ∧
        g.bindings.length = 6 := by
  intro p q
  have houtline : p.outline = q.outline := rfl
  have hsql : p.sql .mysql = .ok (p.layout.write .mysql) :=
    (Query.sql_eq_ok_iff Dialect.visible_mysql).2 ⟨rfl, rfl⟩
  refine ⟨houtline, ?_⟩
  rcases sql_of_outline_eq houtline .mysql with ⟨e, hp, -⟩ | ⟨f, g, hp, hq, htext, hlength⟩
  · rw [hsql] at hp
    cases hp
  · obtain rfl : p.layout.write .mysql = f := Except.ok.inj (hsql.symm.trans hp)
    have hbindings := bindings_ownedPage (.int 7) .null (.list [.int 1, .int 2]) ⟨"id", .asc⟩
    refine ⟨_, g, hp, hq, htext, hbindings, ?_⟩
    rw [← hlength, hbindings]
    rfl

end BoundSql
