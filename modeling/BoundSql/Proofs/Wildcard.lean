import BoundSql.Proofs.Arms
import BoundSql.Proofs.Predicate.Where
import BoundSql.Proofs.Reading.Reader

/-!
# Select lists of nothing but the wildcard

A select list without text is written as the wildcard. Whether a query may be distinct is told from
the expressions of its select list, and so is whether the second arm of a recursive query needs a
wildcard of its own; an expression without text counts there. Hence a select list that asks for
something else selects everything exactly if none of its expressions has text.
-/
namespace BoundSql

open Text Fragment

namespace Text

/-- The select list of the text is the bare wildcard. -/
def selectsAll (text : String) : Bool :=
  ["SELECT * FROM ", "SELECT DISTINCT * FROM "].any fun s => s.toList.isPrefixOf text.toList

/-- What stands behind `SELECT` where the select list is the bare wildcard. -/
def wildcards : List String := ["* FROM ", "DISTINCT * FROM "]

/-- No select list that begins with these characters, up to a comma or its end, is the bare
wildcard. -/
def IsColumn (cs : List Char) : Prop :=
  ∀ rest, rest.head? = some ',' ∨ " FROM ".toList <+: rest → ∀ s ∈ wildcards,
    ¬ s.toList <+: cs ++ rest

theorem IsColumn.append_comma {cs : List Char} (h : IsColumn cs) (more : List Char) :
    IsColumn (cs ++ ',' :: more) := by
  intro rest _ s hs
  rw [List.append_assoc]
  exact h _ (.inl rfl) s hs

theorem not_prefix_of_clash {s cs : List Char} (h : clashChars s cs = true) (rest : List Char) :
    ¬ s <+: cs ++ rest := by
  induction s generalizing cs with
  | nil => simp [clashChars] at h
  | cons c s ih =>
    cases cs with
    | nil => simp [clashChars] at h
    | cons d cs =>
      rw [List.cons_append, List.cons_prefix_cons]
      rintro ⟨rfl, hs⟩
      exact ih (by simpa [clashChars] using h) hs

/-- Characters that differ from the wildcard in some place. -/
theorem isColumn_of_clash (cs : List Char) (h : ∀ s ∈ wildcards, clashChars s.toList cs = true)
    (more : List Char) : IsColumn (cs ++ more) := by
  intro rest _ s hs
  rw [List.append_assoc]
  exact not_prefix_of_clash (h s hs) _

/-- Characters without an asterisk. The wildcard is cut neither at a comma nor in front of another
` FROM `. -/
theorem isColumn_of_notMem {cs : List Char} (hne : cs ≠ []) (hstar : '*' ∉ cs) : IsColumn cs := by
  have hcut : ∀ s ∈ wildcards, ∀ n ≤ s.toList.length, n ≠ 0 → '*' ∉ s.toList.take n →
      6 ≤ (s.toList.drop n).length ∧ (s.toList.drop n).head? ≠ some ',' ∧
        ¬ " FROM ".toList <+: s.toList.drop n := by
    decide
  rintro rest hrest s hs ⟨t, ht⟩
  rcases List.append_eq_append_iff.1 ht with ⟨w, hw, -⟩ | ⟨w, hw, hsplit⟩
  · have hmem : ∀ s ∈ wildcards, '*' ∈ s.toList := by decide
    exact hstar (hw ▸ List.mem_append_left w (hmem s hs))
  · have hdrop : s.toList.drop cs.length = w := by rw [hw, List.drop_left]
    have htake : s.toList.take cs.length = cs := by rw [hw, List.take_left]
    have hle : cs.length ≤ s.toList.length := by
      rw [hw, List.length_append]
      exact Nat.le_add_right _ _
    obtain ⟨hlength, hcomma, hfrom⟩ := hcut s hs cs.length hle
      (fun h => hne (List.eq_nil_of_length_eq_zero h)) (htake.symm ▸ hstar)
    rw [hdrop] at hlength hcomma hfrom
    rw [hsplit] at hrest
    rcases hrest with hhead | hprefix
    · cases w with
      | nil => simp at hlength
      | cons c w => exact hcomma hhead
    · exact hfrom (List.prefix_of_prefix_length_le hprefix (List.prefix_append w t) hlength)

end Text

/-! ## Expressions -/

namespace Expr

/-- A column that asks for everything: the wildcard, or raw SQL with an asterisk in it. -/
def asksForAll : Expr → Bool
  | .column c _ => c.isWildcard
  | .raw r | .rawColumn r => r.text.toList.contains '*'
  | _ => false

/-- A column is written between backticks unless it is the wildcard without a qualifier. -/
theorem chars_columnLayout (tableAlias : Option String) (c : ColumnName) :
    (columnLayout tableAlias c).chars.head? = some '\x60' ∨
      c.isWildcard = true ∧ (columnLayout tableAlias c).chars = ['*'] := by
  rw [columnLayout, Layout.chars, Layout.write_singleton]
  cases c.qualifier.or tableAlias with
  | some q => exact .inl (by simp [Piece.sql, Dialect.mysql])
  | none =>
    by_cases hname : c.name = "*"
    · exact .inr ⟨beq_iff_eq.2 hname, by simp [hname, Piece.sql, Dialect.mysql]⟩
    · exact .inl (by simp [hname, Piece.sql, Dialect.mysql])

theorem isColumn_of_backtick {cs : List Char} (h : cs.head? = some '\x60') (more : List Char) :
    IsColumn (cs ++ more) := by
  obtain ⟨name, rfl⟩ := List.head?_eq_some_iff.1 h
  exact isColumn_of_clash ['\x60'] (by decide) _

/-- The word behind the column of a predicate tells it from the wildcard. -/
theorem isColumn_columnLayout (word : String)
    (hword : ∀ s ∈ wildcards, clashChars s.toList ('*' :: ' ' :: word.toList) = true)
    (tableAlias : Option String) (c : ColumnName) (more : Layout) :
    IsColumn (Layout.chars (columnLayout tableAlias c ++ .words " " :: .words word :: more)) := by
  rw [Layout.chars_append, Layout.chars_words_cons, Layout.chars_words_cons]
  rcases chars_columnLayout tableAlias c with hquoted | ⟨-, hstar⟩
  · exact isColumn_of_backtick hquoted _
  · rw [hstar]
    exact isColumn_of_clash _ hword more.chars

/-- An expression that does not ask for everything is not taken for the wildcard. -/
theorem isColumn_chars {e : Expr} (tableAlias : Option String) (hasked : e.asksForAll = false)
    (hvisible : Layout.isVisible (e.layout tableAlias) = true) :
    IsColumn (e.layout tableAlias).chars := by
  have hlabelled : ∀ (l : Layout) (label : Option String), (∀ more, IsColumn (l.chars ++ more)) →
      IsColumn (Layout.labelled l label).chars := by
    rintro l (_ | label) h
    · simpa [Layout.labelled] using h []
    · rw [Layout.labelled, Layout.chars_append]
      exact h _
  cases e with
  | raw r | rawColumn r =>
    rw [layout] at hvisible ⊢
    refine isColumn_of_notMem ?_ ?_
    · simpa [Layout.chars, Piece.isVisible, Piece.sql, RawSql.sql] using hvisible
    · simpa [asksForAll, Layout.chars, Piece.sql, RawSql.sql] using hasked
  | column c label =>
    rw [layout]
    refine hlabelled _ label fun more => ?_
    rcases chars_columnLayout tableAlias c with hquoted | ⟨hstar, -⟩
    · exact isColumn_of_backtick hquoted _
    · exact absurd hstar (Bool.eq_false_iff.1 hasked)
  | aggregate function c label =>
    rw [layout]
    refine hlabelled _ label fun more => ?_
    rw [aggregateLayout, Layout.chars_words_cons, List.append_assoc]
    exact isColumn_of_clash _ (by cases function <;> decide) _
  | datePart part c label =>
    rw [layout]
    refine hlabelled _ label fun more => ?_
    rw [datePartLayout, Layout.chars_words_cons, List.append_assoc]
    exact isColumn_of_clash _ (by cases part <;> decide) _
  | comparison c op value =>
    rw [layout]
    exact isColumn_columnLayout _ (by cases op <;> decide) tableAlias c _
  | between c low high negated =>
    rw [layout]
    cases negated
    · exact isColumn_columnLayout "BETWEEN " (by decide) tableAlias c _
    · exact isColumn_columnLayout "NOT " (by decide) tableAlias c _
  | oneOf c values negated =>
    rw [layout]
    cases negated
    · exact isColumn_columnLayout "IN (" (by decide) tableAlias c _
    · exact isColumn_columnLayout "NOT " (by decide) tableAlias c _
  | group filter =>
    rw [layout] at hvisible ⊢
    cases hfilter : filter.layout tableAlias with
    | nil => simp [hfilter, Layout.enclosed] at hvisible
    | cons p l =>
      rw [Layout.enclosed, Layout.chars_words_cons]
      exact isColumn_of_clash _ (by decide) _
  | existence q negated =>
    rw [layout, negationLayout]
    cases negated
    · rw [if_neg Bool.false_ne_true, List.nil_append, Layout.chars_words_cons]
      exact isColumn_of_clash _ (by decide) _
    · rw [if_pos rfl, List.singleton_append, Layout.chars_words_cons]
      exact isColumn_of_clash _ (by decide) _

theorem isColumn_sql {tableAlias : Option String} {e : Expr} {f : Fragment}
    (hasked : e.asksForAll = false) (h : e.sql ⟨.mysql, tableAlias⟩ = .ok f)
    (hne : f.isEmpty = false) : IsColumn f.text.toList := by
  rw [sql_eq Dialect.visible_mysql] at h
  cases hcheck : e.check with
  | error cause => simp [hcheck, Except.map] at h
  | ok u =>
    obtain rfl : Layout.write .mysql (e.layout tableAlias) = f := by
      simpa [hcheck, Except.map] using h
    rw [Layout.isEmpty_write Dialect.visible_mysql, Bool.not_eq_false'] at hne
    exact isColumn_chars tableAlias hasked hne

/-- A select list is told from the wildcard by its first expression with text. -/
theorem isColumn_joined {tableAlias : Option String} {es : List Expr} {fs : List Fragment}
    (hasked : ∀ e ∈ es, e.asksForAll = false) (h : sqls ⟨.mysql, tableAlias⟩ es = .ok fs)
    (hne : (joined "," fs).isEmpty = false) : IsColumn (joined "," fs).text.toList := by
  induction es generalizing fs with
  | nil =>
    obtain rfl := Except.ok.inj h
    cases hne
  | cons e rest ih =>
    obtain ⟨f, gs, hf, hgs, rfl⟩ := sqls_cons_eq_ok.1 h
    cases hempty : f.isEmpty with
    | true =>
      rw [joined_cons_of_isEmpty "," gs hempty] at hne ⊢
      exact ih (fun d hd => hasked d (List.mem_cons_of_mem e hd)) hgs hne
    | false =>
      have hcolumn := isColumn_sql (hasked e (List.mem_cons_self ..)) hf hempty
      rw [Fragment.joined_cons "," f gs hempty]
      split
      · exact hcolumn
      · rw [text_append, text_append, String.toList_append, String.toList_append,
          List.append_assoc]
        exact hcolumn.append_comma _

/-- Joined expressions have no text exactly if they have none at any depth of groups. -/
theorem isEmpty_joined_iff {s : Scope} (hs : s.dialect.Visible) (separator : String)
    {es : List Expr} {fs : List Fragment} (h : sqls s es = .ok fs) :
    (joined separator fs).isEmpty = true ↔ written (listLeaves es) = [] := by
  obtain ⟨parts, hparts, hshows⟩ := shows_list hs .and es fs h
  rw [isEmpty_joined, ← isEmpty_joined (" " ++ Connective.and.keyword ++ " "),
    ← List.length_eq_zero_iff, ← length_sqls hparts, List.length_eq_zero_iff]
  refine ⟨fun hempty => ?_, ?_⟩
  · by_contra hne
    obtain ⟨signs, hsigns, -, hwrite⟩ := (shows_of_ne_nil hne).1 hshows
    rw [hwrite, hsigns.isEmpty_write] at hempty
    cases hempty
  · rintro rfl
    exact shows_nil.1 hshows

end Expr

/-! ## Queries -/

namespace Select

/-- A query selects everything if its select list has no text. -/
theorem Body.selectsAll_sql (t : Target) (b : Body)
    (h : b.columns.isEmpty = false → IsColumn b.columns.text.toList) :
    selectsAll (b.sql .mysql t).text = b.columns.isEmpty := by
  obtain ⟨rest, htext⟩ : ∃ rest, (b.sql .mysql t).text.toList =
      (if b.distinct then "SELECT DISTINCT " else "SELECT ").toList ++
        (b.columnList.text.toList ++ (" FROM ".toList ++ rest)) := by
    simp only [sql, text_append, text_ofText, String.toList_append, List.append_assoc]
    exact ⟨_, rfl⟩
  rw [selectsAll, htext]
  cases hempty : b.columns.isEmpty with
  | true =>
    have hstar : b.columnList.text = "*" := congrArg text (if_pos hempty)
    rw [hstar]
    cases b.distinct <;> rfl
  | false =>
    have hcolumns : b.columnList = b.columns := if_neg (Bool.eq_false_iff.1 hempty)
    have hcolumn := h hempty (" FROM ".toList ++ rest) (.inr (List.prefix_append ..))
    have hstar := hcolumn "* FROM " (by decide)
    have hdistinct := hcolumn "DISTINCT * FROM " (by decide)
    rw [← List.isPrefixOf_iff_prefix, Bool.not_eq_true] at hstar hdistinct
    rw [hcolumns]
    cases b.distinct
    · simpa using ⟨hstar, hdistinct⟩
    · simpa [List.isPrefixOf] using hstar

section
variable {q : Select} {f : Fragment}

/-- What has been rendered once a query that is no recursion is written. -/
theorem clauses_of_sql_none {d : Dialect} (hr : q.recursion = none) (h : q.sql d = .ok f) :
    ∃ rendered predicates, Expr.sqls (q.target.scope d) q.columns = .ok rendered ∧
      f = Body.sql d q.target
        ⟨q.distinct, .joined "," rendered, q.joins, predicates, q.groups, q.limits, q.sort⟩ := by
  cases q
  obtain rfl := hr
  rw [sql] at h
  obtain ⟨t, ht, hrest⟩ := Except.bind_eq_ok.1 h
  obtain rfl := Target.eq_of_resolve ht
  obtain ⟨-, hrest⟩ := Except.guard_eq_ok.1 hrest
  obtain ⟨rendered, hrendered, hrest⟩ := Except.bind_eq_ok.1 hrest
  obtain ⟨predicates, -, hf⟩ := Except.bind_eq_ok.1 hrest
  exact ⟨rendered, predicates, hrendered, (Except.ok.inj hf).symm⟩

/-- A select list is rendered as the wildcard if none of its expressions has text. -/
theorem Body.selectsAll_sql_joined {b : Body} {t : Target} {s : Scope} {columns : List Expr}
    {rendered : List Fragment} (hs : s.dialect = .mysql)
    (hasked : ∀ e ∈ columns, e.asksForAll = false) (h : Expr.sqls s columns = .ok rendered)
    (hb : b.columns = .joined "," rendered) :
    selectsAll (b.sql .mysql t).text = true ↔ Expr.written (Expr.listLeaves columns) = [] := by
  obtain ⟨d, tableAlias⟩ := s
  obtain rfl := hs
  rw [Body.selectsAll_sql, hb]
  · exact Expr.isEmpty_joined_iff Dialect.visible_mysql "," h
  · rw [hb]
    exact Expr.isColumn_joined hasked h

/-- The second arm repeats the select list, and an empty one becomes a column of its table. -/
theorem selectsAll_memberBody (hasked : ∀ e ∈ q.columns, e.asksForAll = false) (r : Recursion)
    {again : List Fragment}
    (hagain : Expr.sqls (q.memberTarget.scope .mysql) q.columns = .ok again) :
    selectsAll ((q.memberBody .mysql r again).sql .mysql q.memberTarget).text = true ↔
      q.columns ≠ [] ∧ Expr.written (Expr.listLeaves q.columns) = [] := by
  by_cases hcolumns : q.columns = []
  · have hstar : (q.memberBody .mysql r again).columns =
        .ofText "\x60$recursive$\x60.*" := by
      have hqualified : Dialect.mysql.qualify (some Recursion.memberAlias) "*" =
          "\x60$recursive$\x60.*" := by decide
      rw [memberBody, Recursion.memberColumns, hcolumns]
      exact congrArg ofText hqualified
    rw [Body.selectsAll_sql, hstar]
    · simp [hcolumns, isEmpty]
    · rw [hstar]
      exact fun _ => isColumn_of_clash ['\x60'] (by decide) _
  · have hjoined : (q.memberBody .mysql r again).columns = .joined "," again :=
      if_neg (by simpa using hcolumns)
    rw [Body.selectsAll_sql_joined rfl hasked hagain hjoined]
    exact (and_iff_right hcolumns).symm

/-- A column nobody asked for is selected exactly if the select list has no text: a query that asks
for columns selects everything instead if these are raw SQL without text or groups of such. The
second arm of a recursive query differs only where the select list is empty, as it then selects
the columns of its own table; the text around the arms always selects all rows found. -/
theorem selectsAll_iff (hasked : ∀ e ∈ q.columns, e.asksForAll = false)
    (h : q.sql .mysql = .ok f) :
    (q.recursion = none →
      (selectsAll f.text = true ↔ Expr.written (Expr.listLeaves q.columns) = [])) ∧
    ∀ r, q.recursion = some r → ∃ initial member : Fragment,
      q.initialQuery.sql .mysql = .ok initial ∧ (q.memberQuery r).sql .mysql = .ok member ∧
      f.text = "WITH RECURSIVE recursive_cte AS ( " ++ initial.text ++ " UNION ALL " ++
        member.text ++ " ) SELECT * FROM recursive_cte" ∧
      (selectsAll initial.text = true ↔ Expr.written (Expr.listLeaves q.columns) = []) ∧
      (selectsAll member.text = true ↔
        q.columns ≠ [] ∧ Expr.written (Expr.listLeaves q.columns) = []) := by
  refine ⟨fun hr => ?_, fun r hr => ?_⟩
  · obtain ⟨rendered, predicates, hrendered, rfl⟩ := clauses_of_sql_none hr h
    exact Body.selectsAll_sql_joined rfl hasked hrendered rfl
  · obtain ⟨ht, hdistinct, columns, predicates, again, hcolumns, hpredicates, hagain, rfl⟩ :=
      clauses_of_sql hr h
    have hinitial := sql_of_clauses (q := q.initialQuery) rfl ht hdistinct hcolumns hpredicates
    have hmember := sql_of_clauses (q := q.memberQuery r) rfl (resolve_memberQuery r ht)
      (nameColumns_memberQuery r hdistinct) (columnsSql_memberColumns hagain) rfl
    refine ⟨_, _, hinitial, hmember, rfl, ?_, ?_⟩
    · obtain ⟨rendered, hrendered, rfl⟩ := columnsSql_eq_ok_iff.1 hcolumns
      exact Body.selectsAll_sql_joined rfl hasked hrendered rfl
    · exact selectsAll_memberBody hasked r hagain

/-- Replies of a thread that ask for two columns without text. -/
def hollowReplies : Select :=
  { ofTable "posts" with
    columns := [.rawColumn ⟨"", []⟩, .group ⟨[.raw ⟨"", [.int 1]⟩], .or⟩]
    recursion := some ⟨"parent", "id"⟩ }

/-- The same replies with a column that has text behind those without. -/
def namedReplies : Select :=
  { hollowReplies with columns := hollowReplies.columns ++ [.ofColumn (.plain "id")] }

/-- One column with text is enough: neither the query nor an arm of it selects everything. -/
theorem selectsAll_iff_hollowReplies :
    ((∀ e ∈ hollowReplies.columns, e.asksForAll = false) ∧
      ∃ f initial member : Fragment, hollowReplies.sql .mysql = .ok f ∧
        hollowReplies.initialQuery.sql .mysql = .ok initial ∧
        (hollowReplies.memberQuery ⟨"parent", "id"⟩).sql .mysql = .ok member ∧
        selectsAll initial.text = true ∧ selectsAll member.text = true) ∧
    (∀ e ∈ namedReplies.columns, e.asksForAll = false) ∧
      (∃ f initial member : Fragment, namedReplies.sql .mysql = .ok f ∧
        namedReplies.initialQuery.sql .mysql = .ok initial ∧
        (namedReplies.memberQuery ⟨"parent", "id"⟩).sql .mysql = .ok member ∧
        selectsAll initial.text = false ∧ selectsAll member.text = false) ∧
      ∃ f, namedReplies.initialQuery.sql .mysql = .ok f ∧ selectsAll f.text = false := by
  have hhollow : ∀ e ∈ hollowReplies.columns, e.asksForAll = false := by
    simp [hollowReplies, Expr.asksForAll]
  have hnamed : ∀ e ∈ namedReplies.columns, e.asksForAll = false := by
    simp [namedReplies, hollowReplies, Expr.asksForAll, Expr.ofColumn, ColumnName.plain,
      ColumnName.isWildcard]
  have hsql : ∀ q : Select, q.check = .ok () →
      q.sql .mysql = .ok (q.layout.write .mysql) := fun q h =>
    (Query.sql_eq_ok_iff Dialect.visible_mysql (q := .select q)).2 ⟨h, rfl⟩
  have hnone : Expr.written (Expr.listLeaves hollowReplies.columns) = [] := by
    simp [hollowReplies, Expr.listLeaves, Expr.leaves, Filter.leaves, Expr.written,
      Expr.isEmptyRaw]
  have hsome : Expr.written (Expr.listLeaves namedReplies.columns) ≠ [] := by
    simp [namedReplies, hollowReplies, Expr.listLeaves, Expr.leaves, Filter.leaves, Expr.written,
      Expr.isEmptyRaw, Expr.ofColumn]
  refine ⟨⟨hhollow, ?_⟩, hnamed, ?_, ?_⟩
  · have hwhole := hsql hollowReplies rfl
    obtain ⟨initial, member, hinitial, hmember, -, hfirst, hsecond⟩ :=
      (selectsAll_iff hhollow hwhole).2 _ rfl
    exact ⟨_, initial, member, hwhole, hinitial, hmember, hfirst.2 hnone,
      hsecond.2 ⟨List.cons_ne_nil _ _, hnone⟩⟩
  · have hwhole := hsql namedReplies rfl
    obtain ⟨initial, member, hinitial, hmember, -, hfirst, hsecond⟩ :=
      (selectsAll_iff hnamed hwhole).2 _ rfl
    refine ⟨_, initial, member, hwhole, hinitial, hmember, ?_, ?_⟩
    · exact Bool.eq_false_iff.2 (mt hfirst.1 hsome)
    · exact Bool.eq_false_iff.2 fun h => hsome (hsecond.1 h).2
  · have halone := hsql namedReplies.initialQuery rfl
    have hiff := (selectsAll_iff (q := namedReplies.initialQuery) hnamed halone).1 rfl
    exact ⟨_, halone, Bool.eq_false_iff.2 (mt hiff.1 hsome)⟩

/-- A distinct query that asks for one column without text. -/
def hollowDistinct : Select :=
  { ofTable "t" with distinct := true, columns := [.rawColumn ⟨"", []⟩] }

/-- It passes the check that a distinct query names its columns, and selects everything. -/
theorem selectsAll_hollowDistinct :
    hollowDistinct.columns ≠ [] ∧ (∀ e ∈ hollowDistinct.columns, e.asksForAll = false) ∧
      hollowDistinct.sql .mysql = .ok ⟨"SELECT DISTINCT * FROM \x60t\x60", []⟩ ∧
      selectsAll "SELECT DISTINCT * FROM \x60t\x60" = true := by
  have hsql : hollowDistinct.sql .mysql = .ok ⟨"SELECT DISTINCT * FROM \x60t\x60", []⟩ :=
    (Query.sql_eq_ok_iff Dialect.visible_mysql (q := .select hollowDistinct)).2
      ⟨rfl, Fragment.ext (by decide) rfl⟩
  refine ⟨List.cons_ne_nil _ _, ?_, hsql, by decide⟩
  simp [hollowDistinct, Expr.asksForAll]

end

end Select
end BoundSql
