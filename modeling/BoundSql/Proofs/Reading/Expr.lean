import BoundSql.Proofs.Reading.Normal
import BoundSql.Proofs.Reading.Reader

/-!
# Reading expressions

Every expression but a column begins with a text of its own, and what follows a column begins with
one too. A column without anything behind it ends where the statement goes on, with one of the
texts that can stand behind an expression. So one look tells what comes next, and an expression is
read back as its normal form. Filters and queries inside an expression are read by readers that are
given.
-/
namespace BoundSql

open Text Layout

/-! ## Names and values -/

namespace Text

theorem marks_append_text (s t : String) : marks (s ++ t) = marks s ++ marks t := by
  simp [marks]

/-- The label that comes next, if there is one. -/
def readLabel (ms : List Mark) : Option String × List Mark :=
  match skip? " as " ms with
  | some (.name n :: ms) => (some n, ms)
  | _ => (none, ms)

/-- The values up to the next mark that is neither a value nor a comma behind one. -/
def readValues : List Mark → List Value × List Mark
  | .value v :: ms =>
    match ms with
    | .char ',' :: ms =>
      let (vs, ms) := readValues ms
      (v :: vs, ms)
    | ms => ([v], ms)
  | ms => ([], ms)

/-- What a reader reads in front of a text, and what is left behind the text. -/
def before {α : Type} (p : MarkReader α) (after : String) : MarkReader α := fun ms => do
  let (a, ms) ← p ms
  return (a, ← skip? after ms)

end Text

/-- A name behind its qualifier, or by itself. -/
def ColumnName.read : MarkReader ColumnName
  | .char '*' :: ms => some (.plain "*", ms)
  | .name q :: ms =>
    match skip? "." ms with
    | some (.char '*' :: ms) => some (⟨"*", some q⟩, ms)
    | some (.name n :: ms) => some (⟨n, some q⟩, ms)
    | _ => some (⟨q, none⟩, ms)
  | _ => none

namespace Layout

theorem marks_call (keyword : String) (l : Layout) (ms : List Mark) :
    marks (.words keyword :: .words "(" :: (l ++ [.words ")"])) ++ ms =
      Text.marks (keyword ++ "(") ++ (marks l ++ (Text.marks ")" ++ ms)) := by
  simp [Piece.marks, marks_append_text]

theorem marks_labelled (l : Layout) (label : Option String) :
    marks (labelled l label) = marks l ++ marks (labelled [] label) := by
  cases label <;> simp [labelled]

end Layout

namespace Text

theorem readLabel_marks (label : Option String) {rest : List Mark}
    (h : skip? " as " rest = none) :
    readLabel (Layout.marks (labelled [] label) ++ rest) = (label, rest) := by
  cases label with
  | none => simp [readLabel, labelled, h]
  | some n => simp [readLabel, labelled, Piece.marks, skip?_marks]

theorem readValues_marks (vs : List Value) (rest : List Mark) :
    readValues (Layout.marks (List.intercalate [.words ","] (vs.map fun v => [.value v])) ++
      (marks ")" ++ rest)) = (vs.map Value.binding, marks ")" ++ rest) := by
  have hcomma : marks "," = [.char ','] := rfl
  have hclosing : marks ")" = [.char ')'] := rfl
  induction vs with
  | nil => rfl
  | cons v vs ih =>
    cases vs with
    | nil => simp [readValues, Piece.marks, hclosing]
    | cons w vs =>
      rw [List.map_cons] at ih
      rw [List.map_cons, List.map_cons, List.intercalate_cons_cons]
      simp only [Layout.marks_cons, Piece.marks, hcomma, List.cons_append, List.nil_append]
      rw [readValues, ih]
      rfl

theorem before_eq {α : Type} {p : MarkReader α} {after : String} {ms rest : List Mark} {a : α}
    (h : p ms = some (a, marks after ++ rest)) : before p after ms = some (a, rest) := by
  simp [before, h, skip?_marks]

end Text

/-- A column stops where no dot comes next. -/
theorem ColumnName.read_marks (c : ColumnName) {rest : List Mark} (h : skip? "." rest = none) :
    read ((Piece.column c.qualifier c.name).marks ++ rest) = some (c, rest) := by
  have hdot : ∀ ms, skip? "." (.char '.' :: ms) = some ms := fun ms => skip?_marks "." ms
  obtain ⟨name, qualifier⟩ := c
  cases qualifier with
  | none => by_cases hname : name = "*" <;> simp [read, Piece.marks, hname, h, plain]
  | some q => by_cases hname : name = "*" <;> simp [read, Piece.marks, hname, hdot]

/-! ## Tails -/

namespace Expr

/-- What may stand behind a column. -/
inductive Tail where
  | label
  /-- A comparison with nothing left to read. -/
  | test (op : Operator) (value : Value)
  | operand (op : Operator)
  | between (negated : Bool)
  | oneOf (negated : Bool)

namespace Tail

/-- The operators in front of a placeholder. -/
def operands : List Operator := [.eq, .ne, .ltGt, .gt, .gte, .lt, .lte, .like, .notLike]

def table : List (String × Tail) :=
  [(" as ", .label), (" IS TRUE", .test .is (.bool true)), (" IS FALSE", .test .is (.bool false)),
    (" IS NULL", .test .isNull .null), (" IS NOT TRUE", .test .isNot (.bool true)),
    (" IS NOT FALSE", .test .isNot (.bool false)), (" IS NOT NULL", .test .isNotNull .null),
    (" BETWEEN ", .between false), (" NOT BETWEEN ", .between true), (" IN (", .oneOf false),
    (" NOT IN (", .oneOf true)] ++
  operands.map fun op => (" " ++ op.keyword ++ " ", .operand op)

/-- The rest of an expression behind its column and the beginning of its tail. -/
def read (c : ColumnName) : Tail → MarkReader Expr
  | .label, .name n :: ms => some (.column c (some n), ms)
  | .test op value, ms => some (.comparison c op value, ms)
  | .operand op, .value v :: ms => some (.comparison c op v, ms)
  | .between negated, .value low :: ms =>
    match skip? " AND " ms with
    | some (.value high :: ms) => some (.between c low high negated, ms)
    | _ => none
  | .oneOf negated, ms =>
    (before (some ∘ readValues) ")" ms).map fun (values, ms) => (.oneOf c values negated, ms)
  | _, _ => none

theorem pairwise_table : table.Pairwise fun d e => clash d.1 e.1 = true := by
  decide

theorem clash_dot : ∀ e ∈ table, clash "." e.1 = true := by
  decide

end Tail

/-! ## Heads -/

/-- What may stand at the beginning of an expression, other than a column. -/
inductive Head where
  | group
  | existence (negated : Bool)
  /-- The call of a function with a column. -/
  | call (make : ColumnName → Option String → Expr)

namespace Head

def table : List (String × Head) :=
  [("( ", .group), ("EXISTS ( ", .existence false), ("NOT EXISTS ( ", .existence true)] ++
    Aggregate.all.map (fun function => (function.keyword ++ "(", .call (.aggregate function))) ++
    DatePart.all.map fun part => (part.keyword ++ "(", .call (.datePart part))

/-- The rest of an expression behind its beginning. -/
def read (filter : MarkReader Filter) (query : MarkReader Select) : Head → MarkReader Expr
  | .group, ms => (before filter " )" ms).map fun (f, ms) => (.group f, ms)
  | .existence negated, ms => (before query " )" ms).map fun (q, ms) => (.existence q negated, ms)
  | .call make, ms =>
    (before ColumnName.read ")" ms).map fun (c, ms) =>
      let (label, ms) := readLabel ms
      (make c label, ms)

theorem pairwise_table : table.Pairwise fun d e => clash d.1 e.1 = true := by
  decide

/-- No head is taken for a wildcard. -/
theorem excludes_star : ∀ e ∈ table, excludes ["*"] e.1 = true := by
  decide

end Head

/-- Reads an expression, with readers for the filter or query in it. -/
def readWith (filter : MarkReader Filter) (query : MarkReader Select) : MarkReader Expr := fun ms =>
  match lookup? Head.table ms with
  | some (h, ms) => h.read filter query ms
  | none => do
    let (c, ms) ← ColumnName.read ms
    match lookup? Tail.table ms with
    | some (t, ms) => t.read c ms
    | none => return (.column c none, ms)

/-- The texts that can stand behind an expression. -/
def stops : List String :=
  [",", " FROM ", " AND ", " OR ", " )", " GROUP BY ", " LIMIT ", " ORDER BY "]

theorem excludes_tails : (Tail.table.all fun e => excludes stops e.1) = true := by
  decide

section
variable (filter : MarkReader Filter) (query : MarkReader Select)

/-- The beginning of an expression decides what it is. -/
theorem readWith_head {e : String × Head} (he : e ∈ Head.table) (ms : List Mark) :
    readWith filter query (marks e.1 ++ ms) = e.2.read filter query ms := by
  rw [readWith, lookup?_marks Head.pairwise_table he]

/-- A column begins with a name or the wildcard. -/
theorem skip?_column {s : String} (h : excludes ["*"] s = true) (c : ColumnName)
    (ms : List Mark) : skip? s ((Piece.column c.qualifier c.name).marks ++ ms) = none := by
  have hstar : Text.marks "*" = [.char '*'] := rfl
  simp only [excludes, Bool.and_eq_true, bne_iff_ne, List.all_cons, List.all_nil,
    Bool.and_true] at h
  obtain ⟨hempty, hclash⟩ := h
  obtain ⟨name, qualifier⟩ := c
  cases qualifier with
  | some q => exact skip?_name hempty q _
  | none =>
    by_cases hname : name = "*"
    · have hread := skip?_clash hclash ms
      simpa [Piece.marks, hname, hstar] using hread
    · simpa [Piece.marks, hname] using skip?_name hempty name ms

theorem lookup?_column (c : ColumnName) (ms : List Mark) :
    lookup? Head.table ((Piece.column c.qualifier c.name).marks ++ ms) = none :=
  lookup?_eq_none fun e he => skip?_column (Head.excludes_star e he) c ms

/-- The beginning of a tail decides what the column is part of. -/
theorem readWith_tail (c : ColumnName) {e : String × Tail} (he : e ∈ Tail.table)
    (ms : List Mark) :
    readWith filter query ((Piece.column c.qualifier c.name).marks ++ (marks e.1 ++ ms)) =
      e.2.read c ms := by
  have hread := c.read_marks (skip?_clash (Tail.clash_dot e he) ms)
  simp only [readWith, lookup?_column, hread, Option.bind_eq_bind, Option.bind_some,
    lookup?_marks Tail.pairwise_table he]

/-- A column ends where the statement goes on. -/
theorem readWith_column (c : ColumnName) {rest : List Mark} (h : Ends stops rest) :
    readWith filter query ((Piece.column c.qualifier c.name).marks ++ rest) =
      some (.column c none, rest) := by
  have hread := c.read_marks (h.skip?_eq_none (s := ".") (by decide))
  simp only [readWith, lookup?_column, hread, Option.bind_eq_bind, Option.bind_some,
    h.lookup?_eq_none Tail.table excludes_tails]
  rfl

/-! ## Expressions without parts -/

section
variable (tableAlias : Option String) (c : ColumnName)

theorem marks_columnLayout :
    Layout.marks (columnLayout tableAlias c) =
      (Piece.column (c.under tableAlias).qualifier (c.under tableAlias).name).marks :=
  List.append_nil _

theorem readWith_labelled {rest : List Mark} (h : Ends stops rest) (label : Option String) :
    readWith filter query (((Expr.column c label).layout tableAlias).marks ++ rest) =
      some ((Expr.column c label).normal tableAlias, rest) := by
  rw [layout, normal, marks_labelled, marks_columnLayout, List.append_assoc]
  cases label with
  | none => exact readWith_column filter query _ h
  | some n =>
    have he : (" as ", .label) ∈ Tail.table := by simp [Tail.table]
    exact readWith_tail filter query (c.under tableAlias) he (.name n :: rest)

/-- A call is a keyword, a column between parentheses and a label. -/
theorem readWith_call {keyword : String} {make : ColumnName → Option String → Expr}
    (he : (keyword ++ "(", .call make) ∈ Head.table) {argument : Layout}
    (hargument : argument.marks = (Piece.column c.qualifier c.name).marks) {rest : List Mark}
    (h : Ends stops rest) (label : Option String) :
    readWith filter query (Layout.marks (Layout.labelled
        (.words keyword :: .words "(" :: (argument ++ [.words ")"])) label) ++ rest) =
      some (make c label, rest) := by
  have hcolumn : before ColumnName.read ")" ((Piece.column c.qualifier c.name).marks ++
      (Text.marks ")" ++ (Layout.marks (Layout.labelled [] label) ++ rest))) =
        some (c, Layout.marks (Layout.labelled [] label) ++ rest) :=
    before_eq (c.read_marks (skip?_clash (by decide) _))
  have hlabel := readLabel_marks label (h.skip?_eq_none (s := " as ") (by decide))
  rw [marks_labelled, List.append_assoc, marks_call, hargument, readWith_head filter query he,
    Head.read, hcolumn, Option.map_some]
  dsimp only
  rw [hlabel]

theorem readWith_aggregate (function : Aggregate) {rest : List Mark} (h : Ends stops rest)
    (label : Option String) :
    readWith filter query (((Expr.aggregate function c label).layout tableAlias).marks ++ rest) =
      some ((Expr.aggregate function c label).normal tableAlias, rest) := by
  have he : (function.keyword ++ "(", .call (.aggregate function)) ∈ Head.table := by
    cases function <;> simp [Head.table, Aggregate.all, Aggregate.keyword]
  rw [layout, normal, aggregateLayout]
  refine readWith_call filter query _ he ?_ h label
  cases c.isWildcard with
  | true => rfl
  | false => exact marks_columnLayout tableAlias c

theorem readWith_datePart (part : DatePart) {rest : List Mark} (h : Ends stops rest)
    (label : Option String) :
    readWith filter query (((Expr.datePart part c label).layout tableAlias).marks ++ rest) =
      some ((Expr.datePart part c label).normal tableAlias, rest) := by
  have he : (part.keyword ++ "(", .call (.datePart part)) ∈ Head.table := by
    cases part <;> simp [Head.table, DatePart.all, DatePart.keyword]
  rw [layout, normal, datePartLayout]
  exact readWith_call filter query _ he (marks_columnLayout tableAlias c) h label

theorem marks_negation (negated : Bool) (s : String) (ms : List Mark) :
    Text.marks " " ++ (Layout.marks (negationLayout negated) ++ (Text.marks s ++ ms)) =
      Text.marks (" " ++ negation negated ++ s) ++ ms := by
  have hnegation : Layout.marks (negationLayout negated) = Text.marks (negation negated) := by
    cases negated <;> rfl
  rw [hnegation, marks_append_text, marks_append_text, List.append_assoc, List.append_assoc]

theorem before_values (values : List Value) (rest : List Mark) :
    before (some ∘ readValues) ")" (Layout.marks
      (List.intercalate [.words ","] (values.map fun v => [.value v])) ++
        (Text.marks ")" ++ rest)) = some (values.map Value.binding, rest) :=
  before_eq (congrArg some (readValues_marks values rest))

theorem readWith_oneOf (values : List Value) (negated : Bool) (rest : List Mark) :
    readWith filter query (((Expr.oneOf c values negated).layout tableAlias).marks ++ rest) =
      some ((Expr.oneOf c values negated).normal tableAlias, rest) := by
  have he : (" " ++ negation negated ++ "IN (", .oneOf negated) ∈ Tail.table := by
    cases negated <;> simp [Tail.table, negation]
  rw [layout, normal, oneOfLayout]
  simp only [Layout.marks_append, Layout.marks_cons, Layout.marks_nil, marks_columnLayout,
    List.append_assoc, List.nil_append]
  simp only [Piece.marks.eq_1]
  rw [marks_negation, readWith_tail filter query _ he, Tail.read, before_values]
  rfl

theorem readWith_between (low high : Value) (negated : Bool) (rest : List Mark) :
    readWith filter query (((Expr.between c low high negated).layout tableAlias).marks ++ rest) =
      some ((Expr.between c low high negated).normal tableAlias, rest) := by
  have he : (" " ++ negation negated ++ "BETWEEN ", .between negated) ∈ Tail.table := by
    cases negated <;> simp [Tail.table, negation]
  rw [layout, normal, betweenLayout]
  simp only [Layout.marks_append, Layout.marks_cons, Layout.marks_nil, marks_columnLayout,
    List.append_assoc, List.nil_append]
  simp only [Piece.marks.eq_1, Piece.marks.eq_6]
  rw [marks_negation, readWith_tail filter query _ he, List.singleton_append, Tail.read,
    skip?_marks]
  rfl

theorem readWith_operand {op : Operator} (hop : op ∈ Tail.operands) (v : Value)
    (rest : List Mark) :
    readWith filter query (((Expr.comparison c op v).layout tableAlias).marks ++ rest) =
      some ((Expr.comparison c op v).normal tableAlias, rest) := by
  have he : (" " ++ op.keyword ++ " ", .operand op) ∈ Tail.table :=
    List.mem_append_right _ (List.mem_map_of_mem hop)
  have hread := readWith_tail filter query (c.under tableAlias) he
    (.value v.binding :: rest)
  have hboth : operandLayout op v = [.words " ", .value v] ∧ op.normal v = (op, v.binding) := by
    cases op <;> first | exact ⟨rfl, rfl⟩ | simp [Tail.operands] at hop
  rw [marks_append_text, marks_append_text, Tail.read] at hread
  rw [layout, normal, comparisonLayout, hboth.1, hboth.2, ← hread]
  simp [marks_columnLayout, Piece.marks.eq_1, Piece.marks.eq_6]

theorem readWith_test {op op' : Operator} {v v' : Value} (text : String)
    (he : (text, .test op' v') ∈ Tail.table) (hnormal : op.normal v = (op', v'))
    (htext : Layout.marks (.words " " :: .words op.keyword :: operandLayout op v) =
      Text.marks text) (rest : List Mark) :
    readWith filter query (((Expr.comparison c op v).layout tableAlias).marks ++ rest) =
      some ((Expr.comparison c op v).normal tableAlias, rest) := by
  rw [layout, normal, comparisonLayout, hnormal, Layout.marks_append, marks_columnLayout, htext,
    List.append_assoc]
  exact readWith_tail filter query (c.under tableAlias) he rest

/-- Beside `IS` and `IS NOT` there is a keyword; what else is read without a value is a test for
null. -/
theorem readWith_comparison {op : Operator} {v : Value}
    (h : (Expr.comparison c op v).isReadable = true) (rest : List Mark) :
    readWith filter query (((Expr.comparison c op v).layout tableAlias).marks ++ rest) =
      some ((Expr.comparison c op v).normal tableAlias, rest) := by
  cases op with
  | isNull =>
    refine readWith_test filter query tableAlias c " IS NULL" ?_ rfl rfl rest
    simp [Tail.table]
  | isNotNull =>
    refine readWith_test filter query tableAlias c " IS NOT NULL" ?_ rfl rfl rest
    simp [Tail.table]
  | is =>
    cases v with
    | null =>
      refine readWith_test filter query tableAlias c " IS NULL" ?_ rfl rfl rest
      simp [Tail.table]
    | bool b =>
      cases b with
      | true =>
        refine readWith_test filter query tableAlias c " IS TRUE" ?_ rfl rfl rest
        simp [Tail.table, Value.binding]
      | false =>
        refine readWith_test filter query tableAlias c " IS FALSE" ?_ rfl rfl rest
        simp [Tail.table, Value.binding]
    | _ => simp [isReadable, literal?] at h
  | isNot =>
    cases v with
    | null =>
      refine readWith_test filter query tableAlias c " IS NOT NULL" ?_ rfl rfl rest
      simp [Tail.table]
    | bool b =>
      cases b with
      | true =>
        refine readWith_test filter query tableAlias c " IS NOT TRUE" ?_ rfl rfl rest
        simp [Tail.table, Value.binding]
      | false =>
        refine readWith_test filter query tableAlias c " IS NOT FALSE" ?_ rfl rfl rest
        simp [Tail.table, Value.binding]
    | _ => simp [isReadable, literal?] at h
  | _ => exact readWith_operand filter query tableAlias c (by simp [Tail.operands]) v rest

/-- No expression is taken for the word that makes a query distinct. -/
theorem skip?_distinct {e : Expr} (hreadable : e.isReadable = true) (hhollow : e.isHollow = false)
    (rest : List Mark) : skip? "DISTINCT " ((e.layout tableAlias).marks ++ rest) = none := by
  have hcolumn : ∀ c l, skip? "DISTINCT "
      (Layout.marks (columnLayout tableAlias c ++ l) ++ rest) = none := fun c l => by
    rw [Layout.marks_append, marks_columnLayout, List.append_assoc]
    exact skip?_column (by decide) _ _
  have hwords : ∀ s l, clash "DISTINCT " s = true →
      skip? "DISTINCT " (Layout.marks (.words s :: l) ++ rest) = none := fun s l hs => by
    rw [Layout.marks_cons, List.append_assoc]
    exact skip?_clash hs _
  cases e with
  | raw r | rawColumn r => simp [isReadable] at hreadable
  | column c label =>
    cases label with
    | none => simpa [layout, Layout.labelled] using hcolumn c []
    | some n => exact hcolumn c _
  | comparison c op v => exact hcolumn c _
  | between c low high negated => exact hcolumn c _
  | oneOf c values negated => exact hcolumn c _
  | aggregate function c label =>
    have hclash : clash "DISTINCT " function.keyword = true := by cases function <;> decide
    cases label <;> exact hwords _ _ hclash
  | datePart part c label =>
    have hclash : clash "DISTINCT " part.keyword = true := by cases part <;> decide
    cases label <;> exact hwords _ _ hclash
  | group f =>
    rw [isReadable] at hreadable
    rw [isHollow] at hhollow
    have hne := Filter.layout_ne_nil tableAlias hreadable hhollow
    rw [layout]
    cases hl : f.layout tableAlias with
    | nil => exact absurd hl hne
    | cons p l => exact hwords _ _ (by decide)
  | existence q negated => cases negated <;> exact hwords _ _ (by decide)

end

/-! ## Expressions with parts -/

variable (tableAlias : Option String) {rest : List Mark}

theorem readWith_group {f : Filter} (hf : f.layout tableAlias ≠ [])
    (h : filter ((f.layout tableAlias).marks ++ (Text.marks " )" ++ rest)) =
      some (f.normal tableAlias, Text.marks " )" ++ rest)) :
    readWith filter query (((Expr.group f).layout tableAlias).marks ++ rest) =
      some ((Expr.group f).normal tableAlias, rest) := by
  have he : ("( ", .group) ∈ Head.table := by simp [Head.table]
  have henclosed : enclosed "( " " )" (f.layout tableAlias) =
      .words "( " :: (f.layout tableAlias ++ [.words " )"]) := by
    cases hl : f.layout tableAlias with
    | nil => exact absurd hl hf
    | cons p l => rfl
  rw [layout, normal, henclosed]
  simp only [Layout.marks_cons, Layout.marks_append, Layout.marks_nil, Piece.marks.eq_1,
    List.append_assoc, List.nil_append]
  rw [readWith_head filter query he, Head.read, before_eq h]
  rfl

theorem readWith_existence {q : Select} (negated : Bool)
    (h : query (q.layout.marks ++ (Text.marks " )" ++ rest)) =
      some (q.normal, Text.marks " )" ++ rest)) :
    readWith filter query (((Expr.existence q negated).layout tableAlias).marks ++ rest) =
      some ((Expr.existence q negated).normal tableAlias, rest) := by
  have he : (negation negated ++ "EXISTS ( ", .existence negated) ∈ Head.table := by
    cases negated <;> simp [Head.table, negation]
  have hnegation : Layout.marks (negationLayout negated) = Text.marks (negation negated) := by
    cases negated <;> rfl
  have hread := readWith_head filter query he
    (q.layout.marks ++ (Text.marks " )" ++ rest))
  rw [marks_append_text, Head.read, before_eq h] at hread
  rw [layout, normal]
  simpa [hnegation, Piece.marks.eq_1] using hread

end

end Expr

end BoundSql
