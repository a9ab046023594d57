import BoundSql.Proofs.Predicate.Formula

/-!
# Predicates without parts of their own

Every expression that is no group is read as one predicate: it is words around a column, or a
call or a subquery whose parentheses belong to it, or a `BETWEEN` with its `AND`.
-/
namespace BoundSql

open Layout Text FilterReader

namespace Text

/-- Tokens that are read as words without a meaning of their own. -/
def IsPlain (ts : List Token) : Prop := ∀ t ∈ lexemes [] ts, t.role = .other

theorem isPlain_space {s t : List Token} (hs : IsPlain s) (ht : IsPlain t) :
    IsPlain (s ++ .char ' ' :: t) := by
  intro w h
  rw [lexemes_space, List.mem_append] at h
  exact h.elim (hs w) (ht w)

instance (ts : List Token) : Decidable (IsPlain ts) :=
  inferInstanceAs (Decidable (∀ t ∈ lexemes [] ts, t.role = .other))

theorem isPlain_identifier (name : String) : IsPlain [.identifier name] := by
  intro t h
  obtain rfl := List.mem_singleton.1 h
  rfl

/-- A label behind its keyword. -/
def labelTokens : Option String → List Token
  | some label => .char ' ' :: [.char 'a', .char 's', .char ' ', .identifier label]
  | none => []

theorem isPlain_as (label : String) :
    IsPlain [.char 'a', .char 's', .char ' ', .identifier label] :=
  isPlain_space (s := [_, _]) (by decide) (isPlain_identifier label)

theorem isPlain_label (label : Option String) : IsPlain (labelTokens label) := by
  cases label with
  | none => decide
  | some label => exact isPlain_space (s := []) (by decide) (isPlain_as label)

end Text

theorem Layout.tokens_labelled (l : Layout) (label : Option String) :
    (labelled l label).tokens = l.tokens ++ labelTokens label := by
  cases label with
  | none => simp [labelled, labelTokens]
  | some label =>
    rw [labelled, tokens_append]
    rfl

namespace FilterReader

/-- A call, or anything else whose parentheses stand behind a word. -/
theorem isPredicate_call {before inside behind : List Token} (hne : lexemes [] before ≠ [])
    (hbefore : IsPlain before) (hinside : depth? 0 (inside.filterMap Token.paren?) = some 0)
    (hbehind : IsPlain behind) :
    IsPredicate (lexemes [] (before ++ .char '(' :: (inside ++ .char ')' :: behind))) := by
  rw [lexemes_opening, lexemes_closing]
  rw [← parens_lexemes []] at hinside
  exact isPredicate_around hne hbefore hinside hbehind

end FilterReader

namespace Expr

variable (tableAlias : Option String) (c : ColumnName)

theorem lexemes_column :
    lexemes [] (columnLayout tableAlias c).tokens =
      ((c.qualifier.or tableAlias).elim [] fun q => [.identifier q, .symbol '.']) ++
        [if c.name = "*" then .symbol '*' else .identifier c.name] := by
  rw [columnLayout, Layout.tokens, List.flatMap_cons, List.flatMap_nil, List.append_nil,
    Piece.tokens]
  cases c.qualifier.or tableAlias <;> by_cases h : c.name = "*" <;> simp [h] <;> rfl

theorem isPlain_column : IsPlain (columnLayout tableAlias c).tokens := by
  intro t h
  rw [lexemes_column, List.mem_append, List.mem_singleton] at h
  rcases h with h | rfl
  · cases hq : c.qualifier.or tableAlias with
    | none => simp [hq] at h
    | some q =>
      simp only [hq, Option.elim_some, List.mem_cons, List.not_mem_nil, or_false] at h
      rcases h with rfl | rfl
      · rfl
      · decide
  · split
    · decide
    · rfl

theorem lexemes_column_ne_nil (rest : List Token) :
    lexemes [] ((columnLayout tableAlias c).tokens ++ .char ' ' :: rest) ≠ [] := by
  rw [lexemes_space, lexemes_column]
  simp

theorem isPlain_operand (op : Operator) (value : Value) :
    IsPlain (op.keyword.toList.map .char ++ (operandLayout op value).tokens) := by
  have hop : ∀ op : Operator, IsPlain (op.keyword.toList.map .char) := by
    intro op
    cases op <;> decide
  have hliteral : ∀ literal, literal? value = some literal →
      IsPlain (literal.toList.map .char) := by
    intro literal h
    unfold literal? at h
    split at h <;> cases h <;> decide
  have hvalue : ∀ op : Operator,
      IsPlain (op.keyword.toList.map .char ++ .char ' ' :: [.placeholder]) := fun op =>
    isPlain_space (hop op) (by decide)
  have hnothing : ∀ op : Operator, IsPlain (op.keyword.toList.map .char ++ []) := by
    intro op
    rw [List.append_nil]
    exact hop op
  have htruth : ∀ op : Operator,
      IsPlain (op.keyword.toList.map .char ++ (operandLayout .is value).tokens) := by
    intro op
    rw [operandLayout]
    cases h : literal? value with
    | none => exact hnothing op
    | some literal =>
      have hspace := isPlain_space (hop op) (hliteral literal h)
      rwa [← List.append_nil (literal.toList.map Token.char)] at hspace
  cases op
  case is | isNot => exact htruth _
  case isNull | isNotNull => exact hnothing _
  all_goals exact hvalue _

theorem isPredicate_comparison (op : Operator) (value : Value) :
    IsPredicate (lexemes [] (comparisonLayout tableAlias c op value).tokens) := by
  have htokens : (comparisonLayout tableAlias c op value).tokens =
      (columnLayout tableAlias c).tokens ++ .char ' ' ::
        (op.keyword.toList.map .char ++ (operandLayout op value).tokens) := by
    rw [comparisonLayout, tokens_append]
    rfl
  rw [htokens]
  exact isPredicate_of_other (lexemes_column_ne_nil tableAlias c _)
    (isPlain_space (isPlain_column tableAlias c) (isPlain_operand op value))

theorem isPredicate_column (label : Option String) :
    IsPredicate (lexemes [] (Layout.labelled (columnLayout tableAlias c) label).tokens) := by
  rw [tokens_labelled]
  cases label with
  | none =>
    rw [labelTokens, List.append_nil]
    refine isPredicate_of_other ?_ (isPlain_column tableAlias c)
    rw [lexemes_column]
    simp
  | some label =>
    exact isPredicate_of_other (lexemes_column_ne_nil tableAlias c _)
      (isPlain_space (isPlain_column tableAlias c) (isPlain_as label))

theorem isPredicate_aggregate (function : Aggregate) (label : Option String) :
    IsPredicate
      (lexemes [] (Layout.labelled (aggregateLayout tableAlias function c) label).tokens) := by
  let argument : Layout := if c.isWildcard then [.words "*"] else columnLayout tableAlias c
  have hargument : Phrase (fun _ => False) argument := by
    unfold argument
    split
    · exact .words_cons (by decide) .nil
    · exact .atom trivial
  have htokens : (Layout.labelled (aggregateLayout tableAlias function c) label).tokens =
      function.keyword.toList.map .char ++ .char '(' ::
        (argument.tokens ++ .char ')' :: labelTokens label) := by
    rw [tokens_labelled, aggregateLayout, tokens_cons, tokens_cons, tokens_append]
    simp [Layout.tokens, Piece.tokens, argument]
  have hkeyword : lexemes [] (function.keyword.toList.map .char) ≠ [] ∧
      IsPlain (function.keyword.toList.map .char) := by
    cases function <;> decide
  rw [htokens]
  exact isPredicate_call hkeyword.1 hkeyword.2 (hargument.depth?_parens 0) (isPlain_label label)

theorem isPredicate_datePart (part : DatePart) (label : Option String) :
    IsPredicate
      (lexemes [] (Layout.labelled (datePartLayout tableAlias part c) label).tokens) := by
  have hargument : Phrase (fun _ => False) (columnLayout tableAlias c) := .atom trivial
  have htokens : (Layout.labelled (datePartLayout tableAlias part c) label).tokens =
      part.keyword.toList.map .char ++ .char '(' ::
        ((columnLayout tableAlias c).tokens ++ .char ')' :: labelTokens label) := by
    rw [tokens_labelled, datePartLayout, tokens_cons, tokens_cons, tokens_append]
    simp [Layout.tokens, Piece.tokens]
  have hkeyword : lexemes [] (part.keyword.toList.map .char) ≠ [] ∧
      IsPlain (part.keyword.toList.map .char) := by
    cases part <;> decide
  rw [htokens]
  exact isPredicate_call hkeyword.1 hkeyword.2 (hargument.depth?_parens 0) (isPlain_label label)

theorem isPredicate_oneOf (values : List Value) (negated : Bool) :
    IsPredicate (lexemes [] (oneOfLayout tableAlias c values negated).tokens) := by
  let members : Layout := List.intercalate [.words ","] (values.map fun v => [.value v])
  have hmembers : Phrase (fun _ => False) members := by
    refine .intercalate (by decide) fun l hl => ?_
    obtain ⟨v, -, rfl⟩ := List.mem_map.1 hl
    exact .atom trivial
  have htokens : (oneOfLayout tableAlias c values negated).tokens =
      ((columnLayout tableAlias c).tokens ++ .char ' ' ::
        ((negationLayout negated).tokens ++ [.char 'I', .char 'N', .char ' '])) ++ .char '(' ::
          (members.tokens ++ [.char ')']) := by
    rw [oneOfLayout, tokens_append, tokens_cons, tokens_append, tokens_cons, tokens_append]
    simp [Layout.tokens, Piece.tokens, members]
  have hin : IsPlain ((negationLayout negated).tokens ++ [.char 'I', .char 'N', .char ' ']) := by
    cases negated <;> decide
  rw [htokens]
  exact isPredicate_call (lexemes_column_ne_nil tableAlias c _)
    (isPlain_space (isPlain_column tableAlias c) hin) (hmembers.depth?_parens 0) (by decide)

theorem isPredicate_between (low high : Value) (negated : Bool) :
    IsPredicate (lexemes [] (betweenLayout tableAlias c low high negated).tokens) := by
  have htokens : (betweenLayout tableAlias c low high negated).tokens =
      (columnLayout tableAlias c).tokens ++ .char ' ' :: ((negationLayout negated).tokens ++
        Layout.tokens [.words "BETWEEN ", .value low, .words " AND ", .value high]) := by
    rw [betweenLayout, tokens_append, tokens_cons, tokens_append]
    rfl
  have hlexemes : lexemes [] ((negationLayout negated).tokens ++
      Layout.tokens [.words "BETWEEN ", .value low, .words " AND ", .value high]) =
        lexemes [] (negationLayout negated).tokens ++ .word "BETWEEN" ::
          ([.placeholder] ++ .word "AND" :: [.placeholder]) := by
    cases negated <;> rfl
  have hnot : IsPlain (negationLayout negated).tokens := by
    cases negated <;> decide
  rw [htokens, lexemes_space, hlexemes, ← List.append_assoc]
  refine FilterReader.isPredicate_between ?_ (by decide) (by decide)
  intro t h
  exact (List.mem_append.1 h).elim (isPlain_column tableAlias c t) (hnot t)

end Expr

/-- A subquery belongs to its `EXISTS` as a whole. -/
theorem Select.isPredicate_existence {q : Select} (hraws : q.raws = []) (negated : Bool) :
    IsPredicate (lexemes [] (Layout.tokens
      (Expr.negationLayout negated ++ .words "EXISTS ( " :: (q.layout ++ [.words " )"])))) := by
  have hphrase : Phrase (fun _ => False) q.layout := q.phrase_layout (by simp [hraws])
  let inside : Layout := .words " " :: (q.layout ++ [.words " "])
  have hinside : Phrase (fun _ => False) inside :=
    .words_cons (by decide) (.beside (by decide) hphrase .nil)
  have htokens : Layout.tokens
      (Expr.negationLayout negated ++ .words "EXISTS ( " :: (q.layout ++ [.words " )"])) =
        ((Expr.negationLayout negated).tokens ++ (Piece.words "EXISTS ").tokens) ++ .char '(' ::
          (inside.tokens ++ [.char ')']) := by
    rw [tokens_append, tokens_cons, tokens_append]
    simp [Layout.tokens, Piece.tokens, inside]
  have hexists : lexemes []
      ((Expr.negationLayout negated).tokens ++ (Piece.words "EXISTS ").tokens) ≠ [] ∧
        IsPlain ((Expr.negationLayout negated).tokens ++ (Piece.words "EXISTS ").tokens) := by
    cases negated <;> decide
  rw [htokens]
  exact isPredicate_call hexists.1 hexists.2 (hinside.depth?_parens 0) (by decide)

/-- An expression that is neither raw SQL nor a group is read as one predicate. -/
theorem Expr.isPredicate_layout (tableAlias : Option String) {e : Expr} (hraws : e.raws = [])
    (hgroup : ∀ f, e ≠ .group f) : IsPredicate (lexemes [] (e.layout tableAlias).tokens) := by
  cases e with
  | raw r => simp [Expr.raws] at hraws
  | rawColumn r => simp [Expr.raws] at hraws
  | group f => exact absurd rfl (hgroup f)
  | column c label =>
    rw [Expr.layout]
    exact isPredicate_column tableAlias c label
  | aggregate function c label =>
    rw [Expr.layout]
    exact isPredicate_aggregate tableAlias c function label
  | datePart part c label =>
    rw [Expr.layout]
    exact isPredicate_datePart tableAlias c part label
  | comparison c op value =>
    rw [Expr.layout]
    exact isPredicate_comparison tableAlias c op value
  | between c low high negated =>
    rw [Expr.layout]
    exact isPredicate_between tableAlias c low high negated
  | oneOf c values negated =>
    rw [Expr.layout]
    exact isPredicate_oneOf tableAlias c values negated
  | existence q negated =>
    rw [Expr.raws] at hraws
    rw [Expr.layout]
    exact Select.isPredicate_existence hraws negated

end BoundSql
