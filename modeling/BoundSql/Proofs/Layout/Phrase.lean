import BoundSql.Proofs.Layout.Query

/-!
# Phrases

In a phrase no two pieces with quotation marks stand side by side, fixed words hold neither a
mark nor a placeholder, and parentheses are closed in the part that opens them. The layout of
every statement is a phrase, with raw SQL among its pieces only if the statement has it. What is
proved of phrases by induction therefore holds of all statements at once.
-/
namespace BoundSql

open Layout

/-- The quotation marks of names and of string literals. -/
def Text.isMark (c : Char) : Bool := c == '\x60' || c == '\x27'

def Text.isParen (c : Char) : Bool := c == '(' || c == ')'

/-- Text without marks and placeholders in which just the given parentheses stand. -/
def Text.isWords (parens : List Char) (s : String) : Bool :=
  s != "" && s.toList.all (fun c => !isMark c && c != '?') && s.toList.filter isParen == parens

/-- A piece that is not made of fixed words; raw SQL must be allowed. -/
def Piece.IsAtom (R : RawSql → Prop) : Piece → Prop
  | .words _ => False
  | .raw r => R r
  | _ => True

/-- Atoms set apart by words, with matching parentheses around phrases. -/
inductive Phrase (R : RawSql → Prop) : Layout → Prop
  | nil : Phrase R []
  | atom {p : Piece} : p.IsAtom R → Phrase R [p]
  | beside {s : String} {k l : Layout} : Text.isWords [] s → Phrase R k → Phrase R l →
      Phrase R (k ++ .words s :: l)
  | around {s t : String} {k l m : Layout} : Text.isWords ['('] s → Text.isWords [')'] t →
      Phrase R k → Phrase R l → Phrase R m → Phrase R (k ++ .words s :: (l ++ .words t :: m))

/-- A phrase that begins with words, or is missing: it may follow any other phrase. -/
inductive Led (R : RawSql → Prop) : Layout → Prop
  | nil : Led R []
  | words {s : String} {l : Layout} : Text.isWords [] s → Phrase R l → Led R (.words s :: l)

variable {R : RawSql → Prop}

namespace Phrase

theorem words_cons {s : String} {l : Layout} (hs : Text.isWords [] s) (hl : Phrase R l) :
    Phrase R (.words s :: l) :=
  beside hs nil hl

theorem parens_cons {s t : String} {l m : Layout} (hs : Text.isWords ['('] s)
    (ht : Text.isWords [')'] t) (hl : Phrase R l) (hm : Phrase R m) :
    Phrase R (.words s :: (l ++ .words t :: m)) :=
  around hs ht nil hl hm

theorem append_led {k l : Layout} (hk : Phrase R k) (hl : Led R l) : Phrase R (k ++ l) := by
  cases hl with
  | nil => simpa using hk
  | words hs hl => exact beside hs hk hl

theorem intercalate {separator : String} {parts : List Layout} (hs : Text.isWords [] separator)
    (h : ∀ l ∈ parts, Phrase R l) : Phrase R (List.intercalate [.words separator] parts) := by
  induction parts with
  | nil => exact nil
  | cons l rest ih =>
    have hrest := ih fun m hm => h m (List.mem_cons_of_mem l hm)
    have hl := h l (List.mem_cons_self ..)
    cases rest with
    | nil => simpa using hl
    | cons m rest =>
      rw [List.intercalate_cons_cons, List.append_assoc]
      exact beside hs hl hrest

theorem joined {separator : String} {parts : List Layout} (hs : Text.isWords [] separator)
    (h : ∀ l ∈ parts, Phrase R l) : Phrase R (joined separator parts) :=
  intercalate hs fun l hl => h l (List.mem_filter.1 hl).1

theorem labelled {l : Layout} (hl : Phrase R l) (label : Option String) :
    Phrase R (labelled l label) := by
  cases label with
  | none => exact hl
  | some label => exact beside rfl hl (atom trivial)

theorem enclosed {s t : String} {l : Layout} (hs : Text.isWords ['('] s)
    (ht : Text.isWords [')'] t) (hl : Phrase R l) : Phrase R (enclosed s t l) := by
  cases l with
  | nil => exact nil
  | cons p l => exact parens_cons hs ht hl nil

/-- What holds of atoms and of words holds of every piece. -/
theorem forall_mem {P : Piece → Prop} {l : Layout} (hl : Phrase R l)
    (atom : ∀ p : Piece, p.IsAtom R → P p)
    (words : ∀ parens s, Text.isWords parens s = true → P (.words s)) : ∀ p ∈ l, P p := by
  induction hl with
  | nil => simp
  | atom hp => simpa using atom _ hp
  | beside hs _ _ ihk ihl =>
    intro p hp
    simp only [List.mem_append, List.mem_cons] at hp
    rcases hp with hp | rfl | hp
    · exact ihk p hp
    · exact words _ _ hs
    · exact ihl p hp
  | around hs ht _ _ _ ihk ihl ihm =>
    intro p hp
    simp only [List.mem_append, List.mem_cons] at hp
    rcases hp with hp | rfl | hp | rfl | hp
    · exact ihk p hp
    · exact words _ _ hs
    · exact ihl p hp
    · exact words _ _ ht
    · exact ihm p hp

end Phrase

namespace Led

theorem headed {s : String} {l : Layout} (hs : Text.isWords [] s) (hl : Phrase R l) :
    Led R (headed s l) := by
  cases l with
  | nil => exact nil
  | cons p l => exact words hs hl

theorem phrase {l : Layout} (hl : Led R l) : Phrase R l := Phrase.nil.append_led hl

theorem append {k l : Layout} (hk : Led R k) (hl : Led R l) : Led R (k ++ l) := by
  cases hk with
  | nil => exact hl
  | words hs hk => exact words hs (hk.append_led hl)

end Led

/-! ## Keywords -/

theorem Connective.isWords_keyword (c : Connective) :
    Text.isWords [] (" " ++ c.keyword ++ " ") := by
  cases c <;> decide

theorem JoinKind.isWords_keyword (k : JoinKind) : Text.isWords [] k.keyword := by
  cases k <;> decide

theorem Aggregate.isWords_keyword (a : Aggregate) : Text.isWords [] a.keyword := by
  cases a <;> decide

theorem DatePart.isWords_keyword (p : DatePart) : Text.isWords [] p.keyword := by
  cases p <;> decide

theorem Operator.isWords_keyword (op : Operator) : Text.isWords [] op.keyword := by
  cases op <;> decide

theorem ReferentialAction.isWords_keyword (a : ReferentialAction) : Text.isWords [] a.keyword := by
  cases a <;> decide

theorem ColumnType.isWords_keyword (t : ColumnType) : Text.isWords [] t.keyword := by
  cases t <;> decide

/-! ## Queries -/

namespace Target

theorem phrase_nameLayout (t : Target) : Phrase R t.nameLayout := by
  unfold nameLayout
  cases t.schema with
  | none => exact .atom trivial
  | some schema => exact .beside (k := [_]) rfl (.atom trivial) (.atom trivial)

theorem phrase_layout (t : Target) : Phrase R t.layout := t.phrase_nameLayout.labelled t.tableAlias

end Target

namespace Join

theorem phrase_layout (j : Join) (h : ∀ r ∈ j.raws, R r) : Phrase R j.layout := by
  cases j with
  | table kind joined tableAlias primaryKey foreignKey =>
    have hname : Phrase R [.name joined] := .atom trivial
    refine .words_cons kind.isWords_keyword (.words_cons rfl ?_)
    refine Phrase.append_led (hname.labelled tableAlias) ?_
    exact .words rfl (.beside (k := [_]) rfl (.atom trivial) (.atom trivial))
  | raw kind r =>
    exact .words_cons kind.isWords_keyword (.words_cons rfl (.atom (h r (by simp [raws]))))

theorem phrase_clauseLayout {joins : List Join} (h : ∀ r ∈ joins.flatMap raws, R r) :
    Phrase R (clauseLayout joins) := by
  refine .joined rfl fun l hl => ?_
  obtain ⟨j, hj, rfl⟩ := List.mem_map.1 hl
  exact j.phrase_layout fun r hr => h r (List.mem_flatMap_of_mem hj hr)

end Join

namespace Grouping

theorem phrase_clauseLayout (tableAlias : Option String) {groups : List Grouping}
    (h : ∀ r ∈ groups.flatMap raws, R r) : Phrase R (clauseLayout tableAlias groups) := by
  refine (Led.headed rfl (.joined rfl fun l hl => ?_)).phrase
  obtain ⟨g, hg, rfl⟩ := List.mem_map.1 hl
  cases g with
  | column c => exact .atom trivial
  | raw r => exact .atom (h r (List.mem_flatMap_of_mem hg (by simp [raws])))

end Grouping

theorem Limits.led_limitLayout (l : Limits) : Led R l.limitLayout := by
  unfold limitLayout
  split
  · exact .words rfl (.atom trivial)
  · exact .nil

theorem Limits.led_layout (l : Limits) : Led R l.layout := by
  unfold layout
  refine Led.append ?_ ?_
  · split
    · exact .words rfl (.atom trivial)
    · split
      · exact .words rfl (.atom trivial)
      · exact .nil
  · split
    · exact .words rfl (.atom trivial)
    · exact .nil

theorem SortKey.led_clauseLayout (k : Option SortKey) : Led R (clauseLayout k) := by
  cases k with
  | none => exact .nil
  | some k =>
    exact .words rfl (.beside (k := [_]) rfl (.atom trivial) (.atom trivial))

namespace Expr

section
variable (tableAlias : Option String) (c : ColumnName)

theorem phrase_aggregateLayout (function : Aggregate) :
    Phrase R (aggregateLayout tableAlias function c) := by
  refine .words_cons function.isWords_keyword (.parens_cons rfl rfl ?_ .nil)
  cases c.isWildcard with
  | true => exact .words_cons rfl .nil
  | false => exact .atom trivial

theorem phrase_datePartLayout (part : DatePart) :
    Phrase R (datePartLayout tableAlias part c) :=
  .words_cons part.isWords_keyword (.parens_cons rfl rfl (.atom trivial) .nil)

theorem isWords_literal {v : Value} {literal : String} (h : literal? v = some literal) :
    Text.isWords [] literal := by
  unfold literal? at h
  split at h <;> cases h <;> decide

theorem phrase_operandLayout (op : Operator) (value : Value) :
    Phrase R (operandLayout op value) := by
  have hvalue : Phrase R [.words " ", .value value] := .words_cons rfl (.atom trivial)
  have hliteral : Phrase R (operandLayout .is value) := by
    rw [operandLayout]
    cases h : literal? value with
    | none => exact .nil
    | some literal => exact .words_cons rfl (.words_cons (isWords_literal h) .nil)
  cases op
  case is | isNot => exact hliteral
  case isNull | isNotNull => exact .nil
  all_goals exact hvalue

theorem phrase_comparisonLayout (op : Operator) (value : Value) :
    Phrase R (comparisonLayout tableAlias c op value) :=
  .beside (k := [_]) rfl (.atom trivial)
    (.words_cons op.isWords_keyword (phrase_operandLayout op value))

theorem led_negationLayout (negated : Bool) : Led R (negationLayout negated) := by
  cases negated with
  | true => exact .words rfl .nil
  | false => exact .nil

theorem phrase_betweenLayout (low high : Value) (negated : Bool) :
    Phrase R (betweenLayout tableAlias c low high negated) := by
  refine .beside (k := [_]) rfl (.atom trivial) ?_
  refine (led_negationLayout negated).phrase.append_led (.words rfl ?_)
  exact .beside (k := [_]) rfl (.atom trivial) (.atom trivial)

theorem phrase_oneOfLayout (values : List Value) (negated : Bool) :
    Phrase R (oneOfLayout tableAlias c values negated) := by
  refine .beside (k := [_]) rfl (.atom trivial) ?_
  refine .around rfl rfl (led_negationLayout negated).phrase ?_ .nil
  refine .intercalate rfl fun l hl => ?_
  obtain ⟨v, -, rfl⟩ := List.mem_map.1 hl
  exact .atom trivial

end
end Expr

theorem Select.Arm.phrase_layout (t : Target) {a : Arm} (hcolumns : Phrase R a.columns)
    (hjoins : ∀ r ∈ a.joins.flatMap Join.raws, R r) (hfilter : Phrase R a.filter)
    (hgroups : ∀ r ∈ a.groups.flatMap Grouping.raws, R r) : Phrase R (a.layout t) := by
  have hlist : Phrase R a.columnList := by
    unfold columnList
    split
    · exact .words_cons rfl .nil
    · exact hcolumns
  have hselect : Text.isWords [] (if a.distinct then "SELECT DISTINCT " else "SELECT ") := by
    cases a.distinct <;> decide
  have hgroup := Grouping.phrase_clauseLayout t.tableAlias hgroups
  refine .words_cons hselect (.beside rfl hlist ?_)
  refine .append_led (.append_led (.append_led (.append_led (.append_led t.phrase_layout ?_) ?_)
    ?_) a.limits.led_layout) (SortKey.led_clauseLayout a.sort)
  · exact .headed rfl (Join.phrase_clauseLayout hjoins)
  · exact .headed rfl hfilter
  · exact .headed rfl hgroup

theorem Recursion.phrase_layout {initial member : Layout} (hi : Phrase R initial)
    (hm : Phrase R member) : Phrase R (layout initial member) := by
  have hboth : Phrase R (initial ++ .words " UNION ALL " :: member) :=
    .beside rfl hi hm
  have h := Phrase.parens_cons (R := R) (s := "WITH RECURSIVE recursive_cte AS ( ")
    (t := " ) SELECT * FROM recursive_cte") rfl rfl hboth .nil
  simpa [layout] using h

theorem Recursion.phrase_memberLayout {columns : List Layout} (h : ∀ l ∈ columns, Phrase R l) :
    Phrase R (memberLayout columns) := by
  unfold memberLayout
  split
  · exact .atom trivial
  · exact .joined rfl h

mutual

theorem Expr.phrase_layout (tableAlias : Option String) : (e : Expr) → (∀ r ∈ e.raws, R r) →
    Phrase R (e.layout tableAlias)
  | .raw r, h | .rawColumn r, h => by
    rw [Expr.layout]
    exact .atom (h r (by simp [Expr.raws]))
  | .column c label, _ => by
    have hc : Phrase R (Expr.columnLayout tableAlias c) := .atom trivial
    rw [Expr.layout]
    exact hc.labelled label
  | .aggregate function c label, _ => by
    rw [Expr.layout]
    exact (Expr.phrase_aggregateLayout tableAlias c function).labelled label
  | .datePart part c label, _ => by
    rw [Expr.layout]
    exact (Expr.phrase_datePartLayout tableAlias c part).labelled label
  | .comparison c op value, _ => by
    rw [Expr.layout]
    exact Expr.phrase_comparisonLayout tableAlias c op value
  | .between c low high negated, _ => by
    rw [Expr.layout]
    exact Expr.phrase_betweenLayout tableAlias c low high negated
  | .oneOf c values negated, _ => by
    rw [Expr.layout]
    exact Expr.phrase_oneOfLayout tableAlias c values negated
  | .group filter, h => by
    rw [Expr.raws] at h
    rw [Expr.layout]
    exact .enclosed rfl rfl (Filter.phrase_layout tableAlias filter h)
  | .existence query negated, h => by
    rw [Expr.raws] at h
    rw [Expr.layout]
    exact .around rfl rfl (Expr.led_negationLayout negated).phrase
      (Select.phrase_layout query h) .nil

theorem Expr.phrase_layouts (tableAlias : Option String) : (es : List Expr) →
    (∀ r ∈ Expr.listRaws es, R r) → ∀ l ∈ Expr.layouts tableAlias es, Phrase R l
  | [], _ => by simp [Expr.layouts]
  | e :: rest, h => by
    rw [Expr.listRaws] at h
    rw [Expr.layouts]
    intro l hl
    rcases List.mem_cons.1 hl with rfl | hl
    · exact Expr.phrase_layout tableAlias e fun r hr => h r (List.mem_append_left _ hr)
    · exact Expr.phrase_layouts tableAlias rest (fun r hr => h r (List.mem_append_right _ hr)) l hl

theorem Filter.phrase_layout (tableAlias : Option String) : (f : Filter) → (∀ r ∈ f.raws, R r) →
    Phrase R (f.layout tableAlias)
  | ⟨terms, connective⟩, h => by
    rw [Filter.raws] at h
    rw [Filter.layout]
    exact .joined connective.isWords_keyword (Expr.phrase_layouts tableAlias terms h)

/-- A query is a phrase; both arms of a recursive one are. -/
theorem Select.phrase_layout : (q : Select) → (∀ r ∈ q.raws, R r) → Phrase R q.layout
  | ⟨table, schema, tableAlias, distinct, columns, filter, joins, groups, sort, limits,
      recursion⟩, h => by
    simp only [Select.raws, List.mem_append, or_imp, forall_and] at h
    obtain ⟨⟨⟨hcolumns, hfilter⟩, hjoins⟩, hgroups⟩ := h
    have hlayouts := fun name => Expr.phrase_layouts name columns hcolumns
    have hwhere := Filter.phrase_layout tableAlias filter hfilter
    rw [Select.layout.eq_def]
    cases recursion with
    | none =>
      exact Select.Arm.phrase_layout _ (.joined rfl (hlayouts tableAlias)) hjoins hwhere
        hgroups
    | some r =>
      refine Recursion.phrase_layout ?_ ?_
      · exact Select.Arm.phrase_layout _ (.joined rfl (hlayouts tableAlias)) (by simp)
          hwhere hgroups
      · exact Select.Arm.phrase_layout _ (Recursion.phrase_memberLayout (hlayouts _))
          (by simp [Recursion.memberArm, Recursion.join, Join.raws]) .nil hgroups

end

/-! ## Changes -/

theorem Filter.led_clauseLayout (tableAlias : Option String) {f : Filter}
    (h : ∀ r ∈ f.raws, R r) : Led R (headed " WHERE " (f.layout tableAlias)) :=
  .headed rfl (f.phrase_layout tableAlias h)

theorem Update.phrase_layout {q : Update} (h : ∀ r ∈ q.filter.raws, R r) :
    Phrase R q.layout := by
  refine .words_cons rfl (.beside rfl (Target.phrase_layout _) ?_)
  refine .append_led (.joined rfl fun l hl => ?_) (Filter.led_clauseLayout _ h)
  obtain ⟨a, -, rfl⟩ := List.mem_map.1 hl
  exact .beside (k := [_]) rfl (.atom trivial) (.atom trivial)

theorem Delete.phrase_layout {q : Delete} (h : ∀ r ∈ q.filter.raws, R r) :
    Phrase R q.layout := by
  unfold layout
  split
  · exact .words_cons rfl (Target.phrase_nameLayout _)
  · exact .words_cons rfl (((Target.phrase_layout _).append_led
      (Filter.led_clauseLayout _ h)).append_led q.limits.led_limitLayout)

namespace Insert

theorem phrase_cell (c : Cell) : Phrase R c.layout := by
  cases c with
  | default => exact .words_cons rfl .nil
  | value v => exact .atom trivial

theorem phrase_names (names : List String) :
    Phrase R (List.intercalate [.words ","] (names.map fun n => [.name n])) := by
  refine .intercalate rfl fun l hl => ?_
  obtain ⟨n, -, rfl⟩ := List.mem_map.1 hl
  exact .atom trivial

theorem phrase_tupleLayout (columns : List String) (r : Row) :
    Phrase R (tupleLayout columns r) := by
  refine .parens_cons rfl rfl (.joined rfl fun l hl => ?_) .nil
  obtain ⟨c, -, rfl⟩ := List.mem_map.1 hl
  exact phrase_cell _

theorem phrase_refreshLayout (first : Row) {item : Refresh} (h : ∀ r ∈ item.raws, R r) :
    Phrase R (refreshLayout first item) := by
  cases item with
  | column c => exact .beside (k := [_]) rfl (.atom trivial) (phrase_cell _)
  | raw r => exact .atom (h r (by simp [Refresh.raws]))

theorem phrase_openingLayout (t : Target) (ignore : Bool) (columns : List String) {rows : Layout}
    (h : Phrase R rows) : Phrase R (openingLayout t ignore columns ++ rows) := by
  have hignore : Phrase R (if ignore then [.words "IGNORE "] else []) := by
    cases ignore with
    | true => exact .words_cons rfl .nil
    | false => exact .nil
  rw [openingLayout]
  simp only [List.cons_append, List.append_assoc, List.nil_append]
  refine .words_cons rfl (.beside rfl hignore ?_)
  exact .around rfl rfl t.phrase_nameLayout (phrase_names columns) h

theorem phrase_layout {q : Insert} (h : ∀ r ∈ (q.onDuplicate.getD []).flatMap Refresh.raws, R r) :
    Phrase R q.layout := by
  refine .append_led (phrase_openingLayout _ _ _ (.joined rfl fun l hl => ?_))
    (.headed rfl (.joined rfl fun l hl => ?_))
  · obtain ⟨r, -, rfl⟩ := List.mem_map.1 hl
    exact phrase_tupleLayout _ r
  · obtain ⟨item, hitem, rfl⟩ := List.mem_map.1 hl
    exact phrase_refreshLayout _ fun r hr => h r (List.mem_flatMap_of_mem hitem hr)

end Insert

end BoundSql
