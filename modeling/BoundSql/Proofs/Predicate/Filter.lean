import BoundSql.Proofs.Predicate.Leaf
import Mathlib.Data.List.Forall2

/-!
# Filters as formulas

A filter's text is read as the formula of its tree. Groups that show nothing are left out of both
at every level, a group that shows stands between parentheses, and within one level only one
connective occurs. So the text holds under the same truth values of its predicates as the tree.
-/
namespace BoundSql

open Layout Text FilterReader

/-! ## The formula of a tree -/

namespace Connective

/-- All of the values, or any of them. -/
def holds : Connective → List Bool → Bool
  | .and, values => values.all id
  | .or, values => values.any id

end Connective

namespace Formula

/-- Formulas under one connective, joined from the left; none if there are none. -/
def joined? {α : Type} (c : Connective) : List (Formula α) → Option (Formula α)
  | [] => none
  | φ :: rest => some (rest.foldl (join c) φ)

end Formula

mutual

/-- The predicates of an expression that are no groups, from left to right. -/
def Expr.leaves : Expr → List Expr
  | .group f => f.leaves
  | e => [e]

def Expr.listLeaves : List Expr → List Expr
  | [] => []
  | e :: rest => e.leaves ++ Expr.listLeaves rest

def Filter.leaves : Filter → List Expr
  | ⟨terms, _⟩ => Expr.listLeaves terms

end

mutual

/-- The truth value of an expression under an assignment to predicates; a group without any
member has none. -/
def Expr.value? (ρ : Expr → Bool) : Expr → Option Bool
  | .group f => f.value? ρ
  | e => some (ρ e)

/-- The truth values of the members that have one. -/
def Expr.values (ρ : Expr → Bool) : List Expr → List Bool
  | [] => []
  | e :: rest => (e.value? ρ).toList ++ Expr.values ρ rest

/-- A filter is the conjunction or disjunction of its members. -/
def Filter.value? (ρ : Expr → Bool) : Filter → Option Bool
  | ⟨terms, connective⟩ =>
    if Expr.values ρ terms = [] then none else some (connective.holds (Expr.values ρ terms))

end

mutual

/-- The formula of an expression; a group without any member has none. -/
def Expr.formula? : Expr → Option (Formula Expr)
  | .group f => f.formula?
  | e => some (.atom e)

def Expr.formulas : List Expr → List (Formula Expr)
  | [] => []
  | e :: rest => e.formula?.toList ++ Expr.formulas rest

def Filter.formula? : Filter → Option (Formula Expr)
  | ⟨terms, connective⟩ => Formula.joined? connective (Expr.formulas terms)

end

/-- The lexemes of an expression's own SQL. -/
def Expr.lexemes (tableAlias : Option String) (e : Expr) : List Lexeme :=
  match e.sql ⟨.mysql, tableAlias⟩ with
  | .ok f => ((tokens? f.text.toList).map (Text.lexemes [])).getD []
  | .error _ => []

namespace Formula

variable {α : Type} (c : Connective)

theorem atoms_foldl (φ : Formula α) (rest : List (Formula α)) :
    (rest.foldl (join c) φ).atoms = φ.atoms ++ rest.flatMap atoms := by
  induction rest generalizing φ with
  | nil => simp
  | cons ψ rest ih =>
    have hjoin : (join c φ ψ).atoms = φ.atoms ++ ψ.atoms := by cases c <;> rfl
    rw [List.foldl_cons, ih, hjoin, List.append_assoc, List.flatMap_cons]

theorem eval_foldl (ρ : α → Bool) (φ : Formula α) (rest : List (Formula α)) :
    (rest.foldl (join c) φ).eval ρ = c.holds (φ.eval ρ :: rest.map (eval ρ)) := by
  induction rest generalizing φ with
  | nil => cases c <;> simp [Connective.holds]
  | cons ψ rest ih =>
    rw [List.foldl_cons, ih]
    cases c <;> simp [Connective.holds, join, eval, Bool.and_assoc, Bool.or_assoc]

theorem map_foldl {β : Type} (f : α → β) (φ : Formula α) (rest : List (Formula α)) :
    (rest.foldl (join c) φ).map f = (rest.map (map f)).foldl (join c) (φ.map f) := by
  induction rest generalizing φ with
  | nil => rfl
  | cons ψ rest ih =>
    have hjoin : (join c φ ψ).map f = join c (φ.map f) (ψ.map f) := by cases c <;> rfl
    rw [List.foldl_cons, ih, hjoin]
    rfl

end Formula

mutual

theorem Expr.atoms_formula? : (e : Expr) → e.formula?.elim [] Formula.atoms = e.leaves
  | .group f => by
    rw [Expr.formula?, Expr.leaves]
    exact Filter.atoms_formula? f
  | .raw _ | .column .. | .aggregate .. | .rawColumn _ | .datePart .. | .comparison ..
  | .between .. | .oneOf .. | .existence .. => by
    simp [Expr.formula?, Expr.leaves, Formula.atoms]

theorem Expr.atoms_formulas : (es : List Expr) →
    (Expr.formulas es).flatMap Formula.atoms = Expr.listLeaves es
  | [] => by
    rw [Expr.formulas, Expr.listLeaves]
    rfl
  | e :: rest => by
    have he := Expr.atoms_formula? e
    rw [Expr.formulas, Expr.listLeaves, List.flatMap_append, Expr.atoms_formulas rest, ← he]
    cases e.formula? <;> simp

theorem Filter.atoms_formula? : (f : Filter) → f.formula?.elim [] Formula.atoms = f.leaves
  | ⟨terms, connective⟩ => by
    rw [Filter.formula?, Filter.leaves, ← Expr.atoms_formulas terms]
    cases Expr.formulas terms with
    | nil => rfl
    | cons φ rest =>
      rw [Formula.joined?, Option.elim_some, Formula.atoms_foldl, List.flatMap_cons]

end

mutual

theorem Expr.eval_formula? (ρ : Expr → Bool) : (e : Expr) →
    e.formula?.map (Formula.eval ρ) = e.value? ρ
  | .group f => by
    rw [Expr.formula?, Expr.value?]
    exact Filter.eval_formula? ρ f
  | .raw _ | .column .. | .aggregate .. | .rawColumn _ | .datePart .. | .comparison ..
  | .between .. | .oneOf .. | .existence .. => by
    simp [Expr.formula?, Expr.value?, Formula.eval]

theorem Expr.eval_formulas (ρ : Expr → Bool) : (es : List Expr) →
    (Expr.formulas es).map (Formula.eval ρ) = Expr.values ρ es
  | [] => by
    rw [Expr.formulas, Expr.values]
    rfl
  | e :: rest => by
    have he := Expr.eval_formula? ρ e
    rw [Expr.formulas, Expr.values, List.map_append, Expr.eval_formulas ρ rest, ← he]
    cases e.formula? <;> simp

theorem Filter.eval_formula? (ρ : Expr → Bool) : (f : Filter) →
    f.formula?.map (Formula.eval ρ) = f.value? ρ
  | ⟨terms, connective⟩ => by
    rw [Filter.formula?, Filter.value?, ← Expr.eval_formulas ρ terms]
    cases Expr.formulas terms with
    | nil => rfl
    | cons φ rest =>
      rw [Formula.joined?, Option.map_some, Formula.eval_foldl]
      rfl

end

/-! ## Reading a level -/

namespace FilterReader

/-- The word of a connective. -/
theorem step_connective {p : ReadPhase} {φ : ReadFormula} (hp : p.formula? = some φ)
    (level : ReadLevel) (outer : List ReadLevel) (c : Connective) :
    step ⟨p, level, outer⟩ (.word c.keyword) = some ⟨.start, level.next φ c, outer⟩ := by
  have hrole : (Lexeme.word c.keyword).role = .connective c := by cases c <;> decide
  have hnext : next? ⟨p, level, outer⟩ c = some ⟨.start, level.next φ c, outer⟩ := by
    rw [next?, hp, Option.map_some]
  unfold step
  rw [hrole, ← hnext]
  cases p with
  | group ψ => rfl
  | predicate read depth waits =>
    cases read with
    | nil => cases hp
    | cons t read =>
      cases depth with
      | succ depth => cases hp
      | zero =>
        cases waits with
        | true => cases hp
        | false => cases c <;> rfl

theorem step_closing {p : ReadPhase} {φ : ReadFormula} (hp : p.formula? = some φ)
    (inner level : ReadLevel) (outer : List ReadLevel) :
    step ⟨p, inner, level :: outer⟩ (.symbol ')') =
      some ⟨.group (inner.close φ), level, outer⟩ := by
  have hclose : close? ⟨p, inner, level :: outer⟩ =
      some ⟨.group (inner.close φ), level, outer⟩ := by
    rw [close?, hp]
    rfl
  rw [← hclose]
  cases p with
  | group ψ => rfl
  | predicate read depth waits =>
    cases read with
    | nil => cases hp
    | cons t read =>
      cases depth with
      | succ depth => cases hp
      | zero =>
        cases waits with
        | true => cases hp
        | false => rfl

end FilterReader

/-- Formulas that one connective has joined so far. -/
def ReadLevel.of (c : Connective) (before : Option ReadFormula) : ReadLevel :=
  match c with
  | .and => ⟨none, before⟩
  | .or => ⟨before, none⟩

namespace ReadLevel

theorem of_none (c : Connective) : of c none = start := by cases c <;> rfl

theorem next_of (c : Connective) (before : Option ReadFormula) (φ : ReadFormula) :
    (of c before).next φ c = of c (some (.behind c before φ)) := by
  cases c <;> rfl

theorem close_of (c : Connective) (before : Option ReadFormula) (φ : ReadFormula) :
    (of c before).close φ = .behind c before φ := by
  cases c <;> rfl

end ReadLevel

/-- A layout that shows and is read as a formula, whatever stands around it. -/
structure Layout.Reads (l : Layout) (φ : ReadFormula) : Prop where
  visible : l.isVisible = true
  read : ∃ p : ReadPhase, p.formula? = some φ ∧ ∀ level outer,
    FilterReader.run ⟨.start, level, outer⟩ (lexemes [] l.tokens) = some ⟨p, level, outer⟩

/-- Layouts with a connective between them are read as formulas with the same connective. -/
theorem Layout.run_joined (c : Connective) {l : Layout} {φ : ReadFormula} {ls : List Layout}
    {φs : List ReadFormula} (hl : l.Reads φ) (hls : List.Forall₂ Layout.Reads ls φs)
    (before : Option ReadFormula) :
    ∃ (p : ReadPhase) (last : Option ReadFormula),
      p.formula?.map (Formula.behind c last) =
        some (φs.foldl (Formula.join c) (.behind c before φ)) ∧
      ∀ outer, FilterReader.run ⟨.start, .of c before, outer⟩
        (lexemes [] (Layout.tokens
          (List.intercalate [.words (" " ++ c.keyword ++ " ")] (l :: ls)))) =
            some ⟨p, .of c last, outer⟩ := by
  obtain ⟨p, hp, hrun⟩ := hl.read
  induction hls generalizing l φ before p with
  | nil =>
    refine ⟨p, before, ?_, fun outer => ?_⟩
    · rw [hp]
      rfl
    · rw [List.intercalate_singleton]
      exact hrun _ outer
  | @cons m ψ ls φs hm hls ih =>
    obtain ⟨q, hq, hqrun⟩ := hm.read
    obtain ⟨p', last, hlast, hrest⟩ := ih hm (some (.behind c before φ)) q hq hqrun
    refine ⟨p', last, ?_, fun outer => ?_⟩
    · rw [hlast]
      rfl
    · have hkeyword : (Piece.words (" " ++ c.keyword ++ " ")).tokens =
          .char ' ' :: (c.keyword.toList.map .char ++ [.char ' ']) := by
        cases c <;> rfl
      have hword : lexemes [] (c.keyword.toList.map .char) = [.word c.keyword] := by
        cases c <;> decide
      have htokens : Layout.tokens (List.intercalate [.words (" " ++ c.keyword ++ " ")]
          (l :: m :: ls)) = l.tokens ++ .char ' ' :: (c.keyword.toList.map .char ++ .char ' ' ::
            Layout.tokens (List.intercalate [.words (" " ++ c.keyword ++ " ")] (m :: ls))) := by
        rw [List.intercalate_cons_cons, tokens_append, tokens_append, tokens_cons, hkeyword]
        simp [Layout.tokens]
      rw [htokens, lexemes_space, lexemes_space, hword, run_append, hrun, Option.bind_some,
        List.singleton_append, run_cons, step_connective hp, Option.bind_some, ReadLevel.next_of,
        hrest]

/-! ## Reading a filter -/

/-- A group is read behind its opening parenthesis like a whole filter. -/
theorem Layout.reads_enclosed {c : Connective} {l : Layout} {φ : ReadFormula}
    (hne : l.tokens ≠ []) {p : ReadPhase} {last : Option ReadFormula}
    (hp : p.formula?.map (Formula.behind c last) = some φ)
    (hrun : ∀ outer, FilterReader.run ⟨.start, .start, outer⟩ (lexemes [] l.tokens) =
      some ⟨p, .of c last, outer⟩) : (enclosed "( " " )" l).Reads φ := by
  obtain ⟨ψ, hψ, hφ⟩ := Option.map_eq_some_iff.1 hp
  have hshape : enclosed "( " " )" l = .words "( " :: (l ++ [.words " )"]) := by
    cases l with
    | nil => exact absurd rfl hne
    | cons p l => rfl
  have htokens : (enclosed "( " " )" l).tokens =
      [] ++ .char '(' :: (([] ++ .char ' ' :: (l.tokens ++ .char ' ' :: [])) ++
        .char ')' :: []) := by
    rw [hshape, tokens_cons, tokens_append]
    simp [Layout.tokens, Piece.tokens]
  have hnil : lexemes [] [] = [] := rfl
  have hlexemes : lexemes [] (enclosed "( " " )" l).tokens =
      .symbol '(' :: (lexemes [] l.tokens ++ [.symbol ')']) := by
    rw [htokens, lexemes_opening, lexemes_closing, lexemes_space, lexemes_space, hnil]
    simp
  refine ⟨by rw [hshape]; rfl, .group φ, rfl, fun level outer => ?_⟩
  have hopen : FilterReader.step ⟨.start, level, outer⟩ (.symbol '(') =
      some ⟨.start, .start, level :: outer⟩ := rfl
  rw [hlexemes, run_cons, hopen, Option.bind_some, run_append, hrun, Option.bind_some, run_cons,
    step_closing hψ, ReadLevel.close_of, hφ]
  rfl

theorem Expr.lexemes_eq (tableAlias : Option String) {e : Expr} (hraws : e.raws = [])
    (h : e.check = .ok ()) :
    e.lexemes tableAlias = Text.lexemes [] (e.layout tableAlias).tokens := by
  have hphrase : Phrase (fun _ => False) (e.layout tableAlias) :=
    e.phrase_layout tableAlias (by simp [hraws])
  have hchars : tokens? (write .mysql (e.layout tableAlias)).text.toList =
      some (e.layout tableAlias).tokens := hphrase.tokens?_chars_eq
  rw [Expr.lexemes, Expr.sql_eq Dialect.visible_mysql, h]
  simp only [Except.map, hchars]
  rfl

/-- What does not show has no tokens. -/
theorem Layout.tokens_eq_nil {l : Layout} (h : l.isVisible = false) : l.tokens = [] := by
  induction l with
  | nil => rfl
  | cons p l ih =>
    rw [isVisible_cons, Bool.or_eq_false_iff] at h
    rw [tokens_cons, ih h.2, List.append_nil]
    cases p with
    | words s =>
      obtain rfl : s = "" := by simpa [Piece.isVisible] using h.1
      rfl
    | raw r => rfl
    | _ => cases h.1

/-- A leaf is read as itself. -/
theorem Expr.reads_leaf (tableAlias : Option String) {e : Expr} (hraws : e.raws = [])
    (h : e.check = .ok ()) (hgroup : ∀ f, e ≠ .group f) :
    (e.layout tableAlias).Reads (.atom (e.lexemes tableAlias)) := by
  have hpredicate := Expr.isPredicate_layout tableAlias hraws hgroup
  have hvisible : (e.layout tableAlias).isVisible = true := by
    cases hv : (e.layout tableAlias).isVisible with
    | true => rfl
    | false =>
      refine absurd ?_ hpredicate.ne_nil
      rw [tokens_eq_nil hv]
      rfl
  rw [Expr.lexemes_eq tableAlias hraws h]
  exact ⟨hvisible, _, hpredicate.formula?, hpredicate.run⟩

/-- Either there is nothing, or the layout is read from its start as the formula, with the filter's
connective as the only one outside of parentheses. -/
def Layout.IsFilter (c : Connective) (l : Layout) (formula? : Option ReadFormula) : Prop :=
  match formula? with
  | none => l = []
  | some φ => ∃ (p : ReadPhase) (last : Option ReadFormula),
      p.formula?.map (Formula.behind c last) = some φ ∧
      ∀ outer, FilterReader.run ⟨.start, .start, outer⟩ (lexemes [] l.tokens) =
        some ⟨p, .of c last, outer⟩

/-- What is read as a formula has tokens. -/
theorem Layout.IsFilter.tokens_ne_nil {c : Connective} {l : Layout} {φ : ReadFormula}
    (h : l.IsFilter c (some φ)) : l.tokens ≠ [] := by
  intro hl
  obtain ⟨p, last, hp, hrun⟩ := h
  have hread := hrun []
  rw [hl] at hread
  obtain rfl : ReadPhase.start = p := congrArg FilterReader.phase (Option.some.inj hread)
  cases hp

theorem Layout.IsFilter.finish? {c : Connective} {l : Layout} {φ : ReadFormula}
    (h : l.IsFilter c (some φ)) :
    (FilterReader.start.run (lexemes [] l.tokens)).bind FilterReader.finish? = some φ := by
  obtain ⟨p, last, hp, hrun⟩ := h
  have hclose : ∀ ψ, (ReadLevel.of c last).close ψ = .behind c last ψ :=
    ReadLevel.close_of c last
  rw [FilterReader.start, hrun, Option.bind_some, FilterReader.finish?, ← hp]
  exact congrArg (fun f => p.formula?.map f) (funext hclose)

/-- The members of a filter that show, read as their formulas. -/
theorem Layout.isFilter_joined (c : Connective) {parts : List Layout} {φs : List ReadFormula}
    (h : List.Forall₂ Layout.Reads (parts.filter isVisible) φs) :
    (joined (" " ++ c.keyword ++ " ") parts).IsFilter c (Formula.joined? c φs) := by
  unfold joined
  generalize parts.filter isVisible = kept at h
  cases h with
  | nil => rfl
  | cons hl hls =>
    obtain ⟨p, last, hp, hrun⟩ := Layout.run_joined c hl hls none
    refine ⟨p, last, hp, fun outer => ?_⟩
    rw [← ReadLevel.of_none c]
    exact hrun outer

mutual

theorem Expr.reads (tableAlias : Option String) : (e : Expr) → e.raws = [] → e.check = .ok () →
    match e.formula? with
    | none => e.layout tableAlias = []
    | some φ => (e.layout tableAlias).Reads (φ.map (Expr.lexemes tableAlias))
  | .group ⟨terms, connective⟩, hraws, h => by
    rw [Expr.raws] at hraws
    rw [Expr.check] at h
    have hfilter := Filter.isFilter tableAlias ⟨terms, connective⟩ hraws h
    rw [Expr.formula?, Expr.layout]
    cases hφ : Filter.formula? ⟨terms, connective⟩ with
    | none =>
      rw [hφ] at hfilter
      rw [show Filter.layout tableAlias ⟨terms, connective⟩ = [] from hfilter]
      rfl
    | some φ =>
      rw [hφ] at hfilter
      have htokens := Layout.IsFilter.tokens_ne_nil hfilter
      obtain ⟨p, last, hp, hrun⟩ := hfilter
      exact Layout.reads_enclosed htokens hp hrun
  | .raw _, hraws, _ | .rawColumn _, hraws, _ => by simp [Expr.raws] at hraws
  | .column .., hraws, h | .aggregate .., hraws, h | .datePart .., hraws, h
  | .comparison .., hraws, h | .between .., hraws, h | .oneOf .., hraws, h
  | .existence .., hraws, h => by
    rw [Expr.formula?]
    · exact Expr.reads_leaf tableAlias hraws h (by simp)
    · simp

theorem Expr.reads_list (tableAlias : Option String) : (es : List Expr) →
    Expr.listRaws es = [] → Expr.checks es = .ok () →
    List.Forall₂ Layout.Reads ((Expr.layouts tableAlias es).filter isVisible)
      ((Expr.formulas es).map (Formula.map (Expr.lexemes tableAlias)))
  | [], _, _ => by
    rw [Expr.layouts, Expr.formulas]
    exact .nil
  | e :: rest, hraws, h => by
    rw [Expr.listRaws, List.append_eq_nil_iff] at hraws
    rw [Expr.checks] at h
    obtain ⟨⟨⟩, he, hrest⟩ := Except.bind_eq_ok.1 h
    have hread := Expr.reads tableAlias e hraws.1 he
    have ih := Expr.reads_list tableAlias rest hraws.2 hrest
    rw [Expr.layouts, Expr.formulas, List.filter_cons]
    cases hφ : e.formula? with
    | none =>
      rw [hφ] at hread
      rw [show e.layout tableAlias = [] from hread]
      exact ih
    | some φ =>
      rw [hφ] at hread
      rw [if_pos hread.visible]
      exact .cons hread ih

theorem Filter.isFilter (tableAlias : Option String) : (f : Filter) → f.raws = [] →
    f.check = .ok () → (f.layout tableAlias).IsFilter f.connective
      (f.formula?.map (Formula.map (Expr.lexemes tableAlias)))
  | ⟨terms, connective⟩, hraws, h => by
    rw [Filter.raws] at hraws
    rw [Filter.check] at h
    have hjoined := Layout.isFilter_joined connective
      (Expr.reads_list tableAlias terms hraws h)
    have hformula : Formula.joined? connective
        ((Expr.formulas terms).map (Formula.map (Expr.lexemes tableAlias))) =
          (Formula.joined? connective (Expr.formulas terms)).map
            (Formula.map (Expr.lexemes tableAlias)) := by
      cases Expr.formulas terms with
      | nil => rfl
      | cons φ rest =>
        rw [Formula.joined?, Option.map_some, Formula.map_foldl]
        rfl
    rw [Filter.layout, Filter.formula?, ← hformula]
    exact hjoined

end

/-- The text of a filter without raw SQL is empty just if no predicate is in it. Else it is read
completely, its predicates are those of the tree in order, and it holds under the same truth
values as the tree. -/
theorem Filter.formula?_sql {f : Filter} {tableAlias : Option String} {g : Fragment}
    (hraws : f.raws = []) (h : f.sql ⟨.mysql, tableAlias⟩ = .ok g) :
    if g.text = "" then f.leaves = [] else
      ∃ φ : Formula Expr, Text.formula? g.text.toList = some (φ.map (Expr.lexemes tableAlias)) ∧
        φ.atoms = f.leaves ∧ ∀ ρ, f.value? ρ = some (φ.eval ρ) := by
  rw [Filter.sql_eq Dialect.visible_mysql] at h
  cases hcheck : f.check with
  | error e =>
    rw [hcheck] at h
    cases h
  | ok u =>
    rw [hcheck] at h
    obtain rfl : write .mysql (f.layout tableAlias) = g := Except.ok.inj h
    have hphrase : Phrase (fun _ => False) (f.layout tableAlias) :=
      f.phrase_layout tableAlias (by simp [hraws])
    have hchars : tokens? (write .mysql (f.layout tableAlias)).text.toList =
        some (f.layout tableAlias).tokens := hphrase.tokens?_chars_eq
    have hfilter := Filter.isFilter tableAlias f hraws hcheck
    have hatoms := Filter.atoms_formula? f
    have heval := fun ρ => Filter.eval_formula? ρ f
    cases hφ : f.formula? with
    | none =>
      rw [hφ] at hfilter hatoms
      rw [show f.layout tableAlias = [] from hfilter, ← hatoms]
      rfl
    | some φ =>
      rw [hφ] at hfilter hatoms heval
      have htokens := Layout.IsFilter.tokens_ne_nil hfilter
      have htext : (write .mysql (f.layout tableAlias)).text ≠ "" := by
        intro hempty
        rw [hempty] at hchars
        exact htokens (Option.some.inj (hchars.symm.trans tokens?_nil))
      rw [if_neg htext]
      refine ⟨φ, ?_, hatoms, fun ρ => (heval ρ).symm⟩
      rw [Text.formula?, hchars]
      exact Layout.IsFilter.finish? hfilter

/-- Disjunctions inside a conjunction, beside a `BETWEEN`, empty groups and a subquery with a
filter of its own, over names with parentheses and keywords in them. -/
def Filter.nested : Filter :=
  ⟨[.between (.plain "a) OR (b") (.int 1) (.int 2) false,
    .group ⟨[.group .empty, .group ⟨[], .or⟩], .or⟩,
    .group
      ⟨[.oneOf (.plain "\x60(") [.int 3, .null] true,
        .group
          ⟨[.comparison (.plain "AND") .isNot .null, .aggregate .count (.plain "*") none], .and⟩,
        .existence
          { Select.ofTable "b" with
            filter := ⟨[.between (.plain "c") (.int 4) (.int 5) true,
              .group ⟨[.datePart .date (.plain ")") none], .and⟩], .or⟩ }
          true], .or⟩], .and⟩

theorem Filter.formula?_sql_nested :
    Filter.nested.raws = [] ∧ ∃ g, Filter.nested.sql ⟨.mysql, some "t"⟩ = .ok g ∧ g.text ≠ "" ∧
      ∃ φ : Formula Expr,
        Text.formula? g.text.toList = some (φ.map (Expr.lexemes (some "t"))) ∧
        φ.atoms = Filter.nested.leaves ∧ ∀ ρ, Filter.nested.value? ρ = some (φ.eval ρ) := by
  let l := Filter.nested.layout (some "t")
  have hsql : Filter.nested.sql ⟨.mysql, some "t"⟩ = .ok (write .mysql l) := by
    rw [Filter.sql_eq Dialect.visible_mysql]
    rfl
  have htext : (write .mysql l).text ≠ "" := by
    have hempty := isEmpty_write Dialect.visible_mysql l
    have hvisible : l.isVisible = true := rfl
    rw [hvisible] at hempty
    intro h
    rw [Fragment.isEmpty_iff.2 h] at hempty
    cases hempty
  have hread := Filter.formula?_sql (f := Filter.nested) rfl hsql
  rw [if_neg htext] at hread
  exact ⟨rfl, _, hsql, htext, hread⟩

end BoundSql
