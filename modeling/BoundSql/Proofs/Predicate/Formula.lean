import BoundSql.Proofs.Predicate.Lexeme

/-!
# Formulas

A filter's text is read back as a formula over the predicates in it. Parentheses where a
predicate may begin hold a formula; those inside a predicate belong to it, with all that stands
between them. `AND` binds tighter than `OR`, and the first `AND` behind a `BETWEEN` belongs to the
predicate. The reader keeps what is open on a stack, so what it does with a part does not depend
on what stands around the part.
-/
namespace BoundSql

open Text

/-- Atoms under connectives. -/
inductive Formula (α : Type) where
  | atom (a : α)
  | and (φ ψ : Formula α)
  | or (φ ψ : Formula α)

namespace Formula

variable {α β : Type}

def map (f : α → β) : Formula α → Formula β
  | .atom a => .atom (f a)
  | .and φ ψ => .and (φ.map f) (ψ.map f)
  | .or φ ψ => .or (φ.map f) (ψ.map f)

/-- The atoms from left to right. -/
def atoms : Formula α → List α
  | .atom a => [a]
  | .and φ ψ => φ.atoms ++ ψ.atoms
  | .or φ ψ => φ.atoms ++ ψ.atoms

/-- The truth value under an assignment to the atoms. -/
def eval (ρ : α → Bool) : Formula α → Bool
  | .atom a => ρ a
  | .and φ ψ => φ.eval ρ && ψ.eval ρ
  | .or φ ψ => φ.eval ρ || ψ.eval ρ

def join : Connective → Formula α → Formula α → Formula α
  | .and => .and
  | .or => .or

/-- A formula behind those that the same connective has joined so far. -/
def behind (c : Connective) (before : Option (Formula α)) (φ : Formula α) : Formula α :=
  before.elim φ fun ψ => join c ψ φ

end Formula

/-! ## Reading -/

/-- What a lexeme means where a predicate stands. -/
inductive Text.Lexeme.Role where
  | opening
  | closing
  | connective (c : Connective)
  | between
  | other
deriving DecidableEq

namespace Text.Lexeme

def role (t : Lexeme) : Role :=
  if t = .symbol '(' then .opening
  else if t = .symbol ')' then .closing
  else if t = .word "AND" then .connective .and
  else if t = .word "OR" then .connective .or
  else if t = .word "BETWEEN" then .between
  else .other

end Text.Lexeme

/-- A formula over predicates as they stand in the text. -/
abbrev ReadFormula := Formula (List Lexeme)

/-- What is read between two connectives. -/
inductive ReadPhase where
  /-- The lexemes of a predicate, the latest first, the depth inside its own parentheses, and
  whether a `BETWEEN` waits for its `AND`. -/
  | predicate (read : List Lexeme) (depth : Nat) (waits : Bool)
  /-- A formula between parentheses. -/
  | group (φ : ReadFormula)

namespace ReadPhase

def start : ReadPhase := .predicate [] 0 false

/-- The formula that is complete if a connective or a closing parenthesis follows. -/
def formula? : ReadPhase → Option ReadFormula
  | .predicate [] _ _ => none
  | .predicate read 0 false => some (.atom read.reverse)
  | .predicate _ _ _ => none
  | .group φ => some φ

end ReadPhase

/-- What stands before the current predicate: complete disjuncts, and complete conjuncts of the
current disjunct. -/
structure ReadLevel where
  disjuncts : Option ReadFormula
  conjuncts : Option ReadFormula

namespace ReadLevel

def start : ReadLevel := ⟨none, none⟩

/-- The formula of a level that ends with a predicate. -/
def close (l : ReadLevel) (φ : ReadFormula) : ReadFormula :=
  .behind .or l.disjuncts (.behind .and l.conjuncts φ)

/-- The level behind a predicate and a connective. -/
def next (l : ReadLevel) (φ : ReadFormula) : Connective → ReadLevel
  | .and => ⟨l.disjuncts, some (.behind .and l.conjuncts φ)⟩
  | .or => ⟨some (l.close φ), none⟩

end ReadLevel

/-- A reader inside of any number of parentheses. -/
structure FilterReader where
  phase : ReadPhase
  level : ReadLevel
  outer : List ReadLevel

namespace FilterReader

def start : FilterReader := ⟨.start, .start, []⟩

/-- Reads on behind a connective. -/
def next? (r : FilterReader) (c : Connective) : Option FilterReader :=
  r.phase.formula?.map fun φ => ⟨.start, r.level.next φ c, r.outer⟩

/-- Reads on behind a closing parenthesis. -/
def close? (r : FilterReader) : Option FilterReader :=
  match r.outer with
  | [] => none
  | level :: outer => r.phase.formula?.map fun φ => ⟨.group (r.level.close φ), level, outer⟩

/-- One lexeme. Inside the parentheses of a predicate only parentheses count. -/
def step (r : FilterReader) (t : Lexeme) : Option FilterReader :=
  match r.phase, t.role with
  | .predicate read (depth + 1) waits, .opening =>
    some { r with phase := .predicate (t :: read) (depth + 2) waits }
  | .predicate read (depth + 1) waits, .closing =>
    some { r with phase := .predicate (t :: read) depth waits }
  | .predicate read (depth + 1) waits, _ =>
    some { r with phase := .predicate (t :: read) (depth + 1) waits }
  | .predicate [] 0 _, .opening => some ⟨.start, .start, r.level :: r.outer⟩
  | .predicate read 0 waits, .opening => some { r with phase := .predicate (t :: read) 1 waits }
  | .predicate read 0 _, .between => some { r with phase := .predicate (t :: read) 0 true }
  | .predicate read 0 true, .connective .and =>
    some { r with phase := .predicate (t :: read) 0 false }
  | .predicate read 0 waits, .other => some { r with phase := .predicate (t :: read) 0 waits }
  | _, .connective c => r.next? c
  | _, .closing => r.close?
  | .group _, _ => none

/-- Many lexemes. -/
def run (r : FilterReader) (ts : List Lexeme) : Option FilterReader := ts.foldlM step r

/-- The formula of a whole text. -/
def finish? (r : FilterReader) : Option ReadFormula :=
  match r.outer with
  | [] => r.phase.formula?.map r.level.close
  | _ :: _ => none

theorem run_cons (r : FilterReader) (t : Lexeme) (ts : List Lexeme) :
    r.run (t :: ts) = (r.step t).bind fun r => r.run ts := rfl

theorem run_append (r : FilterReader) (ts us : List Lexeme) :
    r.run (ts ++ us) = (r.run ts).bind fun r => r.run us := List.foldlM_append

end FilterReader

/-- The formula that a text is read as. -/
def Text.formula? (cs : List Char) : Option ReadFormula := do
  let ts ← tokens? cs
  let r ← FilterReader.start.run (lexemes [] ts)
  r.finish?

/-! ## Predicates -/

/-- A lexeme is a parenthesis, or it leaves the depth as it is. -/
theorem Text.Lexeme.paren_cases (t : Lexeme) :
    t = .symbol '(' ∨ t = .symbol ')' ∨
      t.paren? = none ∧ t.role ≠ .opening ∧ t.role ≠ .closing := by
  by_cases hopen : t = .symbol '('
  · exact .inl hopen
  by_cases hclose : t = .symbol ')'
  · exact .inr (.inl hclose)
  refine .inr (.inr ⟨?_, ?_, ?_⟩)
  · cases t with
    | symbol c =>
      have hc : isParen c = false := by
        simp only [symbol.injEq] at hopen hclose
        simp [isParen, hopen, hclose]
      simp [paren?, hc]
    | _ => rfl
  all_goals
    simp only [role, hopen, hclose, if_false]
    split
    · decide
    · split
      · decide
      · split <;> decide

namespace FilterReader

section
variable (level : ReadLevel) (outer : List ReadLevel)

/-- Behind an opening parenthesis of a predicate everything up to the closing one belongs to the
predicate. -/
theorem run_inside {ts : List Lexeme} {d d' : Nat} (waits : Bool) (read : List Lexeme)
    (h : depth? d (ts.filterMap Lexeme.paren?) = some d') :
    run ⟨.predicate read (d + 1) waits, level, outer⟩ ts =
      some ⟨.predicate (ts.reverse ++ read) (d' + 1) waits, level, outer⟩ := by
  induction ts generalizing d read with
  | nil =>
    obtain rfl : d = d' := Option.some.inj h
    rfl
  | cons t ts ih =>
    have hrest : ∀ {e : Nat}, depth? e (ts.filterMap Lexeme.paren?) = some d' →
        step ⟨.predicate read (d + 1) waits, level, outer⟩ t =
          some ⟨.predicate (t :: read) (e + 1) waits, level, outer⟩ →
        run ⟨.predicate read (d + 1) waits, level, outer⟩ (t :: ts) =
          some ⟨.predicate ((t :: ts).reverse ++ read) (d' + 1) waits, level, outer⟩ := by
      intro e he hstep
      rw [run_cons, hstep, Option.bind_some, ih _ he]
      simp
    rcases t.paren_cases with rfl | rfl | ⟨hparen, hopen, hclose⟩
    · exact hrest (depth?_opening d _ ▸ h) rfl
    · cases d with
      | zero => cases h
      | succ d => exact hrest h rfl
    · rw [List.filterMap_cons_none hparen] at h
      refine hrest h ?_
      unfold step
      cases hrole : t.role with
      | opening => exact absurd hrole hopen
      | closing => exact absurd hrole hclose
      | _ => rfl

/-- Lexemes without a meaning of their own, outside of parentheses. -/
theorem run_other {ts : List Lexeme} (h : ∀ t ∈ ts, t.role = .other) (waits : Bool)
    (read : List Lexeme) :
    run ⟨.predicate read 0 waits, level, outer⟩ ts =
      some ⟨.predicate (ts.reverse ++ read) 0 waits, level, outer⟩ := by
  induction ts generalizing read with
  | nil => rfl
  | cons t ts ih =>
    have hstep : step ⟨.predicate read 0 waits, level, outer⟩ t =
        some ⟨.predicate (t :: read) 0 waits, level, outer⟩ := by
      rw [step, h t (List.mem_cons_self ..)]
      cases read <;> cases waits <;> rfl
    rw [run_cons, hstep, Option.bind_some, ih fun u hu => h u (List.mem_cons_of_mem t hu)]
    simp

end

/-- Lexemes that are read as one predicate. -/
structure IsPredicate (ts : List Lexeme) : Prop where
  ne_nil : ts ≠ []
  run : ∀ level outer, run ⟨.start, level, outer⟩ ts =
    some ⟨.predicate ts.reverse 0 false, level, outer⟩

theorem IsPredicate.formula? {ts : List Lexeme} (h : IsPredicate ts) :
    (ReadPhase.predicate ts.reverse 0 false).formula? = some (.atom ts) := by
  cases hts : ts.reverse with
  | nil => exact absurd (List.reverse_eq_nil_iff.1 hts) h.ne_nil
  | cons t rest =>
    have hreverse : (t :: rest).reverse = ts := by rw [← hts, List.reverse_reverse]
    rw [ReadPhase.formula?, hreverse]
    simp

theorem isPredicate_of_other {ts : List Lexeme} (hne : ts ≠ []) (h : ∀ t ∈ ts, t.role = .other) :
    IsPredicate ts where
  ne_nil := hne
  run level outer := by
    rw [ReadPhase.start, run_other level outer h, List.append_nil]

/-- Whatever stands between parentheses that are not the first of a predicate is part of it. -/
theorem isPredicate_around {before inside behind : List Lexeme} (hne : before ≠ [])
    (hbefore : ∀ t ∈ before, t.role = .other)
    (hinside : depth? 0 (inside.filterMap Lexeme.paren?) = some 0)
    (hbehind : ∀ t ∈ behind, t.role = .other) :
    IsPredicate (before ++ .symbol '(' :: (inside ++ .symbol ')' :: behind)) where
  ne_nil := by simp
  run level outer := by
    have hopen : step ⟨.predicate before.reverse 0 false, level, outer⟩ (.symbol '(') =
        some ⟨.predicate (.symbol '(' :: before.reverse) 1 false, level, outer⟩ := by
      cases hr : before.reverse with
      | nil => exact absurd (List.reverse_eq_nil_iff.1 hr) hne
      | cons t rest => rfl
    have hclose : ∀ read, step ⟨.predicate read 1 false, level, outer⟩ (.symbol ')') =
        some ⟨.predicate (.symbol ')' :: read) 0 false, level, outer⟩ := fun _ => rfl
    rw [ReadPhase.start, run_append, run_other level outer hbefore, Option.bind_some, run_cons,
      List.append_nil, hopen, Option.bind_some, run_append, run_inside level outer _ _ hinside,
      Option.bind_some, run_cons, hclose, Option.bind_some, run_other level outer hbehind]
    simp

/-- The `AND` behind a `BETWEEN` is part of the predicate. -/
theorem isPredicate_between {before low high : List Lexeme}
    (hbefore : ∀ t ∈ before, t.role = .other) (hlow : ∀ t ∈ low, t.role = .other)
    (hhigh : ∀ t ∈ high, t.role = .other) :
    IsPredicate (before ++ .word "BETWEEN" :: (low ++ .word "AND" :: high)) where
  ne_nil := by simp
  run level outer := by
    have hbetween : ∀ read, step ⟨.predicate read 0 false, level, outer⟩ (.word "BETWEEN") =
        some ⟨.predicate (.word "BETWEEN" :: read) 0 true, level, outer⟩ := by
      intro read
      cases read <;> rfl
    have hand : ∀ read, step ⟨.predicate read 0 true, level, outer⟩ (.word "AND") =
        some ⟨.predicate (.word "AND" :: read) 0 false, level, outer⟩ := by
      intro read
      cases read <;> rfl
    rw [ReadPhase.start, run_append, run_other level outer hbefore, Option.bind_some, run_cons,
      hbetween, Option.bind_some, run_append, run_other level outer hlow, Option.bind_some,
      run_cons, hand, Option.bind_some, run_other level outer hhigh]
    simp

end FilterReader
end BoundSql
