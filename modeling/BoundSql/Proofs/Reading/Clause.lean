import BoundSql.Proofs.Reading.Expr

/-!
# Reading filters and clauses

A filter has one connective, which shows behind its first predicate. The clauses of a query stand in
a fixed order and each begins with words of its own, so a clause that is missing shows in the words
of a later one.
-/
namespace BoundSql

open Text Layout

/-! ## Filters -/

namespace Connective

def separator (c : Connective) : String := " " ++ c.keyword ++ " "

def table : List (String × Connective) := all.map fun c => (c.separator, c)

theorem pairwise_table : table.Pairwise fun d e => clash d.1 e.1 = true := by
  decide

theorem mem_table (c : Connective) : (c.separator, c) ∈ table := by
  cases c <;> simp [table, all]

end Connective

namespace Filter

/-- The texts that can stand behind a filter. -/
def stops : List String := [" )", " GROUP BY ", " LIMIT ", " ORDER BY "]

/-- One predicate, or several with the connective that stands behind the first. -/
def readWith (n : Nat) (p : MarkReader Expr) : MarkReader Filter := fun ms => do
  let (e, ms) ← p ms
  match lookup? Connective.table ms with
  | some (c, ms) => do
    let (es, ms) ← many c.separator p n ms
    return (⟨e :: es, c⟩, ms)
  | none => return (⟨[e], .and⟩, ms)

theorem excludes_separator (c : Connective) : excludes stops c.separator = true := by
  cases c <;> decide

theorem separator_mem_stops (c : Connective) : c.separator ∈ Expr.stops := by
  cases c <;> decide

theorem stops_subset (c : Connective) : c.separator :: stops ⊆ Expr.stops := by
  cases c <;> decide

theorem readWith_layout {n : Nat} {p : MarkReader Expr} {tableAlias : Option String} {f : Filter}
    (hreadable : f.isReadable = true) (hhollow : f.isHollow = false)
    (hterms : ∀ e ∈ Expr.shown f.terms,
      Takes Expr.stops p (e.layout tableAlias) (e.normal tableAlias))
    (hn : f.terms.length ≤ n) :
    Takes stops (readWith n p) (f.layout tableAlias) (f.normal tableAlias) := by
  intro rest hrest
  obtain ⟨terms, c⟩ := f
  have hseparator : " " ++ c.keyword ++ " " = c.separator := rfl
  rw [isReadable] at hreadable
  rw [isHollow] at hhollow
  rw [layout, normal, Expr.normals_eq_map, Expr.joined_layouts _ _ hreadable, hseparator]
  have hlength : (Expr.shown terms).length ≤ n := Nat.le_trans (List.length_filter_le ..) hn
  cases hshown : Expr.shown terms with
  | nil =>
    rw [(Expr.shown_eq_nil_iff terms).1 hshown] at hhollow
    cases hhollow
  | cons e es =>
    rw [hshown] at hterms hlength
    have he := hterms e (List.mem_cons_self ..)
    -- One predicate shows no connective, and the normal form has `and` then.
    cases es with
    | nil =>
      have hfirst := he rest (hrest.mono (by decide))
      have hnone := hrest.lookup?_eq_none Connective.table (by decide)
      simp [readWith, hfirst, hnone]
    | cons e' es =>
      have hfirst := he _ (ends_marks (separator_mem_stops c)
        (Layout.marks (List.intercalate [.words c.separator]
          ((e' :: es).map (Expr.layout tableAlias))) ++ rest))
      have hothers := many_intercalate c.separator (g := Expr.layout tableAlias)
        (excludes_separator c)
        (fun e he => (hterms e (List.mem_cons_of_mem _ he)).mono (stops_subset c))
        (List.cons_ne_nil e' es) (Nat.le_of_succ_le hlength) rest hrest
      have hentry := lookup?_marks Connective.pairwise_table c.mem_table
        (Layout.marks (List.intercalate [.words c.separator]
          ((e' :: es).map (Expr.layout tableAlias))) ++ rest)
      rw [List.map_cons, List.map_cons, List.intercalate_cons_cons, ← List.map_cons]
      simp only [Layout.marks_append, Layout.marks_cons, Layout.marks_nil, Piece.marks.eq_1,
        List.append_nil, List.append_assoc]
      simp only [readWith, hfirst, hentry, hothers, Option.bind_eq_bind, Option.bind_some]
      rfl

end Filter

/-! ## Clauses -/

namespace Text

section
variable {α : Type}

/-- What stands behind a text, or a value for it if the text is missing. -/
def optional (text : String) (p : MarkReader α) (missing : α) : MarkReader α := fun ms =>
  match skip? text ms with
  | some ms => p ms
  | none => some (missing, ms)

theorem optional_marks {text : String} {p : MarkReader α} {missing a : α} {ms rest : List Mark}
    (h : p ms = some (a, rest)) : optional text p missing (marks text ++ ms) = some (a, rest) := by
  rw [optional, skip?_marks]
  exact h

theorem optional_missing {text : String} {p : MarkReader α} {missing : α} {ms : List Mark}
    (h : skip? text ms = none) : optional text p missing ms = some (missing, ms) := by
  rw [optional, h]

end
end Text

namespace Target

def read : MarkReader Target
  | .name first :: ms =>
    match skip? "." ms with
    | some (.name table :: ms) =>
      let (tableAlias, ms) := readLabel ms
      some (⟨table, some first, tableAlias⟩, ms)
    | _ =>
      let (tableAlias, ms) := readLabel ms
      some (⟨first, none, tableAlias⟩, ms)
  | _ => none

theorem read_layout (t : Target) {rest : List Mark} (hdot : skip? "." rest = none)
    (hlabel : skip? " as " rest = none) : read (t.layout.marks ++ rest) = some (t, rest) := by
  obtain ⟨table, schema, tableAlias⟩ := t
  have hread := readLabel_marks tableAlias hlabel
  have hdot' : skip? "." (Layout.marks (labelled [] tableAlias) ++ rest) = none := by
    cases tableAlias with
    | none => simpa [labelled] using hdot
    | some n =>
      have hclash := skip?_clash (s := ".") (t := " as ") (by decide) (.name n :: rest)
      exact hclash
  rw [layout, marks_labelled, List.append_assoc]
  cases schema with
  | none => simp [nameLayout, Piece.marks, read, hdot', hread]
  | some s =>
    have hskip := skip?_marks "." (.name table :: (Layout.marks (labelled [] tableAlias) ++ rest))
    simp [nameLayout, Piece.marks, read, hread, hskip]

end Target

theorem Layout.headed_of_ne_nil {before : String} {l : Layout} (h : l ≠ []) :
    headed before l = .words before :: l := by
  cases l with
  | nil => exact absurd rfl h
  | cons p l => rfl

theorem Layout.intercalate_cons (separator : String) (l : Layout) (ls : List Layout) :
    List.intercalate [.words separator] (l :: ls) =
      l ++ ls.flatMap fun k => .words separator :: k := by
  induction ls generalizing l with
  | nil => simp
  | cons k ks ih =>
    rw [List.intercalate_cons_cons, ih, List.flatMap_cons]
    simp

namespace JoinKind

def table : List (String × JoinKind) := all.map fun k => (" " ++ k.keyword ++ " ", k)

theorem pairwise_table : table.Pairwise fun d e => clash d.1 e.1 = true := by
  decide

theorem mem_table (k : JoinKind) : (" " ++ k.keyword ++ " ", k) ∈ table :=
  List.mem_map_of_mem (by cases k <;> simp [all])

end JoinKind

namespace Join

/-- The texts that can stand behind the joins. -/
def stops : List String := " WHERE " :: Filter.stops

def read (kind : JoinKind) : MarkReader Join
  | .name joined :: ms => do
    let (tableAlias, ms) := readLabel ms
    let (primaryKey, ms) ← before ColumnName.read " = " (← skip? " ON " ms)
    let (foreignKey, ms) ← ColumnName.read ms
    return (.table kind joined tableAlias primaryKey foreignKey, ms)
  | _ => none

/-- Joins as long as there are any. -/
def readAll : Nat → MarkReader (List Join)
  | 0, _ => none
  | n + 1, ms =>
    match lookup? JoinKind.table ms with
    | some (kind, ms) => do
      let (j, ms) ← read kind ms
      let (js, ms) ← readAll n ms
      return (j :: js, ms)
    | none => some ([], ms)

theorem read_table (kind : JoinKind) (joined : String) (tableAlias : Option String)
    (primaryKey foreignKey : ColumnName) {rest : List Mark} (h : skip? "." rest = none) :
    read kind (Layout.marks (labelled [.name joined] tableAlias ++
        [.words " ON ", .column primaryKey.qualifier primaryKey.name, .words " = ",
          .column foreignKey.qualifier foreignKey.name]) ++ rest) =
      some (.table kind joined tableAlias primaryKey foreignKey, rest) := by
  have hforeign := foreignKey.read_marks h
  have hprimary := before_eq (primaryKey.read_marks (skip?_clash (s := ".") (t := " = ")
    (by decide) ((Piece.column foreignKey.qualifier foreignKey.name).marks ++ rest)))
  have hlabel := readLabel_marks tableAlias (skip?_clash (s := " as ") (t := " ON ") (by decide)
    ((Piece.column primaryKey.qualifier primaryKey.name).marks ++ (Text.marks " = " ++
      ((Piece.column foreignKey.qualifier foreignKey.name).marks ++ rest))))
  have hname : (Piece.name joined).marks = [.name joined] := rfl
  rw [Layout.marks_append, marks_labelled]
  simp only [Layout.marks_cons, Layout.marks_nil, Piece.marks.eq_1, hname, List.append_assoc,
    List.cons_append, List.nil_append, List.append_nil]
  simp only [read, hlabel, skip?_marks, hprimary, hforeign, Option.bind_eq_bind, Option.bind_some]
  rfl

/-- The joins one after the other, each behind a space. -/
theorem headed_clauseLayout (joins : List Join) :
    headed " " (clauseLayout joins) = joins.flatMap fun j => .words " " :: j.layout := by
  have hvisible : ∀ j : Join, isVisible j.layout = true := fun j => by
    cases j <;> simp [layout, Piece.isVisible]
  have hkept : (joins.map layout).filter isVisible = joins.map layout := by
    refine List.filter_eq_self.2 fun l hl => ?_
    obtain ⟨j, -, rfl⟩ := List.mem_map.1 hl
    exact hvisible j
  rw [clauseLayout, Layout.joined, hkept]
  cases joins with
  | nil => rfl
  | cons j js =>
    rw [List.map_cons, intercalate_cons]
    cases j <;> simp [headed, layout, List.flatMap_map]

theorem ends_flatMap (joins : List Join) {rest : List Mark} (h : Ends stops rest) :
    Ends (JoinKind.table.map Prod.fst ++ stops)
      (Layout.marks (joins.flatMap fun j => .words " " :: j.layout) ++ rest) := by
  cases joins with
  | nil => exact h.mono (List.subset_append_right ..)
  | cons j js =>
    have hkind : ∀ (kind : JoinKind) (l : Layout),
        Ends (JoinKind.table.map Prod.fst ++ stops)
          (Layout.marks (.words " " :: .words kind.keyword :: .words " " :: l) ++ rest) := by
      intro kind l
      have hends := ends_marks (List.mem_append_left stops (List.mem_map_of_mem (f := Prod.fst)
        kind.mem_table)) (l.marks ++ rest)
      rw [marks_append_text, marks_append_text] at hends
      simpa [Piece.marks.eq_1] using hends
    rw [List.flatMap_cons]
    cases j with
    | table kind joined tableAlias primaryKey foreignKey => exact hkind kind _
    | raw kind r => exact hkind kind _

theorem readAll_layout {joins : List Join} (hraws : joins.flatMap raws = []) {n : Nat}
    (hn : joins.length < n) {rest : List Mark} (h : Ends stops rest) :
    readAll n (Layout.marks (joins.flatMap fun j => .words " " :: j.layout) ++ rest) =
      some (joins, rest) := by
  induction joins generalizing n with
  | nil =>
    obtain ⟨n, rfl⟩ : ∃ m, n = m + 1 := ⟨n - 1, by omega⟩
    have hnone := h.lookup?_eq_none JoinKind.table (by decide)
    simp [readAll, hnone]
  | cons j js ih =>
    obtain ⟨n, rfl⟩ : ∃ m, n = m + 1 := ⟨n - 1, by omega⟩
    rw [List.flatMap_cons, List.append_eq_nil_iff] at hraws
    have hothers := ih hraws.2 (n := n) (by simpa using hn)
    cases j with
    | raw kind r => simp [raws] at hraws
    | table kind joined tableAlias primaryKey foreignKey =>
      have hdot : skip? "." (Layout.marks (js.flatMap fun j => .words " " :: j.layout) ++ rest) =
          none := (ends_flatMap js h).skip?_eq_none (by decide)
      have hfirst := read_table kind joined tableAlias primaryKey foreignKey hdot
      have hentry := lookup?_marks JoinKind.pairwise_table kind.mem_table (Layout.marks
        (labelled [.name joined] tableAlias ++ [.words " ON ",
          .column primaryKey.qualifier primaryKey.name, .words " = ",
          .column foreignKey.qualifier foreignKey.name]) ++
        (Layout.marks (js.flatMap fun j => .words " " :: j.layout) ++ rest))
      rw [marks_append_text, marks_append_text, List.append_assoc, List.append_assoc] at hentry
      rw [List.flatMap_cons, layout, Layout.marks_append, Layout.marks_cons, Layout.marks_cons,
        Layout.marks_cons, Piece.marks.eq_1, Piece.marks.eq_1, List.append_assoc, List.append_assoc,
        List.append_assoc, List.append_assoc]
      simp only [readAll, hentry, hfirst, hothers, Option.bind_eq_bind, Option.bind_some]
      rfl

end Join

/-! ## Groupings, limits and the sort -/

namespace Grouping

/-- The texts that can stand behind the groupings. -/
def stops : List String := [" LIMIT ", " ORDER BY ", " )"]

def read : MarkReader Grouping := fun ms => (ColumnName.read ms).map fun (c, ms) => (.column c, ms)

theorem read_layout (tableAlias : Option String) {g : Grouping} (hraws : g.raws = [])
    {rest : List Mark} (h : skip? "." rest = none) :
    read ((g.layout tableAlias).marks ++ rest) = some (g.under tableAlias, rest) := by
  cases g with
  | raw r => simp [raws] at hraws
  | column c =>
    have hread : ColumnName.read ((Piece.column (c.qualifier.or tableAlias) c.name).marks ++ rest) =
        some (c.under tableAlias, rest) := (c.under tableAlias).read_marks h
    rw [layout, Layout.marks_cons, Layout.marks_nil, List.append_nil, read, hread]
    rfl

theorem optional_clauseLayout (tableAlias : Option String) {groups : List Grouping}
    (hraws : groups.flatMap raws = []) {n : Nat} (hn : groups.length ≤ n) {rest : List Mark}
    (h : Ends stops rest) :
    optional " GROUP BY " (many "," read n) []
      (Layout.marks (headed " " (clauseLayout tableAlias groups)) ++ rest) =
        some (groups.map (under tableAlias), rest) := by
  rw [List.flatMap_eq_nil_iff] at hraws
  have hkept : (groups.map (layout tableAlias)).filter isVisible =
      groups.map (layout tableAlias) := by
    refine List.filter_eq_self.2 fun l hl => ?_
    obtain ⟨g, hg, rfl⟩ := List.mem_map.1 hl
    cases g with
    | column c => rfl
    | raw r => simpa [raws] using hraws _ hg
  rw [clauseLayout, Layout.joined, hkept]
  cases groups with
  | nil => exact optional_missing (h.skip?_eq_none (by decide))
  | cons g gs =>
    have hread := many_intercalate "," (p := read) (f := under tableAlias)
      (g := layout tableAlias) (by decide)
      (fun g hg rest hrest => read_layout tableAlias (hraws g hg) (hrest.skip?_eq_none (by decide)))
      (List.cons_ne_nil g gs) hn rest h
    have hne : List.intercalate [.words ","] ((g :: gs).map (layout tableAlias)) ≠ [] := by
      rw [List.map_cons, intercalate_cons]
      cases g <;> simp [layout]
    rw [headed_of_ne_nil hne, headed_of_ne_nil (List.cons_ne_nil _ _)]
    exact optional_marks hread

theorem ends_clauseLayout (tableAlias : Option String) (groups : List Grouping) {rest : List Mark}
    (h : Ends stops rest) :
    Ends Filter.stops (Layout.marks (headed " " (clauseLayout tableAlias groups)) ++ rest) := by
  rw [clauseLayout]
  cases joined "," (groups.map (layout tableAlias)) with
  | nil => exact h.mono (by decide)
  | cons p l =>
    have hmem : " GROUP BY " ∈ Filter.stops := by decide
    exact ends_marks hmem (Layout.marks (p :: l) ++ rest)

end Grouping

namespace Limits

/-- The dialect's count for all rows. -/
def allRows : String := Number.natText Dialect.mysql.maxRowCount.toNat

def read : MarkReader Limits := fun ms =>
  match skip? " LIMIT " ms with
  | some (.value (.uint limit) :: ms) =>
    match skip? " OFFSET " ms with
    | some (.value (.uint offset) :: ms) => some (⟨limit, offset⟩, ms)
    | _ => some (⟨limit, 0⟩, ms)
  | some ms =>
    match skip? (allRows ++ " OFFSET ") ms with
    | some (.value (.uint offset) :: ms) => some (⟨0, offset⟩, ms)
    | _ => .none
  | .none => some (.none, ms)

theorem ends_layout (l : Limits) {rest : List Mark} (h : Ends [" ORDER BY ", " )"] rest) :
    Ends Grouping.stops (l.layout.marks ++ rest) := by
  have hlimit : ∀ k : Layout, Ends Grouping.stops (Layout.marks (.words " LIMIT " :: k) ++ rest) :=
    fun k => by
      rw [Layout.marks_cons, List.append_assoc]
      exact ends_marks (by decide) _
  unfold layout
  split
  · exact hlimit _
  · split
    · exact hlimit _
    · exact h.mono (by decide)

theorem read_layout (l : Limits) {rest : List Mark} (hlimit : skip? " LIMIT " rest = .none)
    (hoffset : skip? " OFFSET " rest = .none) : read (l.layout.marks ++ rest) = some (l, rest) := by
  obtain ⟨limit, offset⟩ := l
  by_cases hl : 0 < limit <;> by_cases ho : 0 < offset
  · simp [layout, hl, ho, read, Piece.marks, skip?_marks]
  · obtain rfl : offset = 0 := by simpa [UInt64.pos_iff_ne_zero] using ho
    simp [layout, hl, read, Piece.marks, skip?_marks, hoffset]
  · -- The count for all rows stands in the text, so it is not taken for a limit that is bound.
    obtain rfl : limit = 0 := by simpa [UInt64.pos_iff_ne_zero] using hl
    have hskip := skip?_marks (allRows ++ " OFFSET ") (.value (.uint offset) :: rest)
    rw [marks_append_text, List.append_assoc] at hskip
    have hdigit : Text.marks allRows = .char '1' :: Text.marks "8446744073709551615" := by rfl
    have hlayout : Layout.marks (layout ⟨0, offset⟩) ++ rest =
        Text.marks " LIMIT " ++ (Text.marks allRows ++ (Text.marks " OFFSET " ++
          (.value (.uint offset) :: rest))) := by
      simp [layout, ho, Piece.marks, allRows]
    rw [hdigit, List.cons_append] at hskip hlayout
    rw [hlayout, read, skip?_marks]
    simp only [hskip]
  · obtain rfl : limit = 0 := by simpa [UInt64.pos_iff_ne_zero] using hl
    obtain rfl : offset = 0 := by simpa [UInt64.pos_iff_ne_zero] using ho
    simp [layout, read, hlimit, none]

end Limits

namespace SortKey

def read : MarkReader (Option SortKey) := fun ms =>
  match skip? " ORDER BY " ms with
  | some (.value (.string column) :: ms) =>
    match skip? " " ms with
    | some (.value (.string direction) :: ms) =>
      some (some ⟨column, if direction = "ASC" then .asc else .desc⟩, ms)
    | _ => none
  | some _ => none
  | none => some (none, ms)

theorem ends_clauseLayout (k : Option SortKey) {rest : List Mark} (h : Ends [" )"] rest) :
    Ends [" ORDER BY ", " )"] (Layout.marks (clauseLayout k) ++ rest) := by
  cases k with
  | none => exact h.mono (by decide)
  | some k => exact ends_marks (List.mem_cons_self ..) _

theorem read_layout (k : Option SortKey) {rest : List Mark}
    (h : skip? " ORDER BY " rest = none) :
    read (Layout.marks (clauseLayout k) ++ rest) = some (k, rest) := by
  cases k with
  | none => simp [clauseLayout, read, h]
  | some k =>
    obtain ⟨column, direction⟩ := k
    have hdirection : (if direction.keyword = "ASC" then .asc else .desc) = direction := by
      cases direction <;> rfl
    simp [clauseLayout, layout, read, Piece.marks, skip?_marks, Value.binding, hdirection]

end SortKey

end BoundSql
