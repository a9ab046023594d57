import BoundSql.Proofs.Presentation.Struct
import Mathlib.Logic.Relation

/-!
# Documents of the same statement

A document can be written in many ways: the members of an object in any order, with others that
nobody asked for and without those that say no more than a default, a record as the array of its
fields, and all of this inside of one another. Each way to rewrite a document keeps what is read
from it, and so does any number of them, however the text of the last one is spelled.
-/
namespace BoundSql

open Json

/-- One rewriting of a document, at any depth. What may be rewritten depends on the decoder that
reads it: the objects of records take on and lose members, those of alternatives do not. -/
inductive Rewrites : {α : Type} → (Json → Option α) → Json → Json → Prop
  /-- The members of a record in another order. -/
  | permuted {α : Type} {decode : Json → Option α} {fields : List Field}
      {members members' : List (String × Json)} (h : IsRecord decode fields)
      (hperm : members.Perm members') : Rewrites decode (.object members) (.object members')
  /-- Members whose names are those of no field, in place of others such, or of nothing. -/
  | ignored {α : Type} {decode : Json → Option α} {fields : List Field}
      (before ignored ignored' : List (String × Json)) {after : List (String × Json)}
      (h : IsRecord decode fields)
      (hname : ∀ m ∈ ignored ++ ignored', m.1 ∉ fields.map Field.name) :
      Rewrites decode (.object (before ++ (ignored ++ after)))
        (.object (before ++ (ignored' ++ after)))
  /-- A member left out that says no more than the default of its field. -/
  | omitted {α : Type} {decode : Json → Option α} {fields : List Field} {f : Field} {j : Json}
      (before : List (String × Json)) {after : List (String × Json)} (h : IsRecord decode fields)
      (hf : f ∈ fields) (hdefault : f.IsDefault j) :
      Rewrites decode (.object (before ++ (f.name, j) :: after)) (.object (before ++ after))
  /-- The array of all fields of a record, with defaults for those that are missing. -/
  | arranged {α : Type} {decode : Json → Option α} {fields : List Field}
      {members : List (String × Json)} {items : List Json} (h : IsRecord decode fields)
      (hitems : List.Forall₂ (fun f j => (f.name, j) ∈ members ∨
        (∀ m ∈ members, m.1 ≠ f.name) ∧ f.IsDefault j) fields items) :
      Rewrites decode (.object members) (.array items)
  /-- Inside a field of an object. -/
  | member {α : Type} {decode : Json → Option α} {fields : List Field} {f : Field} {j j' : Json}
      (before : List (String × Json)) {after : List (String × Json)} (h : IsRecord decode fields)
      (hf : f ∈ fields) (hpart : Rewrites f.decode j j') :
      Rewrites decode (.object (before ++ (f.name, j) :: after))
        (.object (before ++ (f.name, j') :: after))
  /-- Inside a field of an array. -/
  | entry {α : Type} {decode : Json → Option α} {fields : List Field} {f : Field} {j j' : Json}
      (before : List Json) {after : List Json} (h : IsRecord decode fields)
      (hf : fields[before.length]? = some f) (hpart : Rewrites f.decode j j') :
      Rewrites decode (.array (before ++ j :: after)) (.array (before ++ j' :: after))
  /-- Inside a field that may be `null`. -/
  | nullable {α : Type} {decode : Json → Option α} {j j' : Json}
      (hpart : Rewrites decode j j') : Rewrites (nullable? decode) j j'
  /-- Inside an alternative. -/
  | content {α : Type} {decode : Json → Option α} {name : String} {j j' : Json}
      (hpart : Rewrites (content decode name) j j') :
      Rewrites decode (.object [(name, j)]) (.object [(name, j')])
  /-- Inside an alternative that holds what another decoder reads. -/
  | wrapped {α β : Type} {decode : Json → Option α} {inner : Json → Option β} {j j' : Json}
      (h : IsWrapped decode inner) (hpart : Rewrites inner j j') : Rewrites decode j j'
  /-- Inside an item of a list. -/
  | item {α : Type} {decode : Json → Option α} {j j' : Json} (before : List Json)
      {after : List Json} (hpart : Rewrites decode j j') :
      Rewrites (list? decode) (.array (before ++ j :: after)) (.array (before ++ j' :: after))
  /-- Inside what a column is given. -/
  | second {α β : Type} {first : Json → Option β} {decode : Json → Option α} {key j j' : Json}
      (hpart : Rewrites decode j j') :
      Rewrites (pair? first decode) (.array [key, j]) (.array [key, j'])
  /-- The array of a time or a date. -/
  | tag (name s : String) :
      Rewrites Value.ofJson? (.object [(name, .string s)]) (.array [.string s])
  /-- Inside a member of a list value. -/
  | value {j j' : Json} (before : List Json) {after : List Json}
      (hpart : Rewrites Value.ofJson? j j') :
      Rewrites Value.ofJson? (.array (before ++ j :: after)) (.array (before ++ j' :: after))

/-! ## Records -/

/-- What holds of every record holds of what a decoder of records reads. -/
theorem IsRecord.decode_eq_some {α : Type} {decode : Json → Option α} {fields : List Field}
    (h : IsRecord decode fields) {j j' : Json}
    (hrecord : ∀ (make : Maker α fields) (a : α), record fields make j = some a →
      record fields make j' = some a) {a : α} (ha : decode j = some a) : decode j' = some a := by
  obtain ⟨make, hmake⟩ := h.exists_make
  rw [hmake] at ha ⊢
  exact hrecord make a ha

/-! ## Lists and alternatives -/

namespace Json

/-- An array or an object. -/
def isContainer : Json → Bool
  | .array _ | .object _ => true
  | _ => false

section
variable {α : Type} {decode : Json → Option α} {j j' : Json}

theorem map_eq_some_mono {β : Type} {f : α → β} {x y : Option α}
    (hread : ∀ a, x = some a → y = some a) {b : β} (h : x.map f = some b) : y.map f = some b := by
  obtain ⟨a, ha, rfl⟩ := Option.map_eq_some_iff.1 h
  rw [hread a ha, Option.map_some]

theorem nullable?_of_isContainer (h : j.isContainer = true) :
    nullable? decode j = (decode j).map some := by
  cases j with
  | array items => rfl
  | object members => rfl
  | _ => cases h

/-- One item among others. -/
theorem mapM_item {before after : List Json} (hitem : ∀ a, decode j = some a → decode j' = some a)
    {as : List α} (h : (before ++ j :: after).mapM decode = some as) :
    (before ++ j' :: after).mapM decode = some as := by
  simp only [List.mapM_append, List.mapM_cons, Option.bind_eq_bind, Option.pure_def,
    Option.bind_eq_some_iff] at h ⊢
  obtain ⟨left, hleft, _, ⟨a, ha, right, hright, hcons⟩, has⟩ := h
  exact ⟨left, hleft, _, ⟨a, hitem a ha, right, hright, hcons⟩, has⟩

theorem pair?_second {β : Type} {first : Json → Option β} {key : Json}
    (hitem : ∀ a, decode j = some a → decode j' = some a) {pair : β × α}
    (h : pair? first decode (.array [key, j]) = some pair) :
    pair? first decode (.array [key, j']) = some pair := by
  simp only [pair?, Option.bind_eq_bind, Option.pure_def, Option.bind_eq_some_iff] at h ⊢
  obtain ⟨b, hb, a, ha, hpair⟩ := h
  exact ⟨b, hb, a, hitem a ha, hpair⟩

end

end Json

/-! ## Values -/

/-- A text that reads as a date ends where the time would begin. -/
theorem DateTime.parse?_of_date {s : String} {d : Date} (h : Date.parse? s = some d) :
    DateTime.parse? s = none := by
  obtain ⟨⟨date, rest⟩, hread, hrest⟩ := Option.bind_eq_some_iff.1 h
  have hblank : Text.trimStart rest = [] := (Option.ite_none_right_eq_some.1 hrest).1
  have hmark : Calendar.mark 'T' rest = none := by rw [Calendar.mark, hblank, Text.expect]
  rw [DateTime.parse?, hread]
  simp only [Option.bind_eq_bind, Option.bind_some, hmark, Option.bind_none]

namespace Value

/-- A tagged text is the same time or date as the array of it. -/
theorem calendar?_tag {name s : String} {v : Value}
    (h : calendar? (.object [(name, .string s)]) = some v) :
    calendar? (.array [.string s]) = some v := by
  have harray (tag : String) : tagged? tag (.array [.string s]) = some s := rfl
  have hobject {tag t : String} (ht : tagged? tag (.object [(name, .string s)]) = some t) :
      t = s := (Option.some.inj (Option.ite_none_right_eq_some.1 ht).2).symm
  rw [calendar?] at h
  rw [calendar?, harray, harray, Option.bind_some, Option.bind_some]
  split at h
  · rename_i t ht
    obtain ⟨text, htext, hparse⟩ := Option.bind_eq_some_iff.1 ht
    rw [← hobject htext, hparse]
    exact h
  · obtain ⟨d, hd, rfl⟩ := Option.map_eq_some_iff.1 h
    obtain ⟨text, htext, hparse⟩ := Option.bind_eq_some_iff.1 hd
    rw [← hobject htext, DateTime.parse?_of_date hparse, hparse, Option.map_some]

/-- A list in which an array or an object stands is no tag. -/
theorem calendar?_isContainer {before after : List Json} {j : Json} (h : j.isContainer = true) :
    calendar? (.array (before ++ j :: after)) = none := by
  have hnone (tag : String) : tagged? tag (.array (before ++ j :: after)) = none := by
    cases htag : tagged? tag (.array (before ++ j :: after)) with
    | none => rfl
    | some s =>
      have hj : j ∈ [Json.string s] := tagged?_array htag ▸ List.mem_append_cons_self
      rw [List.mem_singleton.1 hj] at h
      cases h
  rw [calendar?, hnone, hnone]
  rfl

theorem ofJson?_item {before after : List Json} {j j' : Json} (hj : j.isContainer = true)
    (hj' : j'.isContainer = true) (hitem : ∀ v, ofJson? j = some v → ofJson? j' = some v)
    {v : Value} (h : ofJson? (.array (before ++ j :: after)) = some v) :
    ofJson? (.array (before ++ j' :: after)) = some v := by
  rw [ofJson?, calendar?_isContainer hj, ofJsons?_eq_mapM] at h
  rw [ofJson?, calendar?_isContainer hj', ofJsons?_eq_mapM]
  exact map_eq_some_mono (fun _ => mapM_item hitem) h

end Value

/-! ## What a rewriting keeps -/

/-- Only arrays and objects are rewritten, to arrays and objects. -/
theorem Rewrites.isContainer {α : Type} {decode : Json → Option α} {j j' : Json}
    (h : Rewrites decode j j') : j.isContainer = true ∧ j'.isContainer = true := by
  induction h with
  | nullable _ ih => exact ih
  | wrapped _ _ ih => exact ih
  | _ => exact ⟨rfl, rfl⟩

/-- Whatever is read from a document is read from the rewritten one. -/
theorem Rewrites.decode_eq_some {α : Type} {decode : Json → Option α} {j j' : Json}
    (h : Rewrites decode j j') : ∀ a, decode j = some a → decode j' = some a := by
  induction h with
  | permuted h hperm => exact fun _ => h.decode_eq_some fun _ _ => record_permuted hperm
  | ignored _ _ _ h hname => exact fun _ => h.decode_eq_some fun _ _ => record_ignored hname
  | omitted _ h hf hdefault =>
    obtain ⟨d, hmissing, hdecode⟩ := hdefault
    have hread (b) (hb : _ = some b) := hmissing.trans (hdecode.symm.trans hb)
    exact fun _ => h.decode_eq_some fun _ _ => record_exchanged (e := none) h.nodup hf hread
  | arranged h hitems => exact fun _ => h.decode_eq_some fun _ _ => record_arranged hitems
  | member _ h hf _ ih =>
    exact fun _ => h.decode_eq_some fun _ _ => record_exchanged (e := some _) h.nodup hf ih
  | entry _ h hf _ ih => exact fun _ => h.decode_eq_some fun _ _ => record_item hf ih
  | nullable hpart ih =>
    intro a ha
    rw [nullable?_of_isContainer hpart.isContainer.1] at ha
    rw [nullable?_of_isContainer hpart.isContainer.2]
    exact map_eq_some_mono ih ha
  | content _ ih => exact ih
  | wrapped h _ ih =>
    obtain ⟨wrap, hwrap⟩ := h.exists_wrap
    intro a ha
    rw [hwrap] at ha ⊢
    exact map_eq_some_mono ih ha
  | item _ _ ih => exact fun _ => mapM_item ih
  | second _ ih => exact fun _ => pair?_second ih
  | tag =>
    intro a ha
    rw [Value.ofJson?, Value.calendar?_tag ha]
  | value _ hpart ih =>
    exact fun _ => Value.ofJson?_item hpart.isContainer.1 hpart.isContainer.2 ih

namespace Query

/-- A document from which a statement was read may be rewritten any number of times, at any depth,
and then be written in any spelling: if it nests no deeper than the reader follows, the same
statement is read from it. -/
theorem parse?_of_rewrites {text text' : String} {j j' : Json} {q : Query}
    (hj : Json.parse? text = some j) (hq : parse? text = some q)
    (h : Relation.ReflTransGen (Rewrites ofJson?) j j') (htext : IsDocument text' j') :
    parse? text' = some q := by
  rw [parse?, hj] at hq
  rw [parse?, parse?_of_isDocument htext]
  have hread {j' : Json} (h : Relation.ReflTransGen (Rewrites ofJson?) j j') :
      ofJson? j' = some q := by
    induction h with
    | refl => exact hq
    | tail _ hstep ih => exact hstep.decode_eq_some q ih
  exact hread h

/-- The old entries of a log. -/
def oldLogs : Query :=
  .delete
    { table := some "logs"
      schema := none
      tableAlias := none
      filter := ⟨[.comparison (.plain "day") .lt (.date ⟨2023, 12, 31, by decide⟩)], .and⟩
      limits := ⟨5, 0⟩
      truncate := false }

/-- Their filter with the date in some form and other members behind the comparison. -/
def oldLogsFilter (date : Json) (rest : List (String × Json)) : Json :=
  .object (("statements", .array [.object [("comparison", .object
    [("column", (ColumnName.plain "day").toJson), ("op", .string "lt"), ("value", date)])]]) ::
      rest)

/-- Their document in another order, with another member and without most defaults, in which the
limits and the date are arrays. -/
def oldLogsRewritten : Json :=
  .object [("delete", .object
    [("note", .string "nightly"), ("limits", .array [.ofUInt64 5, .ofUInt64 0]),
      ("where", oldLogsFilter (.array [.string "2023-12-31"]) []), ("table_alias", .null),
      ("table", .string "logs")])]

theorem rewrites_oldLogs :
    Relation.ReflTransGen (Rewrites ofJson?) oldLogs.toJson oldLogsRewritten := by
  have hdelete {j j' : Json} (h : Rewrites Delete.ofJson? j j') :
      Rewrites ofJson? (.object [("delete", j)]) (.object [("delete", j')]) :=
    .content (.wrapped .delete h)
  have hdate (rest : List (String × Json)) :
      Rewrites Filter.ofJson? (oldLogsFilter (.object [("date", .string "2023-12-31")]) rest)
        (oldLogsFilter (.array [.string "2023-12-31"]) rest) :=
    .member [] .filter (.head _) (.item [] (.content (.member
      [("column", (ColumnName.plain "day").toJson), ("op", .string "lt")] .comparison
      (.tail _ (.tail _ (.head _))) (.tag "date" "2023-12-31"))))
  have hand (date : Json) : Rewrites Filter.ofJson? (oldLogsFilter date [("op", .string "and")])
      (oldLogsFilter date []) :=
    .omitted [("statements", _)] .filter (.tail _ (.head _)) ⟨.and, rfl, rfl⟩
  have hlimits : Rewrites Limits.ofJson?
      (.object [("limit", .ofUInt64 5), ("offset", .ofUInt64 0)])
      (.array [.ofUInt64 5, .ofUInt64 0]) :=
    .arranged .limits (.cons (.inl (.head _)) (.cons (.inl (.tail _ (.head _))) .nil))
  have hfilter : Field.defaulted "where" .empty Filter.ofJson? ∈ Delete.fields := by
    simp [Delete.fields]
  have hlimit : Field.defaulted "limits" .none Limits.ofJson? ∈ Delete.fields := by
    simp [Delete.fields]
  refine .head (hdelete (.member [("table", _), ("schema", _), ("table_alias", _)] .delete hfilter
    (hdate _))) ?_
  refine .head (hdelete (.member [("table", _), ("schema", _), ("table_alias", _)] .delete hfilter
    (hand _))) ?_
  refine .head (hdelete (.member [("table", _), ("schema", _), ("table_alias", _), ("where", _)]
    .delete hlimit hlimits)) ?_
  refine .head (hdelete (.omitted [("table", _)] .delete (.tail _ (.head _)) ⟨none, rfl, rfl⟩)) ?_
  refine .head (hdelete (.omitted [("table", _), ("table_alias", _), ("where", _), ("limits", _)]
    .delete (List.mem_of_getLast? rfl) ⟨false, rfl, rfl⟩)) ?_
  refine .head (hdelete (.permuted .delete (List.reverse_perm _).symm)) ?_
  exact .single (hdelete (.ignored [] [] [("note", .string "nightly")] .delete (by decide)))

theorem parse?_of_rewrites_oldLogs :
    Json.parse? oldLogs.toJson.compact = some oldLogs.toJson ∧
      parse? oldLogs.toJson.compact = some oldLogs ∧
      Relation.ReflTransGen (Rewrites ofJson?) oldLogs.toJson oldLogsRewritten ∧
      IsDocument oldLogsRewritten.pretty oldLogsRewritten ∧
      parse? oldLogsRewritten.pretty = some oldLogs := by
  have hjson : Json.parse? oldLogs.toJson.compact = some oldLogs.toJson :=
    Json.parse?_compact (by decide) (by decide)
  have hexact : ∀ v ∈ oldLogs.allValues, v.isExact = true := by decide
  have hparse : parse? oldLogs.toJson.compact = some oldLogs := by
    rw [parse?, hjson]
    exact ofJson?_toJson hexact rfl
  have hdocument : IsDocument oldLogsRewritten.pretty oldLogsRewritten :=
    isDocument_pretty (by decide) (by decide)
  exact ⟨hjson, hparse, rewrites_oldLogs, hdocument,
    parse?_of_rewrites hjson hparse rewrites_oldLogs hdocument⟩

end Query
end BoundSql
