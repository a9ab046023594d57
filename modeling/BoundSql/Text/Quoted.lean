/-!
# Quoted text

Inside quotation marks a quotation mark is written twice; nothing else is changed. The
inverse reads up to the first mark that stands alone, so quoted text ends where the writer
ended it whenever the text after it does not begin with the same mark.
-/
namespace BoundSql.Text

/-- Every `quote` twice. -/
def doubled (quote : Char) : List Char → List Char
  | [] => []
  | c :: rest => if c = quote then quote :: quote :: doubled quote rest else c :: doubled quote rest

/-- The text that may stand between two `quote` characters. -/
def escape (quote : Char) (text : String) : String :=
  String.ofList (doubled quote text.toList)

/-- The text between two `quote` characters. -/
def quoted (quote : Char) (text : String) : String :=
  String.singleton quote ++ escape quote text ++ String.singleton quote

/-- A string literal: single quotes around, single quotes inside doubled. -/
def literal (text : String) : String := quoted '\x27' text

/-- Reads what stands before the first lone `quote`, and what follows that quote; `none` when
no quote stands alone. -/
def unquote? (quote : Char) : List Char → Option (List Char × List Char)
  | [] => none
  | c :: rest =>
    if c = quote then
      match rest with
      | d :: rest' =>
        if d = quote then (unquote? quote rest').map fun (s, r) => (quote :: s, r)
        else some ([], d :: rest')
      | [] => some ([], [])
    else (unquote? quote rest).map fun (s, r) => (c :: s, r)

@[simp] theorem toList_escape (quote : Char) (text : String) :
    (escape quote text).toList = doubled quote text.toList := by
  simp [escape]

@[simp] theorem toList_quoted (quote : Char) (text : String) :
    (quoted quote text).toList = quote :: (doubled quote text.toList ++ [quote]) := by
  simp [quoted]

/-- Reading undoes writing, up to the closing mark. -/
theorem unquote?_doubled (quote : Char) (s rest : List Char) (h : rest.head? ≠ some quote) :
    unquote? quote (doubled quote s ++ quote :: rest) = some (s, rest) := by
  induction s with
  | nil =>
    cases rest with
    | nil => simp [doubled, unquote?]
    | cons d r =>
      have hd : d ≠ quote := fun e => h (by simp [e])
      simp [doubled, unquote?, hd]
  | cons c r ih =>
    by_cases hc : c = quote
    · subst hc
      simp [doubled, unquote?, ih]
    · rw [doubled, if_neg hc, List.cons_append, unquote?.eq_def]
      simp [hc, ih]

end BoundSql.Text
