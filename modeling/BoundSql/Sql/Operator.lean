import BoundSql.Sql.Keyword

/-!
# Comparison operators

An operator is read from a token word by word, with white space between words and on both sides of
the token and letters in any case. Operators are tried in a fixed order, and the first one that the
token begins with is taken for good: what is left behind it may only be white space.
-/
namespace BoundSql

/-- A comparison of a column with a value. -/
inductive Operator where
  | eq
  | ne
  | ltGt
  | gt
  | gte
  | lt
  | lte
  | like
  | notLike
  | is
  | isNot
  | isNull
  | isNotNull
deriving DecidableEq

namespace Operator

def all : List Operator :=
  [.eq, .ne, .ltGt, .gt, .gte, .lt, .lte, .like, .notLike, .is, .isNot, .isNull, .isNotNull]

def name : Operator → String
  | .eq => "eq"
  | .ne => "ne"
  | .ltGt => "lt_gt"
  | .gt => "gt"
  | .gte => "gte"
  | .lt => "lt"
  | .lte => "lte"
  | .like => "like"
  | .notLike => "not_like"
  | .is => "is"
  | .isNot => "is_not"
  | .isNull => "is_null"
  | .isNotNull => "is_not_null"

/-- The words of the operator in SQL. -/
def words : Operator → List String
  | .eq => ["="]
  | .ne => ["!="]
  | .ltGt => ["<>"]
  | .gt => [">"]
  | .gte => [">="]
  | .lt => ["<"]
  | .lte => ["<="]
  | .like => ["LIKE"]
  | .notLike => ["NOT", "LIKE"]
  | .is => ["IS"]
  | .isNot => ["IS", "NOT"]
  | .isNull => ["IS", "NULL"]
  | .isNotNull => ["IS", "NOT", "NULL"]

/-- The operator in SQL. -/
def keyword (op : Operator) : String := String.intercalate " " op.words

/-- Whether the operator compares with no value at all. -/
def isNullTest : Operator → Bool
  | .isNull | .isNotNull => true
  | _ => false

/-- White space around and inside an operator token. -/
def isSeparator (c : Char) : Bool := c == ' ' || c == '\t' || c == '\n' || c == '\r'

/-- What is left behind a word, whose letters may be in any case. -/
def skipWord? : List Char → List Char → Option (List Char)
  | [], cs => some cs
  | w :: word, c :: cs => if c.toUpper = w then skipWord? word cs else none
  | _ :: _, [] => none

/-- What is left behind words with white space between them. -/
def skipWords? : List String → List Char → Option (List Char)
  | [], cs => some cs
  | [word], cs => skipWord? word.toList cs
  | word :: more, cs =>
    match skipWord? word.toList cs with
    | some (c :: rest) =>
      if isSeparator c then skipWords? more (rest.dropWhile isSeparator) else none
    | _ => none

/-- The order in which operators are tried: none of them begins a later one. -/
def choices : List Operator :=
  [.isNotNull, .isNull, .isNot, .is, .notLike, .like, .gte, .lte, .ltGt, .ne, .eq, .gt, .lt]

/-- The first operator that a text begins with, and what is left behind it. -/
def take? (cs : List Char) : Option (Operator × List Char) :=
  choices.findSome? fun op => (skipWords? op.words cs).map (op, ·)

/-- The operator that a token spells. -/
def parse? (token : String) : Option Operator :=
  match take? (token.toList.dropWhile isSeparator) with
  | some (op, rest) => if rest.all isSeparator then some op else none
  | none => none

def toJson (op : Operator) : Json := .string op.name

def ofJson? (j : Json) : Option Operator := j.tag?.bind (named? all name)

end Operator
end BoundSql
