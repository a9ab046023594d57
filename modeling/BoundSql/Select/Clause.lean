import BoundSql.Select.Basic

/-!
# Clauses

The parts of a statement that hold no predicate: raw SQL, joins, groupings, limits and the sort.
Limits and the sort bring their own leading space; an absent clause has no text.
-/
namespace BoundSql

def RawSql.sql (r : RawSql) : Fragment := .bound r.text r.bindings

namespace Join

/-- Join keys are qualified only by their own qualifiers. -/
def sql (s : Scope) : Join → Fragment
  | .table kind joined tableAlias primaryKey foreignKey =>
    .ofText (kind.keyword ++ " " ++ s.aliased (s.quote joined) tableAlias ++ " ON " ++
      s.columnOwn primaryKey ++ " = " ++ s.columnOwn foreignKey)
  | .raw kind r => .ofText (kind.keyword ++ " ") ++ r.sql

/-- Joins with a space between them. -/
def clause (s : Scope) (joins : List Join) : Fragment := .joined " " (joins.map (sql s))

end Join

namespace Grouping

def sql (s : Scope) : Grouping → Fragment
  | .column c => .ofText (s.column c)
  | .raw r => r.sql

/-- `GROUP BY a,b`. -/
def clause (s : Scope) (groups : List Grouping) : Fragment :=
  (Fragment.joined "," (groups.map (sql s))).surrounded "GROUP BY " ""

end Grouping

namespace Limits

/-- ` LIMIT ?` and ` OFFSET ?`. An offset alone needs a limit, which then is the dialect's count
for all rows. -/
def clause (s : Scope) (l : Limits) : Fragment :=
  let limit :=
    if 0 < l.limit then (Fragment.ofText " LIMIT ").pushBound s.placeholder (.uint l.limit)
    else if 0 < l.offset then .ofText (" LIMIT " ++ Number.natText s.dialect.maxRowCount.toNat)
    else .empty
  if 0 < l.offset then (limit.push " OFFSET ").pushBound s.placeholder (.uint l.offset) else limit

/-- ` LIMIT ?` alone. -/
def limitClause (s : Scope) (l : Limits) : Fragment :=
  if 0 < l.limit then (Fragment.ofText " LIMIT ").pushBound s.placeholder (.uint l.limit)
  else .empty

end Limits

namespace SortKey

/-- ` ORDER BY ? ?`, with the column and the direction bound as texts. -/
def sql (s : Scope) (k : SortKey) : Fragment :=
  (((Fragment.ofText " ORDER BY ").pushBound s.placeholder (.string k.column)).push " ").pushBound
    s.placeholder (.string k.direction.keyword)

def clause (s : Scope) : Option SortKey → Fragment
  | some k => k.sql s
  | none => .empty

end SortKey
end BoundSql
