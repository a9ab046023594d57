import BoundSql.Main
import BoundSql.Proofs.Arguments
import BoundSql.Proofs.Arms
import BoundSql.Proofs.Assembly
import BoundSql.Proofs.Assignments
import BoundSql.Proofs.BlankNames
import BoundSql.Proofs.Building
import BoundSql.Proofs.Dialects
import BoundSql.Proofs.Literals
import BoundSql.Proofs.NullTest
import BoundSql.Proofs.Outline
import BoundSql.Proofs.Overwriting
import BoundSql.Proofs.Placeholders
import BoundSql.Proofs.Predicate.Where
import BoundSql.Proofs.Presentation.Rewriting
import BoundSql.Proofs.Qualified
import BoundSql.Proofs.QuotedNames
import BoundSql.Proofs.Reading.Query
import BoundSql.Proofs.Reading.Table
import BoundSql.Proofs.Reload.Stable
import BoundSql.Proofs.Reload.Texts
import BoundSql.Proofs.Renaming.Query
import BoundSql.Proofs.Renewal
import BoundSql.Proofs.Rows
import BoundSql.Proofs.SetMembers
import BoundSql.Proofs.Spelling
import BoundSql.Proofs.Subquery
import BoundSql.Proofs.Transmission
import BoundSql.Proofs.Wildcard
