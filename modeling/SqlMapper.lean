import SqlMapper.Entity.Document
import SqlMapper.ModelQuery
import SqlMapper.Relation.Pivot
import SqlMapper.Session.Script
import SqlMapper.Url.Database
import SqlMapper.Proofs.Eager.Checked
import SqlMapper.Proofs.Eager.Lazy
import SqlMapper.Proofs.Eager.Narrowed
import SqlMapper.Proofs.Eager.Visits
import SqlMapper.Proofs.Entity.Addressed
import SqlMapper.Proofs.Entity.Outcome
import SqlMapper.Proofs.Entity.Snapshot
import SqlMapper.Proofs.Query.Bulk
import SqlMapper.Proofs.Query.Rendered
import SqlMapper.Proofs.Query.Sliced
import SqlMapper.Proofs.Relation.Apart
import SqlMapper.Proofs.Relation.Constrained
import SqlMapper.Proofs.Relation.Keyless
import SqlMapper.Proofs.Relation.Linked
import SqlMapper.Proofs.Relation.PivotRow
import SqlMapper.Proofs.Relation.Transaction
import SqlMapper.Proofs.Schema.LoadOrder
import SqlMapper.Proofs.Session.Assigned
import SqlMapper.Proofs.Session.Call
import SqlMapper.Proofs.Session.Supported
import SqlMapper.Proofs.Sql.Grammar
import SqlMapper.Proofs.Sql.Grid
import SqlMapper.Proofs.Sql.Legible
import SqlMapper.Proofs.Sql.Parentheses
import SqlMapper.Proofs.Sql.Placeholders
import SqlMapper.Proofs.Sql.Tiling
import SqlMapper.Proofs.Timestamp.TextOrder
import SqlMapper.Proofs.Url.FilePath
