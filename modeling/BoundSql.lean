import BoundSql.Text.Quoted
import BoundSql.Text.Split
import BoundSql.Number.Layout
import BoundSql.Number.Integer
import BoundSql.Number.Decimal
import BoundSql.Value.Listing
import BoundSql.Expr.Writer
import BoundSql.Builder.Select
import BoundSql.Builder.Insert
import BoundSql.Builder.Update
import BoundSql.Builder.Delete
import BoundSql.Session
import BoundSql.Sqlite.Config
import BoundSql.Sqlite.Failure
import BoundSql.Sqlite.Storage
import BoundSql.Sqlite.Table
import BoundSql.Main
import BoundSql.Proofs.Expr.Fold
import BoundSql.Proofs.Script
import BoundSql.Proofs.Expr.Visit
import BoundSql.Proofs.Expr.Relabel
import BoundSql.Proofs.Expr.Slots
import BoundSql.Proofs.Template
import BoundSql.Proofs.Secrecy
import BoundSql.Proofs.Expr.Layout
import BoundSql.Proofs.Lexeme
import BoundSql.Proofs.Builder.Select
import BoundSql.Proofs.Outline
import BoundSql.Proofs.Readback
import BoundSql.Proofs.Builder.Clauses
import BoundSql.Proofs.Trace
import BoundSql.Proofs.Database
import BoundSql.Proofs.Session
import BoundSql.Proofs.Fetch
import BoundSql.Proofs.Placeholders
import BoundSql.Proofs.Expr.Rewrite
import BoundSql.Proofs.Unsupported
import BoundSql.Proofs.Text.Spacing
import BoundSql.Proofs.Expr.Spacing
import BoundSql.Proofs.Command.Draft
import BoundSql.Proofs.Command.Sentence
import BoundSql.Proofs.Conditions
import BoundSql.Proofs.Changes
import BoundSql.Proofs.Model
import BoundSql.Proofs.Quoting
import BoundSql.Proofs.Expr.Synonyms
import BoundSql.Proofs.Lookup
import BoundSql.Proofs.Value.Options
import BoundSql.Proofs.Recording
import BoundSql.Proofs.Number.Rounding
import BoundSql.Proofs.Number.Binary64
import BoundSql.Proofs.Number.Integer
import BoundSql.Proofs.Number.Decimal
import BoundSql.Proofs.Command.Filter
import BoundSql.Proofs.Sqlite.Storage
import BoundSql.Proofs.MySql.StringLiteral
import BoundSql.Proofs.Command.Report
import BoundSql.Proofs.Command.Run
