import RowMapper.Calendar
import RowMapper.Cell
import RowMapper.Collection.Basic
import RowMapper.Collection.Command
import RowMapper.Collection.Error
import RowMapper.Collection.Query
import RowMapper.Collection.Row
import RowMapper.ConnectionString
import RowMapper.Error
import RowMapper.Expr.Basic
import RowMapper.Expr.Inspect
import RowMapper.Expr.Operator
import RowMapper.Instance
import RowMapper.Lease.Config
import RowMapper.Lease.Manager
import RowMapper.Lease.Pool
import RowMapper.Lease.Tenancy
import RowMapper.Log
import RowMapper.Mapping.Declaration
import RowMapper.Mapping.Naming
import RowMapper.Mapping.Registry
import RowMapper.Mapping.Resolution
import RowMapper.Mapping.Resolved
import RowMapper.Model
import RowMapper.Number.Binary
import RowMapper.Number.Decimal
import RowMapper.Number.Shortest
import RowMapper.Proofs.Acceptance
import RowMapper.Proofs.Attempts
import RowMapper.Proofs.CascadingDeletion
import RowMapper.Proofs.CellHistory
import RowMapper.Proofs.ChangesWritten
import RowMapper.Proofs.CharacterBoundaries
import RowMapper.Proofs.CleanFailure
import RowMapper.Proofs.Coherence
import RowMapper.Proofs.ColumnReferences
import RowMapper.Proofs.CompileEquations
import RowMapper.Proofs.CompiledText
import RowMapper.Proofs.Conversions
import RowMapper.Proofs.DatabaseKeys
import RowMapper.Proofs.Decoding
import RowMapper.Proofs.Derivation
import RowMapper.Proofs.DialectAgreement
import RowMapper.Proofs.ExactNumber
import RowMapper.Proofs.Exchange
import RowMapper.Proofs.FromClause
import RowMapper.Proofs.Grammar
import RowMapper.Proofs.HostTexts
import RowMapper.Proofs.Independence
import RowMapper.Proofs.InsertedRow
import RowMapper.Proofs.KeptScopes
import RowMapper.Proofs.KeyTemplates
import RowMapper.Proofs.KeyVariables
import RowMapper.Proofs.Lease.Account
import RowMapper.Proofs.Lease.Acquiring
import RowMapper.Proofs.Lease.Balance
import RowMapper.Proofs.Lease.Connections
import RowMapper.Proofs.Lease.Conservation
import RowMapper.Proofs.Lease.Custody
import RowMapper.Proofs.Lease.Elapsing
import RowMapper.Proofs.Lease.Entries
import RowMapper.Proofs.Lease.Halves
import RowMapper.Proofs.Lease.Holders
import RowMapper.Proofs.Lease.Leaving
import RowMapper.Proofs.Lease.Ledger
import RowMapper.Proofs.Lease.Lifetime
import RowMapper.Proofs.Lease.Operating
import RowMapper.Proofs.Lease.Operations
import RowMapper.Proofs.Lease.Ownership
import RowMapper.Proofs.Lease.Safekeeping
import RowMapper.Proofs.Lease.Steps
import RowMapper.Proofs.Lease.Sweeping
import RowMapper.Proofs.LeaseReturned
import RowMapper.Proofs.Legality
import RowMapper.Proofs.Legible
import RowMapper.Proofs.Lexeme
import RowMapper.Proofs.Likeness
import RowMapper.Proofs.LoadedMembers
import RowMapper.Proofs.Masked
import RowMapper.Proofs.MaskedOperations
import RowMapper.Proofs.MemberTypes
import RowMapper.Proofs.Memoization
import RowMapper.Proofs.Navigation
import RowMapper.Proofs.NodeStack
import RowMapper.Proofs.Noninterference
import RowMapper.Proofs.Outcome
import RowMapper.Proofs.Parentheses
import RowMapper.Proofs.PasswordTexts
import RowMapper.Proofs.Placeholders
import RowMapper.Proofs.QueriedRows
import RowMapper.Proofs.QuotedNames
import RowMapper.Proofs.Reading
import RowMapper.Proofs.Renamed
import RowMapper.Proofs.Rendering
import RowMapper.Proofs.Resolution
import RowMapper.Proofs.ResultViews
import RowMapper.Proofs.Routines
import RowMapper.Proofs.RowRoundTrip
import RowMapper.Proofs.RuleOrder
import RowMapper.Proofs.ScopeSteps
import RowMapper.Proofs.SelectionCalls
import RowMapper.Proofs.Sending
import RowMapper.Proofs.SeparatedPieces
import RowMapper.Proofs.SharedJoins
import RowMapper.Proofs.Slots
import RowMapper.Proofs.StatementText
import RowMapper.Proofs.StoredRow
import RowMapper.Proofs.TakenRow
import RowMapper.Proofs.Transparency
import RowMapper.Proofs.Unrevealed
import RowMapper.Proofs.UrlReading
import RowMapper.Proofs.Vocabulary
import RowMapper.Proofs.WrittenCommands
import RowMapper.Result.Basic
import RowMapper.Result.Cursor
import RowMapper.Sample.Company
import RowMapper.Sample.Databases
import RowMapper.Server
import RowMapper.Session
import RowMapper.Sql.Compile
import RowMapper.Sql.CompileError
import RowMapper.Sql.Dialect
import RowMapper.Sql.KeyStrategy
import RowMapper.Sql.Rule
import RowMapper.Sql.Scope
import RowMapper.Sql.Token
import RowMapper.Statement.Basic
import RowMapper.Statement.Clause
import RowMapper.Statement.Command
import RowMapper.Statement.Selection
import RowMapper.Text.Blank
import RowMapper.Text.Cased
import RowMapper.Text.Cluster
import RowMapper.Text.CodePoint
import RowMapper.Text.Composed
import RowMapper.Text.Digits
import RowMapper.Text.Escaped
import RowMapper.Text.Hex
import RowMapper.Text.Invisible
import RowMapper.Text.LetterCase
import RowMapper.Text.Mark
import RowMapper.Text.Separated
import RowMapper.Text.SnakeCase
import RowMapper.Text.Substituted
import RowMapper.Text.Truncated
import RowMapper.Text.Utf8
import RowMapper.Url.Basic
import RowMapper.Url.Domain
import RowMapper.Url.Domain.Direction
import RowMapper.Url.Domain.Folded
import RowMapper.Url.Domain.Joining
import RowMapper.Url.Host
import RowMapper.Url.Path
import RowMapper.Url.Percent
import RowMapper.Url.Punycode
import RowMapper.Url.Reader
import RowMapper.Uuid
import RowMapper.Value.Basic
import RowMapper.Value.Inspect
import RowMapper.Value.Native
import RowMapper.Value.Written
