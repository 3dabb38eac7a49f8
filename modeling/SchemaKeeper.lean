import SchemaKeeper.Migration.Automatic
import SchemaKeeper.Migration.Migrator
import SchemaKeeper.Model.Declaration
import SchemaKeeper.Proofs.Catalog.Asking
import SchemaKeeper.Proofs.Catalog.Constraints
import SchemaKeeper.Proofs.Catalog.DeclaredTypes
import SchemaKeeper.Proofs.Catalog.Faithful
import SchemaKeeper.Proofs.Catalog.Indexes
import SchemaKeeper.Proofs.Catalog.Readers
import SchemaKeeper.Proofs.Catalog.Replies
import SchemaKeeper.Proofs.Column.Spelling
import SchemaKeeper.Proofs.Column.Type
import SchemaKeeper.Proofs.Comparison.BareDefaults
import SchemaKeeper.Proofs.Comparison.CarryingOut
import SchemaKeeper.Proofs.Comparison.Listing
import SchemaKeeper.Proofs.Comparison.Meanings
import SchemaKeeper.Proofs.Comparison.NumberDefaults
import SchemaKeeper.Proofs.Comparison.OwnDefaults
import SchemaKeeper.Proofs.Comparison.Reported
import SchemaKeeper.Proofs.Comparison.RereadDefaults
import SchemaKeeper.Proofs.Comparison.Unreported
import SchemaKeeper.Proofs.Connection.Transaction
import SchemaKeeper.Proofs.Dialect.Backslashes
import SchemaKeeper.Proofs.Dialect.Phrases
import SchemaKeeper.Proofs.Dialect.ReportedDefaults
import SchemaKeeper.Proofs.Dialect.Statements
import SchemaKeeper.Proofs.Dialect.TypeNames
import SchemaKeeper.Proofs.Ledger.Layers
import SchemaKeeper.Proofs.Ledger.Operations
import SchemaKeeper.Proofs.Ledger.Rows
import SchemaKeeper.Proofs.Ledger.SqlTable
import SchemaKeeper.Proofs.Ledger.Store
import SchemaKeeper.Proofs.Migration.DryRun
import SchemaKeeper.Proofs.Migration.GuardedCourse
import SchemaKeeper.Proofs.Migration.Keys
import SchemaKeeper.Proofs.Migration.Restoring
import SchemaKeeper.Proofs.Migration.Series
import SchemaKeeper.Proofs.Migration.Unchanged
import SchemaKeeper.Proofs.Migrator.Applying
import SchemaKeeper.Proofs.Migrator.BatchNumbers
import SchemaKeeper.Proofs.Migrator.Carrying
import SchemaKeeper.Proofs.Migrator.Readiness
import SchemaKeeper.Proofs.Migrator.Reading
import SchemaKeeper.Proofs.Migrator.RoundTrip
import SchemaKeeper.Proofs.Migrator.Session
import SchemaKeeper.Proofs.Migrator.Succeeding
import SchemaKeeper.Proofs.Migrator.Undoing
import SchemaKeeper.Proofs.Model.Collecting
import SchemaKeeper.Proofs.Model.FieldLists
import SchemaKeeper.Proofs.Model.Flags
import SchemaKeeper.Proofs.Model.Lifetimes
import SchemaKeeper.Proofs.Model.NormalDefaults
import SchemaKeeper.Proofs.Model.Slicing
import SchemaKeeper.Proofs.Model.Slots
import SchemaKeeper.Proofs.Model.Standing
import SchemaKeeper.Proofs.Model.Tokens
import SchemaKeeper.Proofs.Model.Wrapping
import SchemaKeeper.Proofs.Model.Written
import SchemaKeeper.Proofs.Number.LetterCase
import SchemaKeeper.Proofs.Number.Rounding
import SchemaKeeper.Proofs.Schema.Creation
import SchemaKeeper.Proofs.Schema.IndexNames
import SchemaKeeper.Proofs.Schema.Items
import SchemaKeeper.Proofs.Schema.KeyEntries
import SchemaKeeper.Proofs.Schema.Plan
import SchemaKeeper.Proofs.Schema.Rendering
import SchemaKeeper.Proofs.Schema.SingleColumns
import SchemaKeeper.Proofs.Sql.Body
import SchemaKeeper.Proofs.Sql.Lexeme
import SchemaKeeper.Proofs.Sql.Token
import SchemaKeeper.Proofs.Text.LetterCase
import SchemaKeeper.Proofs.Text.NameWords
import SchemaKeeper.Proofs.Text.Padding
import SchemaKeeper.Proofs.Text.Slices
import SchemaKeeper.Proofs.Text.Trimming
import SchemaKeeper.Proofs.Text.Words
import SchemaKeeper.Schema.Step
