import TableRecords.Record.Declaration
import TableRecords.Rehearsal.Step
import TableRecords.Rehearsal.StoreStep
import TableRecords.Proofs.Except
import TableRecords.Proofs.Action
import TableRecords.Proofs.Field.Binary
import TableRecords.Proofs.Field.Integer
import TableRecords.Proofs.Record.Lens
import TableRecords.Proofs.Mapping.Columns
import TableRecords.Proofs.Sql.Cutting
import TableRecords.Proofs.Sql.Token
import TableRecords.Proofs.Sql.Reading
import TableRecords.Proofs.Sql.Statements
import TableRecords.Proofs.Statement.ReadBack
import TableRecords.Proofs.Session.Trace
import TableRecords.Proofs.Session.Insert
import TableRecords.Proofs.Session.Serving
import TableRecords.Proofs.Session.Unread
import TableRecords.Proofs.Session.MissingKey
import TableRecords.Proofs.Session.Refused
import TableRecords.Proofs.Session.OneCall
import TableRecords.Proofs.Rehearsal.Script
import TableRecords.Proofs.Rehearsal.Operation
import TableRecords.Proofs.Mapping.Paths
import TableRecords.Proofs.Record.Fields
import TableRecords.Proofs.Scan.Row
import TableRecords.Proofs.Session.Assigned
import TableRecords.Proofs.Session.Batch
import TableRecords.Proofs.Scan.RoundTrip
import TableRecords.Proofs.Session.Rows
import TableRecords.Proofs.Mapping.WellFormed
import TableRecords.Proofs.Statement.Pattern
import TableRecords.Proofs.Embedded.Transaction
import TableRecords.Proofs.Sql.Identifier
import TableRecords.Proofs.Mapping.Modifier
import TableRecords.Proofs.Record.Derived
import TableRecords.Proofs.Embedded.Closing
import TableRecords.Proofs.Embedded.Kept
import TableRecords.Proofs.Sql.QuestionMark
import TableRecords.Proofs.Statement.Plan
import TableRecords.Proofs.Statement.Several
import TableRecords.Proofs.Statement.Update
import TableRecords.Proofs.Session.RowId
import TableRecords.Proofs.Json.Integer
import TableRecords.Proofs.Json.Members
import TableRecords.Proofs.Json.ReadBack
import TableRecords.Proofs.Scan.Copies
import TableRecords.Proofs.Text.Base64
import TableRecords.Proofs.Scan.Remainder
import TableRecords.Proofs.Scan.All
import TableRecords.Proofs.Session.First
import TableRecords.Proofs.Embedded.Token
import TableRecords.Proofs.Session.DeleteByKey
import TableRecords.Proofs.Embedded.Routing
import TableRecords.Proofs.Text.LetterCase
import TableRecords.Proofs.Mapping.Grammar
import TableRecords.Proofs.Mapping.Lookup
import TableRecords.Proofs.Record.Accessors
import TableRecords.Proofs.Field.Narrow
import TableRecords.Proofs.Record.NormalForm
import TableRecords.Proofs.Sql.Quoting
import TableRecords.Proofs.Statement.Select
import TableRecords.Proofs.Embedded.Boundary
