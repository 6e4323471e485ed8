import ParcelDesk.Calendar.Civil
import ParcelDesk.Calendar.Date
import ParcelDesk.Calendar.Instant
import ParcelDesk.Calendar.Scan
import ParcelDesk.Call
import ParcelDesk.Command
import ParcelDesk.CommandLine.Arguments
import ParcelDesk.CommandLine.Disk
import ParcelDesk.CommandLine.Program
import ParcelDesk.Decimal.Shortest
import ParcelDesk.Desk
import ParcelDesk.Error
import ParcelDesk.Event
import ParcelDesk.Identifiers
import ParcelDesk.Json.Fault
import ParcelDesk.Json.Lexeme
import ParcelDesk.Json.Reader
import ParcelDesk.Json.Value
import ParcelDesk.Main
import ParcelDesk.Order
import ParcelDesk.Packaging
import ParcelDesk.Pool.Activity
import ParcelDesk.Pool.Basic
import ParcelDesk.Pool.Rest
import ParcelDesk.Pool.Worker
import ParcelDesk.Proofs.Calendar.Civil
import ParcelDesk.Proofs.Calendar.Names
import ParcelDesk.Proofs.Calendar.Scan
import ParcelDesk.Proofs.Calendar.Spans
import ParcelDesk.Proofs.Call.Clock
import ParcelDesk.Proofs.Call.Faults
import ParcelDesk.Proofs.Call.Punctual
import ParcelDesk.Proofs.Call.Rules
import ParcelDesk.Proofs.Call.Runs
import ParcelDesk.Proofs.Call.Steps
import ParcelDesk.Proofs.CommandLine.Saving
import ParcelDesk.Proofs.Desk.Accepting
import ParcelDesk.Proofs.Desk.Agreement
import ParcelDesk.Proofs.Desk.Alone
import ParcelDesk.Proofs.Desk.Commands
import ParcelDesk.Proofs.Desk.Commuting
import ParcelDesk.Proofs.Desk.Counter
import ParcelDesk.Proofs.Desk.Crashes
import ParcelDesk.Proofs.Desk.Cursors
import ParcelDesk.Proofs.Desk.Deeds
import ParcelDesk.Proofs.Desk.Endings
import ParcelDesk.Proofs.Desk.Faults
import ParcelDesk.Proofs.Desk.Giving
import ParcelDesk.Proofs.Desk.Journal
import ParcelDesk.Proofs.Desk.Leaves
import ParcelDesk.Proofs.Desk.Lifecycle
import ParcelDesk.Proofs.Desk.Listings
import ParcelDesk.Proofs.Desk.News
import ParcelDesk.Proofs.Desk.Pages
import ParcelDesk.Proofs.Desk.Refunding
import ParcelDesk.Proofs.Desk.Reopening
import ParcelDesk.Proofs.Desk.Replay
import ParcelDesk.Proofs.Desk.SendingBack
import ParcelDesk.Proofs.Desk.Serial
import ParcelDesk.Proofs.Desk.Settled
import ParcelDesk.Proofs.Desk.Verdicts
import ParcelDesk.Proofs.Desk.Walk
import ParcelDesk.Proofs.Json.Lexeme
import ParcelDesk.Proofs.Json.Octets
import ParcelDesk.Proofs.Json.Reads
import ParcelDesk.Proofs.Json.Records
import ParcelDesk.Proofs.Json.Yields
import ParcelDesk.Proofs.Pool.Acts
import ParcelDesk.Proofs.Pool.Bounds
import ParcelDesk.Proofs.Pool.Closing
import ParcelDesk.Proofs.Pool.Conduct
import ParcelDesk.Proofs.Pool.Deeds
import ParcelDesk.Proofs.Pool.Dues
import ParcelDesk.Proofs.Pool.Farewell
import ParcelDesk.Proofs.Pool.Floor
import ParcelDesk.Proofs.Pool.Flushing
import ParcelDesk.Proofs.Pool.Lines
import ParcelDesk.Proofs.Pool.Pending
import ParcelDesk.Proofs.Pool.Resizing
import ParcelDesk.Proofs.Pool.Runs
import ParcelDesk.Proofs.Pool.Sizes
import ParcelDesk.Proofs.Pool.Steps
import ParcelDesk.Proofs.Pool.Workshop
import ParcelDesk.Proofs.Relational.Commits
import ParcelDesk.Proofs.Relational.Granted
import ParcelDesk.Proofs.Relational.Growth
import ParcelDesk.Proofs.Relational.Interchange
import ParcelDesk.Proofs.Relational.Legible
import ParcelDesk.Proofs.Relational.Listings
import ParcelDesk.Proofs.Relational.Mirror
import ParcelDesk.Proofs.Relational.ReadBack
import ParcelDesk.Proofs.Relational.Reads
import ParcelDesk.Proofs.Relational.Refusals
import ParcelDesk.Proofs.Relational.Rows
import ParcelDesk.Proofs.Relational.Runs
import ParcelDesk.Proofs.Relational.Works
import ParcelDesk.Proofs.Relational.Writes
import ParcelDesk.Proofs.Report.Decoding
import ParcelDesk.Proofs.Report.Listing
import ParcelDesk.Proofs.Session.Affairs
import ParcelDesk.Proofs.Session.Answers
import ParcelDesk.Proofs.Session.Books
import ParcelDesk.Proofs.Session.InTurn
import ParcelDesk.Proofs.Session.Order
import ParcelDesk.Proofs.Session.Rows
import ParcelDesk.Proofs.Session.Saves
import ParcelDesk.Proofs.Session.Shutdown
import ParcelDesk.Proofs.Session.Solo
import ParcelDesk.Proofs.Session.Tickets
import ParcelDesk.Proofs.Session.Turns
import ParcelDesk.Proofs.Session.Work
import ParcelDesk.Proofs.Sheet.Apart
import ParcelDesk.Proofs.Sheet.Cells
import ParcelDesk.Proofs.Sheet.Instructions
import ParcelDesk.Proofs.Sheet.Layout
import ParcelDesk.Proofs.Sheet.Octets
import ParcelDesk.Proofs.Sheet.Rows
import ParcelDesk.Proofs.Store.Alike
import ParcelDesk.Proofs.Store.Atomic
import ParcelDesk.Proofs.Store.Cursor
import ParcelDesk.Proofs.Store.Document
import ParcelDesk.Proofs.Store.Exchange
import ParcelDesk.Proofs.Store.Handing
import ParcelDesk.Proofs.Store.History
import ParcelDesk.Proofs.Store.Holdings
import ParcelDesk.Proofs.Store.Places
import ParcelDesk.Proofs.Store.Rack
import ParcelDesk.Proofs.Store.Requests
import ParcelDesk.Proofs.Store.Showing
import ParcelDesk.Proofs.Store.Soundness
import ParcelDesk.Proofs.Store.Stock
import ParcelDesk.Proofs.Store.Tearing
import ParcelDesk.Proofs.Store.Turnover
import ParcelDesk.Proofs.Text.Blank
import ParcelDesk.Proofs.Text.Numeral
import ParcelDesk.Proofs.Text.Octets
import ParcelDesk.Proofs.Text.Pieces
import ParcelDesk.Relational.Database
import ParcelDesk.Relational.Rows
import ParcelDesk.Relational.Statement
import ParcelDesk.Relational.Store
import ParcelDesk.Relational.Work
import ParcelDesk.Report
import ParcelDesk.Request
import ParcelDesk.Session.Basic
import ParcelDesk.Session.Run
import ParcelDesk.Sheet.Cells
import ParcelDesk.Sheet.Instructions
import ParcelDesk.Sheet.Row
import ParcelDesk.Store.Document
import ParcelDesk.Store.History
import ParcelDesk.Store.Holdings
import ParcelDesk.Store.IdMap
import ParcelDesk.Store.Rack
import ParcelDesk.Store.RefundQueue
import ParcelDesk.Store.Stock
import ParcelDesk.Text.Blank
import ParcelDesk.Text.Numeral
import ParcelDesk.Text.Octets
import ParcelDesk.Text.Pieces
import ParcelDesk.Text.Quoted
import ParcelDesk.Text.Visible
