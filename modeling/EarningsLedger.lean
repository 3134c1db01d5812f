import EarningsLedger.Text.Blank
import EarningsLedger.Text.DecimalDigit
import EarningsLedger.Text.Printable
import EarningsLedger.Text.Quoted
import EarningsLedger.Number.Decimal
import EarningsLedger.Number.FloatText
import EarningsLedger.Calendar.Iso
import EarningsLedger.Value.Equal
import EarningsLedger.Value.Text
import EarningsLedger.Json.Printer
import EarningsLedger.Json.Parser
import EarningsLedger.Number.FieldInt
import EarningsLedger.Number.ColumnInt
import EarningsLedger.Calendar.Lenient
import EarningsLedger.Calendar.Stamp
import EarningsLedger.Check.Rule
import EarningsLedger.Request.Form
import EarningsLedger.Ledger.ErrorCause
import EarningsLedger.Log.Entry
import EarningsLedger.Storage.Session
import EarningsLedger.Storage.Selection
import EarningsLedger.Ledger.Earning
import EarningsLedger.Ledger.Admission
import EarningsLedger.Ledger.Writing
import EarningsLedger.Message.Template
import EarningsLedger.Log.ColorLine
import EarningsLedger.Ledger.Call
import EarningsLedger.Log.Journal
import EarningsLedger.Settings.Sources
import EarningsLedger.Earning.Slip
import EarningsLedger.Ledger.Directory
import EarningsLedger.Log.Desk
import EarningsLedger.Schema.Script
import EarningsLedger.Proofs.FailureAtomicity
import EarningsLedger.Proofs.LedgerRefinement
import EarningsLedger.Proofs.SoundReads
import EarningsLedger.Proofs.ErrorClosure
import EarningsLedger.Proofs.RowFrames
import EarningsLedger.Proofs.AuditRecords
import EarningsLedger.Proofs.AuditTrail
import EarningsLedger.Proofs.CallCourses
import EarningsLedger.Proofs.LogDiscipline
import EarningsLedger.Proofs.KeysetWalks
import EarningsLedger.Proofs.TriggerSimulation
import EarningsLedger.Proofs.FreshIdentifiers
import EarningsLedger.Proofs.OwnerTotals
import EarningsLedger.Proofs.PositionWalks
import EarningsLedger.Proofs.ComputedAmounts
import EarningsLedger.Proofs.OverflowReports
import EarningsLedger.Proofs.MovedAmounts
import EarningsLedger.Proofs.ToldEarnings
import EarningsLedger.Proofs.BatchesOfSingles
import EarningsLedger.Proofs.AdjustmentOrder
import EarningsLedger.Proofs.AddressableEarnings
import EarningsLedger.Proofs.BoundedPages
import EarningsLedger.Proofs.PageLengthSettings
import EarningsLedger.Proofs.ComposedFilters
import EarningsLedger.Proofs.ClassifiedRequests
import EarningsLedger.Proofs.UnknownNames
import EarningsLedger.Proofs.FaithfulLines
import EarningsLedger.Proofs.LeastStamps
import EarningsLedger.Proofs.RoutedRecords
