import TenantQueue.Calendar
import TenantQueue.CommandLine.Arguments
import TenantQueue.CommandLine.Dotenv
import TenantQueue.CommandLine.Run
import TenantQueue.Config
import TenantQueue.Decimal.Binary
import TenantQueue.Decimal.Digits
import TenantQueue.Decimal.Fixed
import TenantQueue.Decimal.Rounding
import TenantQueue.Decimal.Shortest
import TenantQueue.Environment
import TenantQueue.Error
import TenantQueue.Json.Reader
import TenantQueue.Json.Writer
import TenantQueue.Key
import TenantQueue.Keyed
import TenantQueue.LoadTest.Options
import TenantQueue.LoadTest.Profile
import TenantQueue.LoadTest.Rehearsal
import TenantQueue.LoadTest.Report
import TenantQueue.LoadTest.Round
import TenantQueue.LoadTest.Schedule
import TenantQueue.LoadTest.Test
import TenantQueue.Main
import TenantQueue.Pattern.Atom
import TenantQueue.Pattern.Brackets
import TenantQueue.Pattern.Check
import TenantQueue.Pattern.Switches
import TenantQueue.Proofs.Config
import TenantQueue.Proofs.Crew.Drain
import TenantQueue.Proofs.Crew.Holders
import TenantQueue.Proofs.Crew.Turnover
import TenantQueue.Proofs.Key
import TenantQueue.Proofs.Keyed
import TenantQueue.Proofs.LoadTest.Accounts
import TenantQueue.Proofs.LoadTest.Cancel
import TenantQueue.Proofs.LoadTest.Moves
import TenantQueue.Proofs.LoadTest.Outcome
import TenantQueue.Proofs.LoadTest.Profile
import TenantQueue.Proofs.LoadTest.Staff
import TenantQueue.Proofs.LoadTest.Steps
import TenantQueue.Proofs.LoadTest.Tokens
import TenantQueue.Proofs.LoadTest.Trail
import TenantQueue.Proofs.Queue.Arrivals
import TenantQueue.Proofs.Queue.Calls
import TenantQueue.Proofs.Queue.Counters
import TenantQueue.Proofs.Queue.Dedup
import TenantQueue.Proofs.Queue.Fairness
import TenantQueue.Proofs.Queue.Fleet
import TenantQueue.Proofs.Queue.History
import TenantQueue.Proofs.Queue.Idle
import TenantQueue.Proofs.Queue.Implements
import TenantQueue.Proofs.Queue.Isolation
import TenantQueue.Proofs.Queue.Items
import TenantQueue.Proofs.Queue.Linkage
import TenantQueue.Proofs.Queue.Listing
import TenantQueue.Proofs.Queue.Relabel
import TenantQueue.Proofs.Queue.Revolution
import TenantQueue.Proofs.Queue.RingCalls
import TenantQueue.Proofs.Queue.RingLayout
import TenantQueue.Proofs.Queue.Rota
import TenantQueue.Proofs.Queue.Rounds
import TenantQueue.Proofs.Queue.Scan
import TenantQueue.Proofs.Queue.Scheduler
import TenantQueue.Proofs.Queue.Stepping
import TenantQueue.Proofs.Queue.StraySlash
import TenantQueue.Proofs.Queue.Wakeup
import TenantQueue.Proofs.Text.ByteOrder
import TenantQueue.Proofs.Text.Numeral
import TenantQueue.Queue.Crew
import TenantQueue.Queue.Dedup
import TenantQueue.Queue.Effects
import TenantQueue.Queue.Fair
import TenantQueue.Queue.Fifo
import TenantQueue.Queue.Monitor
import TenantQueue.Queue.Ring
import TenantQueue.Queue.WorkQueue
import TenantQueue.Telemetry.Endpoint
import TenantQueue.Telemetry.Event
import TenantQueue.Telemetry.Filter
import TenantQueue.Telemetry.Meter
import TenantQueue.Telemetry.Reconcile
import TenantQueue.Telemetry.Start
import TenantQueue.Text.Alphanumeric
import TenantQueue.Text.Blank
import TenantQueue.Text.CodePoints
import TenantQueue.Text.GraphemeExtend
import TenantQueue.Text.Hexadecimal
import TenantQueue.Text.Numeral
import TenantQueue.Text.Numeric
import TenantQueue.Text.Quoted
import TenantQueue.Text.Raw
import TenantQueue.Text.Terminal
import TenantQueue.Text.Unprintable
import TenantQueue.Toml.Document
import TenantQueue.Toml.Lexeme
import TenantQueue.Toml.Number
import TenantQueue.Toml.Table
