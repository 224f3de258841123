import Invalidation.Text.Basic
import Invalidation.Text.Blank
import Invalidation.Text.Digits
import Invalidation.Text.Printable
import Invalidation.Text.Quoted
import Invalidation.Text.Upper
import Invalidation.Text.Encoding
import Invalidation.Decimal.Binary
import Invalidation.Decimal.Shortest
import Invalidation.Decimal.Notation
import Invalidation.Decimal.Round
import Invalidation.Decimal.Reading
import Invalidation.Json.Basic
import Invalidation.Json.Read
import Invalidation.Json.Write
import Invalidation.Json.Display
import Invalidation.Json.Access
import Invalidation.Json.Order
import Invalidation.Sort.Search
import Invalidation.Sort.Run
import Invalidation.Sort.Merge
import Invalidation.Sort
import Invalidation.Fault
import Invalidation.IdSet
import Invalidation.Log
import Invalidation.Roster
import Invalidation.Num
import Invalidation.Stopwatch
import Invalidation.Journal
import Invalidation.Registry.Basic
import Invalidation.Registry.Notify
import Invalidation.Registry.Report
import Invalidation.Script.Command
import Invalidation.Script.Cast
import Invalidation.Script.Play
import Invalidation.Settings.Basic
import Invalidation.Settings.Environment
import Invalidation.Settings.Coerce
import Invalidation.Disk
import Invalidation.Settings.Files
import Invalidation.Settings.Build
import Invalidation.Graph.Adjacency
import Invalidation.Graph.Basic
import Invalidation.Graph.Search
import Invalidation.Graph.Edit
import Invalidation.Identifier.Basic
import Invalidation.Identifier.Scheme
import Invalidation.Identifier.Dynamic
import Invalidation.Session.Script
import Invalidation.Session.Timing
import Invalidation.Session.Settings
import Invalidation.Session.Answer
import Invalidation.Proofs.Adjacency
import Invalidation.Proofs.Reach
import Invalidation.Proofs.Scheme
import Invalidation.Proofs.Wellformed
import Invalidation.Proofs.Run
import Invalidation.Proofs.Sound
import Invalidation.Proofs.Calls
import Invalidation.Proofs.Frame
import Invalidation.Proofs.Order
import Invalidation.Proofs.Listeners
import Invalidation.Proofs.Visits
import Invalidation.Proofs.Charges
import Invalidation.Proofs.Records
import Invalidation.Proofs.Twins
import Invalidation.Proofs.Replay
import Invalidation.Proofs.Register
import Invalidation.Proofs.Cycle
import Invalidation.Proofs.Sorting
import Invalidation.Proofs.Stable
import Invalidation.Proofs.Reportable
import Invalidation.Proofs.Scripted
import Invalidation.Proofs.Reentry
import Invalidation.Proofs.Report
import Invalidation.Proofs.Canonical
import Invalidation.Proofs.Queries
import Invalidation.Proofs.Removal
import Invalidation.Proofs.Classes
import Invalidation.Proofs.Create
import Invalidation.Proofs.Reorder
import Invalidation.Proofs.Loading
import Invalidation.Proofs.Rounding
import Invalidation.Proofs.NearestDouble
import Invalidation.Proofs.Shortest
import Invalidation.Proofs.NumberText
import Invalidation.Proofs.StringText
import Invalidation.Proofs.DocumentText
import Invalidation.Proofs.SettingsText
import Invalidation.Proofs.JournalQuery
import Invalidation.Proofs.SearchBounds
import Invalidation.Proofs.Overrides
