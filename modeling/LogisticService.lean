import LogisticService.Effects.Runs
import LogisticService.Text
import LogisticService.Json
import LogisticService.Inventory.Tables
import LogisticService.Server.Registry
import LogisticService.Server.Grants
import LogisticService.Server.Operation
import LogisticService.Inventory.Db
import LogisticService.Order.Validation
import LogisticService.Order.Stock
import LogisticService.Server.Updates
import LogisticService.Server.Steps
import LogisticService.Order.Sample
import LogisticService.Order.Totals
import LogisticService.Order.Intake
import LogisticService.Server.Observing
import LogisticService.Verify.Transfer
import LogisticService.Verify.Integrity
import LogisticService.Verify.Outcome
import LogisticService.Verify.Restock
import LogisticService.Verify.Commands
import LogisticService.Verify.Sockets
import LogisticService.Verify.Band
import LogisticService.Verify.Cleanup
import LogisticService.Verify.Vetting
import LogisticService.Verify.Transports
import LogisticService.Verify.Disjoint
import LogisticService.Verify.Framing
import LogisticService.Verify.Debits
import LogisticService.Verify.Session
import LogisticService.Verify.Menus
import LogisticService.SqlText
import LogisticService.Client.UserDb
import LogisticService.Client.Handshake
import LogisticService.Client.OrderForm
import LogisticService.Verify.UserSql
import LogisticService.Verify.Handshake
import LogisticService.Verify.OrderForm
import LogisticService.Verify.Conservation
import LogisticService.Verify.Limits
import LogisticService.Verify.SourceRow
import LogisticService.Verify.RestockAlerts
import LogisticService.Verify.Rejected
import LogisticService.Verify.Forwarding
import LogisticService.Verify.Addressee
import LogisticService.Verify.Counters
import LogisticService.Verify.EndOfInput
import LogisticService.Verify.MenuNumber
import LogisticService.Verify.Pipeline
import LogisticService.Verify.Ledger
import LogisticService.Verify.Replies
import LogisticService.Verify.Survival
import LogisticService.Verify.Reports
import LogisticService.Verify.Progress
import LogisticService.Verify.Connection
import LogisticService.Verify.TypedOrder
