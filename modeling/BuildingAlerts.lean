import BuildingAlerts.Agenda.Basic
import BuildingAlerts.Agenda.Delay
import BuildingAlerts.Agenda.Run
import BuildingAlerts.Agenda.Timetable
import BuildingAlerts.Alert.Basic
import BuildingAlerts.Alert.Store
import BuildingAlerts.CommandLine.Options
import BuildingAlerts.CommandLine.Session
import BuildingAlerts.Condition.Basic
import BuildingAlerts.Condition.Evaluation
import BuildingAlerts.Condition.Filter
import BuildingAlerts.Condition.Template
import BuildingAlerts.Condition.Threshold
import BuildingAlerts.ControlRoom.Basic
import BuildingAlerts.ControlRoom.Configurations
import BuildingAlerts.ControlRoom.Delivery
import BuildingAlerts.ControlRoom.Escalation
import BuildingAlerts.ControlRoom.Notification
import BuildingAlerts.ControlRoom.Office
import BuildingAlerts.ControlRoom.Pass
import BuildingAlerts.ControlRoom.Program
import BuildingAlerts.ControlRoom.Retry
import BuildingAlerts.Decimal.Binary
import BuildingAlerts.Decimal.Layout
import BuildingAlerts.Decimal.Numeral
import BuildingAlerts.Decimal.Shortest
import BuildingAlerts.Delivery.Address
import BuildingAlerts.Delivery.Document
import BuildingAlerts.Delivery.Exchange
import BuildingAlerts.Delivery.Mail
import BuildingAlerts.Digest.Sha256
import BuildingAlerts.Document.Configuration
import BuildingAlerts.Document.Given
import BuildingAlerts.Document.Lenient
import BuildingAlerts.Document.Notification
import BuildingAlerts.Document.Schema
import BuildingAlerts.Document.Taking
import BuildingAlerts.Fault
import BuildingAlerts.Ident
import BuildingAlerts.Json.Access
import BuildingAlerts.Json.Basic
import BuildingAlerts.Json.Printer
import BuildingAlerts.Json.Reader
import BuildingAlerts.Json.Shown
import BuildingAlerts.Logging.Context
import BuildingAlerts.Logging.Line
import BuildingAlerts.Logging.Message
import BuildingAlerts.Logging.Setup
import BuildingAlerts.Logging.Timing
import BuildingAlerts.Main
import BuildingAlerts.Metric.Aggregation
import BuildingAlerts.Metric.Reading
import BuildingAlerts.Metric.Summation
import BuildingAlerts.Notification.Document
import BuildingAlerts.Notification.Limiter
import BuildingAlerts.Notification.Log
import BuildingAlerts.Notification.Policy
import BuildingAlerts.Notification.Recipient
import BuildingAlerts.Notification.Rendering
import BuildingAlerts.Notification.Routing
import BuildingAlerts.Number
import BuildingAlerts.Proofs.Agenda.Alone
import BuildingAlerts.Proofs.Agenda.Asked
import BuildingAlerts.Proofs.Agenda.Awaiting
import BuildingAlerts.Proofs.Agenda.Beginning
import BuildingAlerts.Proofs.Agenda.Beside
import BuildingAlerts.Proofs.Agenda.Bookings
import BuildingAlerts.Proofs.Agenda.Calm
import BuildingAlerts.Proofs.Agenda.Collecting
import BuildingAlerts.Proofs.Agenda.Events
import BuildingAlerts.Proofs.Agenda.Faithful
import BuildingAlerts.Proofs.Agenda.Fated
import BuildingAlerts.Proofs.Agenda.History
import BuildingAlerts.Proofs.Agenda.Keeping
import BuildingAlerts.Proofs.Agenda.Keys
import BuildingAlerts.Proofs.Agenda.Marks
import BuildingAlerts.Proofs.Agenda.News
import BuildingAlerts.Proofs.Agenda.Only
import BuildingAlerts.Proofs.Agenda.Process
import BuildingAlerts.Proofs.Agenda.Queue
import BuildingAlerts.Proofs.Agenda.Reporting
import BuildingAlerts.Proofs.Agenda.Roster
import BuildingAlerts.Proofs.Agenda.Run
import BuildingAlerts.Proofs.Agenda.Soundness
import BuildingAlerts.Proofs.Agenda.Telling
import BuildingAlerts.Proofs.Agenda.Timetable
import BuildingAlerts.Proofs.Agenda.Turn
import BuildingAlerts.Proofs.Agenda.Waking
import BuildingAlerts.Proofs.Agenda.Working
import BuildingAlerts.Proofs.Alert.Growth
import BuildingAlerts.Proofs.Alert.Registration
import BuildingAlerts.Proofs.Alert.Spacing
import BuildingAlerts.Proofs.Condition.Arrival
import BuildingAlerts.Proofs.Condition.Dropouts
import BuildingAlerts.Proofs.Condition.Selection
import BuildingAlerts.Proofs.ControlRoom.Abandoned
import BuildingAlerts.Proofs.ControlRoom.Additions
import BuildingAlerts.Proofs.ControlRoom.Addresses
import BuildingAlerts.Proofs.ControlRoom.Appointments
import BuildingAlerts.Proofs.ControlRoom.Aside
import BuildingAlerts.Proofs.ControlRoom.Attempts
import BuildingAlerts.Proofs.ControlRoom.Begun
import BuildingAlerts.Proofs.ControlRoom.Booked
import BuildingAlerts.Proofs.ControlRoom.Calls
import BuildingAlerts.Proofs.ControlRoom.Chain
import BuildingAlerts.Proofs.ControlRoom.Changes
import BuildingAlerts.Proofs.ControlRoom.Clock
import BuildingAlerts.Proofs.ControlRoom.Closing
import BuildingAlerts.Proofs.ControlRoom.Completion
import BuildingAlerts.Proofs.ControlRoom.Delays
import BuildingAlerts.Proofs.ControlRoom.Deliveries
import BuildingAlerts.Proofs.ControlRoom.Directory
import BuildingAlerts.Proofs.ControlRoom.Entries
import BuildingAlerts.Proofs.ControlRoom.Escalations
import BuildingAlerts.Proofs.ControlRoom.Firing
import BuildingAlerts.Proofs.ControlRoom.Following
import BuildingAlerts.Proofs.ControlRoom.Growth
import BuildingAlerts.Proofs.ControlRoom.Handover
import BuildingAlerts.Proofs.ControlRoom.Heirs
import BuildingAlerts.Proofs.ControlRoom.Interleaving
import BuildingAlerts.Proofs.ControlRoom.Isolation
import BuildingAlerts.Proofs.ControlRoom.Keys
import BuildingAlerts.Proofs.ControlRoom.Levels
import BuildingAlerts.Proofs.ControlRoom.Listening
import BuildingAlerts.Proofs.ControlRoom.Logs
import BuildingAlerts.Proofs.ControlRoom.Notices
import BuildingAlerts.Proofs.ControlRoom.Outcomes
import BuildingAlerts.Proofs.ControlRoom.Owners
import BuildingAlerts.Proofs.ControlRoom.Passes
import BuildingAlerts.Proofs.ControlRoom.Payloads
import BuildingAlerts.Proofs.ControlRoom.QuietHours
import BuildingAlerts.Proofs.ControlRoom.Quota
import BuildingAlerts.Proofs.ControlRoom.Requests
import BuildingAlerts.Proofs.ControlRoom.Retries
import BuildingAlerts.Proofs.ControlRoom.Returning
import BuildingAlerts.Proofs.ControlRoom.Rising
import BuildingAlerts.Proofs.ControlRoom.Sequels
import BuildingAlerts.Proofs.ControlRoom.Settled
import BuildingAlerts.Proofs.ControlRoom.Shape
import BuildingAlerts.Proofs.ControlRoom.Succession
import BuildingAlerts.Proofs.ControlRoom.Summons
import BuildingAlerts.Proofs.ControlRoom.Rounds
import BuildingAlerts.Proofs.ControlRoom.Tracking
import BuildingAlerts.Proofs.ControlRoom.Traffic
import BuildingAlerts.Proofs.ControlRoom.Unbroken
import BuildingAlerts.Proofs.ControlRoom.Waves
import BuildingAlerts.Proofs.Decimal.Sizes
import BuildingAlerts.Proofs.Decimal.Values
import BuildingAlerts.Proofs.Document.Yields
import BuildingAlerts.Proofs.Fault
import BuildingAlerts.Proofs.Ident
import BuildingAlerts.Proofs.Lists
import BuildingAlerts.Proofs.Notification.Cooldowns
import BuildingAlerts.Proofs.Notification.Limiting
import BuildingAlerts.Proofs.Notification.Markup
import BuildingAlerts.Proofs.Notification.Pruning
import BuildingAlerts.Proofs.Notification.Spending
import BuildingAlerts.Proofs.Notification.Stages
import BuildingAlerts.Proofs.Notification.Targets
import BuildingAlerts.Proofs.Notification.Windows
import BuildingAlerts.Proofs.Rule.Accepted
import BuildingAlerts.Proofs.Rule.Confidence
import BuildingAlerts.Proofs.Rule.Defects
import BuildingAlerts.Proofs.Rule.Failing
import BuildingAlerts.Proofs.Rule.Reach
import BuildingAlerts.Proofs.Rule.Twins
import BuildingAlerts.Proofs.Rule.Yields
import BuildingAlerts.Proofs.Schedule
import BuildingAlerts.Proofs.Table
import BuildingAlerts.Proofs.Time.Order
import BuildingAlerts.Rule.Basic
import BuildingAlerts.Rule.Change
import BuildingAlerts.Rule.Document
import BuildingAlerts.Rule.Evaluation
import BuildingAlerts.Rule.Judgement
import BuildingAlerts.Rule.Pass
import BuildingAlerts.Rule.Validation
import BuildingAlerts.Schedule
import BuildingAlerts.Setup.Alerting
import BuildingAlerts.Setup.Document
import BuildingAlerts.Setup.Environment
import BuildingAlerts.Table
import BuildingAlerts.Text.Blank
import BuildingAlerts.Text.Cased
import BuildingAlerts.Text.EncodedWord
import BuildingAlerts.Text.LetterCase
import BuildingAlerts.Text.Octets
import BuildingAlerts.Text.Quoted
import BuildingAlerts.Time.Civil
import BuildingAlerts.Time.Moment
import BuildingAlerts.Time.Reader
import BuildingAlerts.Time.Written
import BuildingAlerts.Time.Zone
import BuildingAlerts.Vocabulary
import BuildingAlerts.Proofs.Delivery.Forms
import BuildingAlerts.Proofs.Logging.Scopes
import BuildingAlerts.Proofs.Notification.Stamp
