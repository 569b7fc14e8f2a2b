import RuntimeBle.Lib.Machine
import RuntimeBle.Lib.Assoc
import RuntimeBle.Lib.Shared
import RuntimeBle.Lib.Mailbox
import RuntimeBle.Lib.Utf8
import RuntimeBle.Config
import RuntimeBle.Bond.Coherence
import RuntimeBle.Request.Api
import RuntimeBle.Request.Refusal
import RuntimeBle.Request.Consumers
import RuntimeBle.Request.Handover
import RuntimeBle.Request.Lengths
import RuntimeBle.Request.Preemption
import RuntimeBle.Request.Admission
import RuntimeBle.Lib.Desk
import RuntimeBle.Request.TxSlot
import RuntimeBle.Request.DualRole
import RuntimeBle.Lib.Capacity
import RuntimeBle.Request.Links
import RuntimeBle.Session.Lifecycle
import RuntimeBle.Time.Alarm
import RuntimeBle.Server.Gatt
import RuntimeBle.Session.BringUp
import RuntimeBle.Lib.Ledger
import RuntimeBle.Server.Stores
import RuntimeBle.Session.Memory
import RuntimeBle.Request.Sessions
import RuntimeBle.Bond.Agreement
import RuntimeBle.Bond.Codec
import RuntimeBle.Server.Numbering
import RuntimeBle.Server.Events
import RuntimeBle.Server.Limits
import RuntimeBle.Adv.Payload
import RuntimeBle.Adv.Names
import RuntimeBle.Adv.Parts
import RuntimeBle.Lib.History
import RuntimeBle.Session.Executor
import RuntimeBle.Lib.Brackets
import RuntimeBle.Session.Callbacks
import RuntimeBle.Client.Operations
import RuntimeBle.Client.Answers
import RuntimeBle.Client.Status
import RuntimeBle.Lib.Bounded
import RuntimeBle.Client.Subscriptions
import RuntimeBle.Bond.Enumeration
import RuntimeBle.Bond.Restore
import RuntimeBle.Link.Control
import RuntimeBle.Link.Events
import RuntimeBle.Link.Intervals
import RuntimeBle.Link.Channel
import RuntimeBle.Link.Service
import RuntimeBle.Link.Central
import RuntimeBle.Link.Reasons
import RuntimeBle.Texts
import RuntimeBle.Bond.Restarts
import RuntimeBle.Pair.Database
import RuntimeBle.Pair.Discovery
import RuntimeBle.Server.Transmissions
import RuntimeBle.Client.Dialing
import RuntimeBle.Pair.Exchange
import RuntimeBle.Pair.Notifications
import RuntimeBle.Pair.Registers
import RuntimeBle.Adv.Serving
import RuntimeBle.Pair.Sdus
import RuntimeBle.Pair.Sighting
import RuntimeBle.Pair.Acknowledged
import RuntimeBle.Time.Sleeping
