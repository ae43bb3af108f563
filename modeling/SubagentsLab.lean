import SubagentsLab.Machinery.Runs
import SubagentsLab.Machinery.Dict
import SubagentsLab.Status.Vocabulary
import SubagentsLab.Status.Ledger
import SubagentsLab.Status.Moves
import SubagentsLab.Status.Stream
import SubagentsLab.Status.Join
import SubagentsLab.Machinery.Tasks
import SubagentsLab.Workers.Mailbox
import SubagentsLab.Workers.Tails
import SubagentsLab.Speech.Coordinator
import SubagentsLab.Speech.Slot
import SubagentsLab.Speech.Terminal
import SubagentsLab.Speech.Deadline
import SubagentsLab.Machinery.Lanes
import SubagentsLab.Speech.Admission
import SubagentsLab.Speech.Conservation
import SubagentsLab.Speech.Custody
import SubagentsLab.Speech.Fence
import SubagentsLab.Speech.Kept
import SubagentsLab.Speech.Processor
import SubagentsLab.Speech.Advance
import SubagentsLab.Speech.Flow
import SubagentsLab.Speech.Quiescence
import SubagentsLab.Turn.AckLedger
import SubagentsLab.Turn.OneAck
import SubagentsLab.Machinery.Text
import SubagentsLab.Machinery.Json
import SubagentsLab.Routing.Catalogue
import SubagentsLab.Routing.Registry
import SubagentsLab.Routing.Dispatch
import SubagentsLab.Routing.Router
import SubagentsLab.Speech.Generation
import SubagentsLab.Speech.Delivery
import SubagentsLab.Session.State
import SubagentsLab.Session.View
import SubagentsLab.Session.Retention
import SubagentsLab.Session.Projection
import SubagentsLab.Host.Handshake
import SubagentsLab.Host.Redemption
import SubagentsLab.Host.EpochFence
import SubagentsLab.Session.Browser
import SubagentsLab.Session.Observer
import SubagentsLab.Session.Barrier
import SubagentsLab.Session.Channel
import SubagentsLab.Workers.ItemLoop
import SubagentsLab.Workers.Coordinator
import SubagentsLab.Workers.Carry
import SubagentsLab.Workers.Budget
import SubagentsLab.Workers.Accounts
import SubagentsLab.Workers.Late
import SubagentsLab.Status.Children
import SubagentsLab.Speech.Scheduler
import SubagentsLab.Host.Commit
import SubagentsLab.Host.Books
import SubagentsLab.Speech.Outcome
import SubagentsLab.Speech.Lease
import SubagentsLab.Speech.Agreement
import SubagentsLab.Speech.Connection
import SubagentsLab.Speech.Probe
import SubagentsLab.Speech.Records
import SubagentsLab.Speech.Standing
import SubagentsLab.Host.Cancellation
import SubagentsLab.Host.ResultReady
import SubagentsLab.Turn.Serving
import SubagentsLab.Host.Targets
import SubagentsLab.Machinery.Script
import SubagentsLab.Session.Board
import SubagentsLab.Status.Lockstep
import SubagentsLab.Session.Restore
import SubagentsLab.Status.Eviction
import SubagentsLab.Status.Restored
import SubagentsLab.Session.Tenure
import SubagentsLab.Session.Delivered
import SubagentsLab.Session.RoundTrip
import SubagentsLab.Session.Wire
import SubagentsLab.Session.Validator
import SubagentsLab.Session.Watermark
import SubagentsLab.Turn.Chains
import SubagentsLab.Turn.Hosted
import SubagentsLab.Turn.Epilogue
import SubagentsLab.Workers.Attribution
import SubagentsLab.Results.Citations
import SubagentsLab.Results.Collection
import SubagentsLab.Machinery.JsonText
import SubagentsLab.Machinery.Checks
import SubagentsLab.Machinery.Numerals
import SubagentsLab.Machinery.Update
import SubagentsLab.Machinery.Passes
import SubagentsLab.Workers.FanIn
import SubagentsLab.Telemetry.Lines
import SubagentsLab.Telemetry.Acceptance
import SubagentsLab.Telemetry.Accounting
import SubagentsLab.Machinery.Integers
import SubagentsLab.Machinery.Priority
import SubagentsLab.Config.Values
import SubagentsLab.Config.Layers
import SubagentsLab.Config.Families
import SubagentsLab.Config.Load
import SubagentsLab.Config.Efforts
import SubagentsLab.Config.Precedence
import SubagentsLab.Config.Integers
import SubagentsLab.Machinery.Joined
import SubagentsLab.Machinery.Semaphore
import SubagentsLab.Turn.Transcript
import SubagentsLab.Turn.Assembly
import SubagentsLab.Machinery.Protocol
import SubagentsLab.Host.Runner
import SubagentsLab.Session.App
import SubagentsLab.Machinery.Markup
import SubagentsLab.Session.Render
import SubagentsLab.Session.Rendered
import SubagentsLab.Speech.Order
import SubagentsLab.Services.Clients
import SubagentsLab.Services.Tts
import SubagentsLab.Services.Synthesis
import SubagentsLab.Services.Fencing
import SubagentsLab.Services.Stt
import SubagentsLab.Services.Transcription
import SubagentsLab.Turn.Clarification
