import Cortex.Library.History
import Cortex.Library.Dict
import Cortex.OperationLedger.Recovery
import Cortex.OperationLedger.Deaths
import Cortex.OperationLedger.Known
import Cortex.OperationLedger.Durability
import Cortex.Captures.Authorisation
import Cortex.Delivery.AtMostOnce
import Cortex.Delivery.Parent
import Cortex.Delivery.Store
import Cortex.Delivery.Agreement
import Cortex.Runs.Schema
import Cortex.Runs.Parts
import Cortex.Runs.Requests
import Cortex.Runs.Threads
import Cortex.Runs.Dispatch
import Cortex.Runs.Events
import Cortex.Runs.Decisions
import Cortex.Runs.Actions
import Cortex.Runs.Store
import Cortex.Library.Growth
import Cortex.Runs.Frames
import Cortex.Runs.Effects
import Cortex.Runs.ThreadEffects
import Cortex.Runs.DispatchEffects
import Cortex.Runs.EventEffects
import Cortex.Runs.DecisionEffects
import Cortex.Runs.ActionEffects
import Cortex.Runs.StepEffects
import Cortex.Runs.ActiveRun
import Cortex.Runs.Archive
import Cortex.Runs.Closure
import Cortex.Runs.Pins
import Cortex.Library.Triple
import Cortex.Drain.Pass
import Cortex.Drain.Accounting
import Cortex.Fallback.Library
import Cortex.Fallback.Runs
import Cortex.Fallback.Invariant
import Cortex.Fallback.Commands
import Cortex.Fallback.Start
import Cortex.Fallback.OnceOnly
import Cortex.Artifacts.Commands
import Cortex.Artifacts.Invariant
import Cortex.Artifacts.Effects
import Cortex.Artifacts.AppendOnly
import Cortex.Delivery.Sending
import Cortex.Delivery.Turns
import Cortex.Delivery.Stranded
import Cortex.Library.Crash
import Cortex.RuntimeUpdate.Directory
import Cortex.RuntimeUpdate.Service
import Cortex.RuntimeUpdate.Recovery
import Cortex.RuntimeUpdate.Activation
import Cortex.RuntimeUpdate.Rollback
import Cortex.RuntimeUpdate.Quiet
import Cortex.RuntimeUpdate.CrashAtomic
import Cortex.RuntimeUpdate.Held
import Cortex.RuntimeUpdate.Backed
import Cortex.Runs.Projection
import Cortex.Runs.Answerable
import Cortex.Workflow.Effects
import Cortex.Workflow.Coordinator
import Cortex.Workflow.Moves
import Cortex.Workflow.Redelivery
import Cortex.Runs.Offers
import Cortex.Runs.Ingestion
import Cortex.Materializer.Disk
import Cortex.Materializer.Materialize
import Cortex.Materializer.Phases
import Cortex.Materializer.Restart
import Cortex.Worker.Serve
import Cortex.Worker.OneRun
import Cortex.Library.PyValue
import Cortex.Turn.Digests
import Cortex.Turn.Body
import Cortex.Turn.Ends
import Cortex.Library.PyJson
import Cortex.Worker.Protocol
import Cortex.Worker.Line
import Cortex.Worker.Answered
import Cortex.Adapter.Remembered
import Cortex.Library.UrlSplit
import Cortex.Sources.NormalizeUrl
import Cortex.Library.Firsts
import Cortex.Sources.ArxivId
import Cortex.Xhs.Written
import Cortex.Xhs.Identify
import Cortex.Xhs.Recommended
import Cortex.Library.Tokens
import Cortex.Xhs.Title
import Cortex.Xhs.Answer
import Cortex.Xhs.Pipeline
import Cortex.Sources.Locator
import Cortex.Sources.Intent
import Cortex.OperationLedger.Raised
import Cortex.Sources.Shapes
import Cortex.Sources.Pages
import Cortex.Sources.Identity
import Cortex.Inbound.Confirmed
import Cortex.Transports.Chunks
import Cortex.RuntimeUpdate.Catalogs
import Cortex.Workflow.Readiness
import Cortex.Workflow.Committable
import Cortex.Feed.Attempts
import Cortex.Worker.SendParams
import Cortex.Worker.Decisions
import Cortex.Sources.ResourceUri
import Cortex.Consumer.LiveCarrier
import Cortex.Redaction.Idempotent
import Cortex.Notes.Folder
import Cortex.Notes.View
import Cortex.Notes.Outcome
