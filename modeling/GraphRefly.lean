import GraphRefly.Safety.Fifo
import GraphRefly.Safety.Acyclic
import GraphRefly.Core.Call
import GraphRefly.Wave.Drain
import GraphRefly.Wave.Failure
import GraphRefly.Bridge.Repair
import GraphRefly.Bridge.Honest
import GraphRefly.Bridge.Causes
import GraphRefly.Bridge.Release
import GraphRefly.Storage.MultiWriter
import GraphRefly.Collections.Batched
import GraphRefly.Collections.Durable
import GraphRefly.WorkQueue.Backoff
import GraphRefly.Messaging.Delivery
import GraphRefly.WorkQueue.Intake
import GraphRefly.Cqrs.Disposal
import GraphRefly.Cqrs.Accounting
import GraphRefly.Cqrs.Projection
import GraphRefly.Readiness.Once
import GraphRefly.WorkQueue.Candidates
import GraphRefly.Process.Atomic
import GraphRefly.Rewire.Keep
import GraphRefly.Collections.ScanFold
import GraphRefly.Collections.Snapshot
import GraphRefly.Storage.Promotion
import GraphRefly.Storage.WalCodec
import GraphRefly.Storage.Paging
import GraphRefly.Storage.FileNames
import GraphRefly.Sources.Sse
import GraphRefly.Sources.Wildcard
import GraphRefly.Sources.Cron
import GraphRefly.Handles.Arena
import GraphRefly.Bridge.Outbound
import GraphRefly.Versioning.Machine
import GraphRefly.Bridge.Lifetimes
import GraphRefly.Bridge.Status
import GraphRefly.WorkQueue.Attempts
import GraphRefly.WorkQueue.Pages
import GraphRefly.Solutions.Consolidation
import GraphRefly.Messaging.Schema
