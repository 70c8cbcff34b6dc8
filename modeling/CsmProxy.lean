import CsmProxy.Instances.NeverDrop
import CsmProxy.Instances.EvictionOrder
import CsmProxy.Instances.BoundedFifo
import CsmProxy.Waiters.ReplyIsolation
import CsmProxy.Waiters.WaiterSession
import CsmProxy.Waiters.Removal
import CsmProxy.Waiters.Residue
import CsmProxy.Waiters.FirstMatch
import CsmProxy.Sessions.QueueOwner
import CsmProxy.Sessions.Records
import CsmProxy.Foundations.Latest
import CsmProxy.Observe.Conservation
import CsmProxy.Observe.Evidence
import CsmProxy.Observe.Missed
import CsmProxy.Views.Agreement
import CsmProxy.Views.QueuedView
import CsmProxy.Views.WireMask
import CsmProxy.Views.WireFilter
import CsmProxy.Mcp.NoTrace
import CsmProxy.Mcp.InjectBatch
import CsmProxy.Mcp.UntilActivity
import CsmProxy.Mcp.UntilPage
import CsmProxy.Spawn.Reaping
import CsmProxy.Spawn.StartReport
import CsmProxy.Spawn.Leftovers
import CsmProxy.Spawn.WorkDir
import CsmProxy.Requests.Answers
import CsmProxy.Requests.Delivery
import CsmProxy.Progress.Departures
import CsmProxy.Requests.Reports
import CsmProxy.Spawn.Custody
import CsmProxy.Mcp.Resources
import CsmProxy.Requests.Residue
