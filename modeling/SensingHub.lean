import SensingHub.Wakelock.Files
import SensingHub.Time.Accuracy
import SensingHub.Client.Sent
import SensingHub.Client.Waiting
import SensingHub.Client.Attributes
import SensingHub.Session.Factory
import SensingHub.Target.Ssr
import SensingHub.SessionLogger.DataType
import SensingHub.SessionLogger.Diag
import SensingHub.QshPb.Callbacks
import SensingHub.Client.Flow
import SensingHub.Discovery.Lifetime
import SensingHub.Json.Listed
import SensingHub.Json.HubNames
import SensingHub.Json.Termination
import SensingHub.Json.Immutable
import SensingHub.Json.WrappedCursor
import SensingHub.Discovery.Request
import SensingHub.QshPb.Packed
import SensingHub.QshPb.AllOrNothing
import SensingHub.QshPb.Kinds
import SensingHub.QshPb.AttributeRoundTrip
import SensingHub.QshPb.WireFormat
import SensingHub.Time.Conversion
import SensingHub.Time.Refresh
import SensingHub.Time.Model
import SensingHub.Worker.WakeUp
import SensingHub.Json.OrderNeeded
import SensingHub.Json.Rearranged
import SensingHub.Json.MemberOrder
import SensingHub.Json.Bounds
import SensingHub.Json.Braces
import SensingHub.Json.Traced
import SensingHub.QshPb.Errors
import SensingHub.QshPb.Agreement
import SensingHub.QshPb.Decoders
import SensingHub.QshPb.Proto
import SensingHub.Discovery.Delivery
import SensingHub.Json.Uninitialised
import SensingHub.Json.Exceptions
import SensingHub.Json.OtherDevice
import SensingHub.Json.History
import SensingHub.Json.Entries
import SensingHub.Json.Outline
import SensingHub.Json.Frame
import SensingHub.Wakelock.Leak
import SensingHub.Json.Isolation
import SensingHub.Json.Probe
import SensingHub.Json.Leftover
import SensingHub.Discovery.Locate
import SensingHub.Json.Whitespace
import SensingHub.Json.Acceptance
import SensingHub.Json.Complete
import SensingHub.Json.Passable
import SensingHub.Json.Sections
import SensingHub.Json.Locality
import SensingHub.Json.RoundTrip
import SensingHub.Json.Hub
import SensingHub.Json.Document
import SensingHub.Json.FailedLoad
import SensingHub.Json.FileRefinement
import SensingHub.Json.Refinement
import SensingHub.Json.Pair
import SensingHub.Json.Memory
import SensingHub.Json.Format
import SensingHub.Json.Token
import SensingHub.Json.Parser
import SensingHub.Json.State
import SensingHub.Lib.Fuel
import SensingHub.Lib.Prog
import SensingHub.Lib.CString
import SensingHub.Lib.Word
import SensingHub.Worker.Shutdown
import SensingHub.Worker.Queue
import SensingHub.Wakelock.Status
import SensingHub.Wakelock.Safety
