import TecnicoFS.Deployment.Arrival
import TecnicoFS.Deployment.Completion
import TecnicoFS.Deployment.Delivery
import TecnicoFS.Deployment.Dispatch
import TecnicoFS.Deployment.EndToEnd
import TecnicoFS.Deployment.Printing
import TecnicoFS.Deployment.Progress
import TecnicoFS.Deployment.Registration
import TecnicoFS.Deployment.Requests
import TecnicoFS.Deployment.Storage
import TecnicoFS.Deployment.System
import TecnicoFS.Deployment.Traffic
import TecnicoFS.FileSystem.Alike
import TecnicoFS.FileSystem.AlikeCalls
import TecnicoFS.FileSystem.AlikeSteps
import TecnicoFS.FileSystem.CallSpec
import TecnicoFS.FileSystem.ConcurrentCreates
import TecnicoFS.FileSystem.ConcurrentLinks
import TecnicoFS.FileSystem.ConcurrentOpens
import TecnicoFS.FileSystem.ConcurrentTransfers
import TecnicoFS.FileSystem.DataPath
import TecnicoFS.FileSystem.DataPathSpec
import TecnicoFS.FileSystem.EffectInvariant
import TecnicoFS.FileSystem.Effects
import TecnicoFS.FileSystem.Entries
import TecnicoFS.FileSystem.FailedCalls
import TecnicoFS.FileSystem.FailedInit
import TecnicoFS.FileSystem.GarbageFree
import TecnicoFS.FileSystem.Importing
import TecnicoFS.FileSystem.Init
import TecnicoFS.FileSystem.Invariant
import TecnicoFS.FileSystem.InvariantEntries
import TecnicoFS.FileSystem.InvariantSteps
import TecnicoFS.FileSystem.Leaks
import TecnicoFS.FileSystem.LinkRoles
import TecnicoFS.FileSystem.LinkSpec
import TecnicoFS.FileSystem.Locking
import TecnicoFS.FileSystem.Model
import TecnicoFS.FileSystem.Namespace
import TecnicoFS.FileSystem.OpenWindows
import TecnicoFS.FileSystem.OperationSpec
import TecnicoFS.FileSystem.Operations
import TecnicoFS.FileSystem.Rebinding
import TecnicoFS.FileSystem.Refinement
import TecnicoFS.FileSystem.Represents
import TecnicoFS.FileSystem.RepresentsSteps
import TecnicoFS.FileSystem.Resolution
import TecnicoFS.FileSystem.Runs
import TecnicoFS.FileSystem.Safety
import TecnicoFS.FileSystem.SectionEffects
import TecnicoFS.FileSystem.SectionInvariant
import TecnicoFS.FileSystem.Sections
import TecnicoFS.FileSystem.SharedHandle
import TecnicoFS.FileSystem.State
import TecnicoFS.FileSystem.StateSpec
import TecnicoFS.FileSystem.SymLinkFrame
import TecnicoFS.FileSystem.SymLinks
import TecnicoFS.FileSystem.TableSizes
import TecnicoFS.FileSystem.TableSpec
import TecnicoFS.FileSystem.TransferPoints
import TecnicoFS.FileSystem.TransferProgress
import TecnicoFS.FileSystem.TransferReads
import TecnicoFS.FileSystem.TransferRuns
import TecnicoFS.FileSystem.TransferSteps
import TecnicoFS.FileSystem.TransferWrites
import TecnicoFS.FileSystem.Transfers
import TecnicoFS.FileSystem.WriteLength
import TecnicoFS.Library.AtomicObject
import TecnicoFS.Library.ByteMemory
import TecnicoFS.Library.Chains
import TecnicoFS.Library.CharArray
import TecnicoFS.Library.CircularBuffer
import TecnicoFS.Library.Completion
import TecnicoFS.Library.FairRuns
import TecnicoFS.Library.FaultAction
import TecnicoFS.Library.LinkLedger
import TecnicoFS.Library.LittleEndian
import TecnicoFS.Library.LockOrder
import TecnicoFS.Library.LockProgram
import TecnicoFS.Library.LockTable
import TecnicoFS.Library.Ownership
import TecnicoFS.Library.Records
import TecnicoFS.Library.Refinement
import TecnicoFS.Library.SlotCounters
import TecnicoFS.Library.SortedInsertion
import TecnicoFS.Library.TableSearch
import TecnicoFS.Library.TextPieces
import TecnicoFS.Library.ThreadSystem
import TecnicoFS.Library.TwinRuns
import TecnicoFS.Manager.Answers
import TecnicoFS.Manager.BoxListing
import TecnicoFS.Mbroker.BoxNames
import TecnicoFS.Mbroker.Counters
import TecnicoFS.Mbroker.FileCalls
import TecnicoFS.Mbroker.Files
import TecnicoFS.Mbroker.FirstBox
import TecnicoFS.Mbroker.HandleAccounts
import TecnicoFS.Mbroker.Handlers
import TecnicoFS.Mbroker.HeldLocks
import TecnicoFS.Mbroker.Listing
import TecnicoFS.Mbroker.LockedHandlers
import TecnicoFS.Mbroker.LockedRuns
import TecnicoFS.Mbroker.Management
import TecnicoFS.Mbroker.MessageStream
import TecnicoFS.Mbroker.Occupants
import TecnicoFS.Mbroker.OpenFiles
import TecnicoFS.Mbroker.Reception
import TecnicoFS.Mbroker.Server
import TecnicoFS.Mbroker.Sessions
import TecnicoFS.Mbroker.StreamFiles
import TecnicoFS.Mbroker.StreamPoints
import TecnicoFS.Mbroker.VisibleBoxes
import TecnicoFS.Protocol.CommandLines
import TecnicoFS.Protocol.ListenerProgress
import TecnicoFS.Protocol.Packet
import TecnicoFS.Protocol.RegisterPipe
import TecnicoFS.Publisher.Input
import TecnicoFS.Publisher.Messages
import TecnicoFS.Queue.Linearizability
import TecnicoFS.Queue.MutualExclusion
import TecnicoFS.Queue.PcQueue
import TecnicoFS.Queue.RingInvariant
import TecnicoFS.Queue.WakeUps
import TecnicoFS.Subscriber.Messages
