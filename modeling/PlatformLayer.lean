import PlatformLayer.Text.Hex
import PlatformLayer.Text.Record
import PlatformLayer.Memory.Bytes
import PlatformLayer.Vector128
import PlatformLayer.Capability.Basic
import PlatformLayer.Capability.Set
import PlatformLayer.Failure
import PlatformLayer.Fault
import PlatformLayer.Notice
import PlatformLayer.Layout.Kind
import PlatformLayer.Layout.Basic
import PlatformLayer.Context.Basic
import PlatformLayer.Context.Text
import PlatformLayer.Architecture.Basic
import PlatformLayer.Architecture.Catalog
import PlatformLayer.Architecture.Session
import PlatformLayer.Frame
import PlatformLayer.Call
import PlatformLayer.History
import PlatformLayer.Action
import PlatformLayer.Registry
import PlatformLayer.HandlerSlot
import PlatformLayer.ExitSlot
import PlatformLayer.Interface
import PlatformLayer.Program.Basic
import PlatformLayer.Program.Exec
import PlatformLayer.Host
import PlatformLayer.Script.Basic
import PlatformLayer.Script.Scenario
import PlatformLayer.Proofs.Run
import PlatformLayer.Proofs.Methods
import PlatformLayer.Proofs.Passage
import PlatformLayer.Proofs.PromptCalls
import PlatformLayer.Proofs.ClientCalls
import PlatformLayer.Proofs.RunPassage
import PlatformLayer.Proofs.CallSites
import PlatformLayer.Proofs.Evolution
import PlatformLayer.Proofs.Replies
import PlatformLayer.Proofs.Probing
import PlatformLayer.Proofs.Halting
import PlatformLayer.Proofs.StartUp
import PlatformLayer.Proofs.Publication
import PlatformLayer.Proofs.Registration
import PlatformLayer.Proofs.ExitCallbacks
import PlatformLayer.Proofs.StoredBytes
import PlatformLayer.Proofs.Placement
import PlatformLayer.Proofs.MemoryImage
import PlatformLayer.Proofs.MemoryAccess
import PlatformLayer.Proofs.GeneralRegisters
import PlatformLayer.Proofs.Comparison
import PlatformLayer.Proofs.ComparedCalls
import PlatformLayer.Proofs.ComparedRuns
import PlatformLayer.Proofs.Playing
import PlatformLayer.Proofs.EntryPoints
import PlatformLayer.Proofs.Pieces
import PlatformLayer.Proofs.Threads
import PlatformLayer.Proofs.Independence
import PlatformLayer.Proofs.LogAccount
import PlatformLayer.Proofs.FallbackMachine
import PlatformLayer.Proofs.FaultNesting
import PlatformLayer.Proofs.Conduct
import PlatformLayer.Proofs.Contexts
import PlatformLayer.Proofs.Handling
import PlatformLayer.Proofs.Activations
import PlatformLayer.Proofs.FrameStores
import PlatformLayer.Proofs.FaultBrackets
import PlatformLayer.Proofs.PassThrough
import PlatformLayer.Proofs.Reentrance
import PlatformLayer.Proofs.CapabilityWords
import PlatformLayer.Proofs.QueryPaths
import PlatformLayer.Proofs.Redirection
import PlatformLayer.Proofs.ProbeAnswers
import PlatformLayer.Proofs.CallbackRuns
import PlatformLayer.Proofs.Notifications
import PlatformLayer.Proofs.BitWalk
import PlatformLayer.Proofs.CollectedSets
import PlatformLayer.Proofs.VectorSlots
