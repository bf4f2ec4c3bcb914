import PlatformLayer.Capability.Set
import PlatformLayer.Failure
import PlatformLayer.Fault
import PlatformLayer.Frame

/-!
# Calls and replies

The calls that client code can make on the layer, and what it gets back.
-/

namespace PlatformLayer

/-- Handlers and exit callbacks are known to the layer by number only. -/
abbrev HandlerId := Nat

abbrev CallbackId := Nat

/-- What a probe says about one capability. -/
abbrev Answer := Except Failure Bool

inductive Component where
  | registry
  | handlerSlot
  | exitSlot
  deriving DecidableEq

/-- The calls that carry no client code with them. A fault is dispatched on one of the numbered
register contexts. -/
inductive Operation where
  | initFromHost
  | has (c : Capability)
  | hasBits (bits : UInt32)
  | isReady
  | snapshot
  | register (h : HandlerId)
  | getHandler
  | isRegistered
  | dispatch (fault : Fault) (context : Nat)
  | setExit (c : CallbackId)
  | clearExit
  | getExit
  | notify
  | newContext (context : Nat) (ip sp : UInt64)
  | writeContext (context : Nat) (s : Architecture.native.layout.Slot) (v : UInt64)
  | replace (component : Component)
  deriving DecidableEq

/-- Every call: start-up with a probe, an operation, or a handler handing its own registers on. -/
inductive Call where
  | init
  | operation (op : Operation)
  | forward (fault : Fault)
  deriving DecidableEq

inductive Reply where
  | done
  /-- The call does not exist on this interface. -/
  | absent
  | flag (b : Bool)
  | capabilities (s : CapabilitySet)
  | snapshot (s : Option CapabilitySet)
  | registration (r : Except Failure Unit)
  | handler (h : Option HandlerId)
  | callback (c : Option CallbackId)
  | dispatched (d : Disposition) (registers : Registers)
  /-- The replies that each started thread gathered. -/
  | threads (results : List (List Reply))

end PlatformLayer
