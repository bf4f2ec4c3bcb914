import PlatformLayer.Capability.Set
import PlatformLayer.Failure
import PlatformLayer.Fault

/-!
# Log notices

Everything the layer logs, as causes. `Notice.level` and `Notice.text` give the log line.
-/

namespace PlatformLayer

inductive Level where
  | error
  | warn
  | info
  | debug
  | trace
  deriving DecidableEq, Inhabited

def Level.name : Level → String
  | error => "ERROR"
  | warn => "WARN"
  | info => "INFO"
  | debug => "DEBUG"
  | trace => "TRACE"

inductive Notice where
  | capabilitiesPublished (s : CapabilitySet)
  | capabilitiesKept (s : CapabilitySet)
  | probeFailed (c : Capability) (failure : Failure)
  | handlerRegistered
  | handlerRefused
  | exitCallbackReplaced
  | exitCallbackRunning
  | faultUnclaimed (code : UInt64)
  | faultHandled (fault : Fault) (status : Status)
  | halting (h : Halt)
  deriving DecidableEq

namespace Notice

def level : Notice → Level
  | capabilitiesPublished _ => .info
  | capabilitiesKept _ => .warn
  | probeFailed _ _ => .warn
  | handlerRegistered => .debug
  | handlerRefused => .warn
  | exitCallbackReplaced => .debug
  | exitCallbackRunning => .trace
  | faultUnclaimed _ => .trace
  | faultHandled _ _ => .trace
  | halting _ => .error

def text : Notice → String
  | capabilitiesPublished s => "PAL capabilities: " ++ s.display
  | capabilitiesKept s => "PAL capabilities already initialized, keeping " ++ s.display
  | probeFailed c failure => c.name ++ " probe: " ++ failure.message ++ ", treating as absent"
  | handlerRegistered => "hardware exception handler registered"
  | handlerRefused => "hardware exception handler already registered, ignoring"
  | exitCallbackReplaced => "thread exit callback replaced"
  | exitCallbackRunning => "running thread exit callback"
  | faultUnclaimed code => "fault " ++ Hex.ofNat code.toNat ++ " with no handler registered"
  | faultHandled fault status =>
    "fault " ++ Hex.ofNat fault.code.toNat ++ " at " ++ Hex.ofNat fault.address.toNat ++
      ": handler returned " ++ toString status.toInt
  | halting h => h.message

end Notice

end PlatformLayer
