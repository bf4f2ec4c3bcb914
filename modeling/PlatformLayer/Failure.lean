import PlatformLayer.Capability.Basic
import PlatformLayer.Text.Hex

/-!
# Failures and halts

A *failure* is handed back to the caller. A *halt* ends the whole run: it marks a use of the layer
that no caller may make, such as a query before start-up or an access to a register that the machine
does not have.
-/

namespace PlatformLayer

inductive Failure where
  | handlerAlreadyRegistered
  | probeFailed
  deriving DecidableEq, Inhabited

namespace Failure

def all : List Failure := [handlerAlreadyRegistered, probeFailed]

def name : Failure → String
  | handlerAlreadyRegistered => "HandlerAlreadyRegistered"
  | probeFailed => "ProbeFailed"

def message : Failure → String
  | handlerAlreadyRegistered => "hardware exception handler already registered"
  | probeFailed => "capability probe failed"

def ofName? (text : String) : Option Failure :=
  all.find? fun f => f.name == text

end Failure

/-- The register accesses that a machine without a register description refuses. -/
inductive RegisterAccess where
  | getSp
  | setSp
  | getFp
  | getLr
  deriving DecidableEq, Inhabited

def RegisterAccess.name : RegisterAccess → String
  | getSp => "GetSp"
  | setSp => "SetSp"
  | getFp => "GetFp"
  | getLr => "GetLr"

inductive Halt where
  | queriedTooEarly (c : Capability)
  | unknownCapability (bits : UInt32)
  | unimplemented (access : RegisterAccess)
  deriving DecidableEq

namespace Halt

def cause : Halt → String
  | queriedTooEarly c => c.name ++ " queried before PAL initialization"
  | unknownCapability bits => "unknown capability " ++ Hex.ofNat bits.toNat
  | unimplemented access => access.name

def message (h : Halt) : String :=
  "portability assert: " ++ h.cause

end Halt

end PlatformLayer
