import PlatformLayer.Action

/-!
# The hardware exception handler

One handler can be registered, once. A fault is handed to it with the interrupted registers, which
it may change, and with two argument words that start at zero; its status decides whether the fault
is resumed.
-/

namespace PlatformLayer

structure HandlerSlot where
  handler : Option HandlerId
  deriving DecidableEq

namespace HandlerSlot

def new : HandlerSlot := ⟨none⟩

variable {σ : Type} (cell : Cell σ HandlerSlot)

def register (h : HandlerId) : Action σ (Except Failure Unit) := do
  let slot ← cell.read
  match slot.handler with
  | none => do
    cell.write ⟨some h⟩
    Action.log .handlerRegistered
    pure (.ok ())
  | some _ => do
    Action.log .handlerRefused
    pure (.error .handlerAlreadyRegistered)

def getHandler : Action σ (Option HandlerId) := do
  let slot ← cell.read
  pure slot.handler

def isRegistered : Action σ Bool := do
  let slot ← cell.read
  pure slot.handler.isSome

/-- Hands a fault to the registered handler, which `enter` runs. Without a handler the fault is
unhandled and the registers stay as they are. -/
def offer (enter : HandlerId → Fault → Frame → Action σ (Status × Frame)) (fault : Fault)
    (registers : Registers) : Action σ (Disposition × Registers) := do
  let slot ← cell.read
  match slot.handler with
  | none => do
    Action.log (.faultUnclaimed fault.code)
    pure (.unhandled, registers)
  | some h => do
    let (status, frame) ← enter h fault (Frame.enter registers)
    Action.log (.faultHandled fault status)
    pure (Disposition.ofStatus status frame.arg0 frame.arg1, frame.registers)

/-- Deals with a fault, with the registers it finds and leaves on record. -/
def dispatch (enter : HandlerId → Fault → Frame → Action σ (Status × Frame)) (fault : Fault)
    (registers : Registers) : Action σ (Disposition × Registers) := do
  Action.mark (.faultRaised fault registers)
  let (disposition, left) ← offer cell enter fault registers
  Action.mark (.faultSettled fault disposition left)
  pure (disposition, left)

end HandlerSlot

end PlatformLayer
