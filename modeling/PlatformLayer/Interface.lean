import PlatformLayer.Registry
import PlatformLayer.HandlerSlot
import PlatformLayer.ExitSlot

/-!
# The layer as clients see it

`Objects` are a registry, a handler slot and an exit slot of one's own. `Process` is the state that
a whole process shares; its objects come into being at the first use. Both offer the same eight
calls; objects of one's own can also be asked in more detail, and replaced.
-/

namespace PlatformLayer

structure Objects where
  registry : Registry
  handlerSlot : HandlerSlot
  exitSlot : ExitSlot
  deriving DecidableEq

namespace Objects

def new : Objects := ⟨.new, .new, .new⟩

def registryCell : Cell Objects Registry := ⟨(·.registry), fun r o => { o with registry := r }⟩

def handlerCell : Cell Objects HandlerSlot :=
  ⟨(·.handlerSlot), fun h o => { o with handlerSlot := h }⟩

def exitCell : Cell Objects ExitSlot := ⟨(·.exitSlot), fun e o => { o with exitSlot := e }⟩

/-- Puts an unused object in the place of one of the three. -/
def replace (o : Objects) : Component → Objects
  | .registry => { o with registry := o.registry.successor }
  | .handlerSlot => { o with handlerSlot := .new }
  | .exitSlot => { o with exitSlot := .new }

end Objects

structure Process where
  /-- Not there before the first use. -/
  objects? : Option Objects
  deriving DecidableEq

namespace Process

def initial : Process := ⟨none⟩

def objects (p : Process) : Objects := p.objects?.getD .new

/-- One of the shared objects. -/
def shared {α : Type} (cell : Cell Objects α) : Cell Process α :=
  ⟨fun p => cell.get p.objects, fun a p => ⟨some (cell.set a p.objects)⟩⟩

def init (ask : Capability → Action Process Answer) : Action Process CapabilitySet :=
  Registry.init (shared Objects.registryCell) ask

def has (c : Capability) : Action Process Bool :=
  Registry.has (shared Objects.registryCell) c

def snapshot : Action Process (Option CapabilitySet) :=
  Registry.snapshot (shared Objects.registryCell)

def register (h : HandlerId) : Action Process (Except Failure Unit) :=
  HandlerSlot.register (shared Objects.handlerCell) h

def getHandler : Action Process (Option HandlerId) :=
  HandlerSlot.getHandler (shared Objects.handlerCell)

def dispatch (enter : HandlerId → Fault → Frame → Action Process (Status × Frame))
    (fault : Fault) (registers : Registers) : Action Process (Disposition × Registers) :=
  HandlerSlot.dispatch (shared Objects.handlerCell) enter fault registers

def setExit (c : CallbackId) : Action Process (Option CallbackId) :=
  ExitSlot.setCallback (shared Objects.exitCell) c

def notify (run : CallbackId → Action Process Unit) : Action Process Bool :=
  ExitSlot.notify (shared Objects.exitCell) run

end Process

/-- The calls that only objects of one's own answer. -/
structure OwnerInterface (σ : Type) where
  hasBits : UInt32 → Action σ Bool
  isReady : Action σ Bool
  isRegistered : Action σ Bool
  clearExit : Action σ (Option CallbackId)
  getExit : Action σ (Option CallbackId)
  replace : Component → Action σ Unit

structure Interface (σ : Type) where
  init : (Capability → Action σ Answer) → Action σ CapabilitySet
  has : Capability → Action σ Bool
  snapshot : Action σ (Option CapabilitySet)
  register : HandlerId → Action σ (Except Failure Unit)
  getHandler : Action σ (Option HandlerId)
  dispatch : (HandlerId → Fault → Frame → Action σ (Status × Frame)) → Fault → Registers →
    Action σ (Disposition × Registers)
  setExit : CallbackId → Action σ (Option CallbackId)
  notify : (CallbackId → Action σ Unit) → Action σ Bool
  owner : Option (OwnerInterface σ)

namespace Interface

/-- The methods of three objects. -/
def objects : Interface Objects where
  init := Registry.init Objects.registryCell
  has := Registry.has Objects.registryCell
  snapshot := Registry.snapshot Objects.registryCell
  register := HandlerSlot.register Objects.handlerCell
  getHandler := HandlerSlot.getHandler Objects.handlerCell
  dispatch := HandlerSlot.dispatch Objects.handlerCell
  setExit := ExitSlot.setCallback Objects.exitCell
  notify := ExitSlot.notify Objects.exitCell
  owner := some
    { hasBits := Registry.hasBits Objects.registryCell
      isReady := Registry.isReady Objects.registryCell
      isRegistered := HandlerSlot.isRegistered Objects.handlerCell
      clearExit := ExitSlot.clear Objects.exitCell
      getExit := ExitSlot.getCallback Objects.exitCell
      replace := fun component =>
        Action.modify fun w => { w with state := w.state.replace component } }

/-- The process-wide entry points. -/
def process : Interface Process where
  init := Process.init
  has := Process.has
  snapshot := Process.snapshot
  register := Process.register
  getHandler := Process.getHandler
  dispatch := Process.dispatch
  setExit := Process.setExit
  notify := Process.notify
  owner := none

end Interface

end PlatformLayer
