import PlatformLayer.Program.Exec

/-!
# Runs

A run is client code on a thread of a new layer, with the code of all handlers and callbacks that
the layer may call. Nothing is fixed about it: the client may work on objects of its own or on the
process-wide entry points, and probes, handlers, callbacks and threads may call back into the layer.

Whichever of the two a client works on, there are three objects behind it, and a run is looked at
through them.
-/

namespace PlatformLayer

inductive Scope where
  | own
  | shared
  deriving DecidableEq

namespace Scope

def State : Scope → Type
  | own => Objects
  | shared => Process

def interface : (scope : Scope) → Interface scope.State
  | own => Interface.objects
  | shared => Interface.process

def initial : (scope : Scope) → scope.State
  | own => Objects.new
  | shared => Process.initial

/-- The three objects that a state stands for. -/
def objects : {scope : Scope} → scope.State → Objects
  | own => id
  | shared => Process.objects

/-- Where one of the three objects lies in a state. -/
def cell {α : Type} : (scope : Scope) → Cell Objects α → Cell scope.State α
  | own => id
  | shared => Process.shared

variable {scope : Scope} {α : Type}

@[simp] theorem cell_get (part : Cell Objects α) (x : scope.State) :
    (scope.cell part).get x = part.get (objects x) := by
  cases scope <;> rfl

@[simp] theorem objects_cell_set (part : Cell Objects α) (a : α) (x : scope.State) :
    objects ((scope.cell part).set a x) = part.set a (objects x) := by
  cases scope <;> rfl

theorem objects_initial (scope : Scope) : objects scope.initial = Objects.new := by
  cases scope <;> rfl

/-! The methods are those of the cells, whichever of the two the client works on. -/

section Methods

variable (scope)

theorem interface_init (ask : Capability → Action scope.State Answer) :
    scope.interface.init ask = Registry.init (scope.cell Objects.registryCell) ask := by
  cases scope <;> rfl

theorem interface_has (c : Capability) :
    scope.interface.has c = Registry.has (scope.cell Objects.registryCell) c := by
  cases scope <;> rfl

theorem interface_snapshot :
    scope.interface.snapshot = Registry.snapshot (scope.cell Objects.registryCell) := by
  cases scope <;> rfl

theorem interface_register (k : HandlerId) :
    scope.interface.register k = HandlerSlot.register (scope.cell Objects.handlerCell) k := by
  cases scope <;> rfl

theorem interface_getHandler :
    scope.interface.getHandler = HandlerSlot.getHandler (scope.cell Objects.handlerCell) := by
  cases scope <;> rfl

theorem interface_setExit (k : CallbackId) :
    scope.interface.setExit k = ExitSlot.setCallback (scope.cell Objects.exitCell) k := by
  cases scope <;> rfl

theorem interface_notify (run : CallbackId → Action scope.State Unit) :
    scope.interface.notify run = ExitSlot.notify (scope.cell Objects.exitCell) run := by
  cases scope <;> rfl

variable {scope} {owner : OwnerInterface scope.State}

theorem owner_isReady (howner : owner ∈ scope.interface.owner) :
    owner.isReady = Registry.isReady (scope.cell Objects.registryCell) := by
  cases scope <;> cases howner
  rfl

theorem owner_hasBits (howner : owner ∈ scope.interface.owner) (bits : UInt32) :
    owner.hasBits bits = Registry.hasBits (scope.cell Objects.registryCell) bits := by
  cases scope <;> cases howner
  rfl

theorem owner_isRegistered (howner : owner ∈ scope.interface.owner) :
    owner.isRegistered = HandlerSlot.isRegistered (scope.cell Objects.handlerCell) := by
  cases scope <;> cases howner
  rfl

theorem owner_clearExit (howner : owner ∈ scope.interface.owner) :
    owner.clearExit = ExitSlot.clear (scope.cell Objects.exitCell) := by
  cases scope <;> cases howner
  rfl

theorem owner_getExit (howner : owner ∈ scope.interface.owner) :
    owner.getExit = ExitSlot.getCallback (scope.cell Objects.exitCell) := by
  cases scope <;> cases howner
  rfl

end Methods

end Scope

namespace Outcome

variable {α : Type}

/-- How something ended, whatever it returned. -/
def fate : Outcome α → Outcome Unit
  | returned _ => returned ()
  | halted h => halted h
  | hung => hung

end Outcome

/-- The two calls that start the registry up. -/
def Call.isInit : Call → Bool
  | init => true
  | operation .initFromHost => true
  | _ => false

def Happening.startsUp : Happening → Bool
  | called _ c => c.isInit
  | _ => false

def Happening.replaces (component : Component) : Happening → Bool
  | called _ (.operation (.replace other)) => other = component
  | _ => false

@[simp] def Happening.asked? : Happening → Option Capability
  | asked c => some c
  | _ => none

@[simp] def Happening.answered? : Happening → Option Capability
  | answered c _ => some c
  | _ => none

@[simp] def Happening.probed? : Happening → Option Capability
  | event (.probeAsked c) => some c
  | _ => none

namespace History

variable {σ : Type}

/-- A history as the three objects go through it. -/
def seen {scope : Scope} (history : History scope.State) : History Objects :=
  history.map fun m => ⟨m.what, Scope.objects m.state⟩

/-- The capabilities that some probe was asked about, in order. -/
def asked (history : History σ) : List Capability :=
  history.filterMap fun m => m.what.asked?

/-- The capabilities that were answered for, in order. -/
def answered (history : History σ) : List Capability :=
  history.filterMap fun m => m.what.answered?

/-- The capabilities that a client's own probe was entered for, in order. -/
def probed (history : History σ) : List Capability :=
  history.filterMap fun m => m.what.probed?

/-- No call puts a new object in the place of this component. -/
def Keeps (component : Component) (history : History σ) : Prop :=
  ∀ m ∈ history, m.what.replaces component = false

/-- No start-up is called for while one is still probing. -/
def NestsNoInit (history : History Objects) : Prop :=
  ∀ m ∈ history, m.what.startsUp → m.state.registry.phase ≠ .probing

end History

def Scope.setting (scope : Scope) (clients : Clients) (host : Capability → Bool) :
    Setting scope.State :=
  ⟨scope.interface, clients, host⟩

structure Run where
  scope : Scope
  clients : Clients
  host : Capability → Bool
  contexts : List Registers
  /-- How many threads have been started before. -/
  threads : Nat
  depth : Nat
  thread : Nat
  program : Program .thread

namespace Run

/-- The first thread of a program on objects of its own. -/
def alone (clients : Clients) (depth : Nat) (program : Program .thread) : Run :=
  ⟨.own, clients, fun _ => true, [], 0, depth, 0, program⟩

def report (run : Run) : Report run.scope.State (List Reply × Unit) :=
  (run.scope.setting run.clients run.host).runAt run.depth .thread run.thread run.program ()
    ⟨run.scope.initial, run.contexts, run.threads⟩

def outcome (run : Run) : Outcome Unit := run.report.outcome.fate

def history (run : Run) : History Objects := run.report.history.seen

/-- The objects that a run leaves. -/
def final (run : Run) : Objects := Scope.objects run.report.world.state

end Run

end PlatformLayer
