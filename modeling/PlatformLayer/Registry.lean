import PlatformLayer.Action

/-!
# The capability registry

Capabilities are probed once. Until the first `init` has asked about every one of them nothing is
published, and a query halts; afterwards the published set never changes and no probe is asked
again. A probe may use the layer while it is being asked, and finds the registry unpublished.
-/

namespace PlatformLayer

namespace Registry

/-- A registry in the middle of its first `init` is `probing`. -/
inductive Phase where
  | idle
  | probing
  | ready (s : CapabilitySet)
  deriving DecidableEq

end Registry

/-- The serial number tells a registry from the one that takes its place. -/
structure Registry where
  serial : Nat
  phase : Registry.Phase
  deriving DecidableEq

namespace Registry

def new : Registry := ⟨0, .idle⟩

/-- The unused registry that takes the place of `r`. -/
def successor (r : Registry) : Registry := ⟨r.serial + 1, .idle⟩

def published (r : Registry) : Option CapabilitySet :=
  match r.phase with
  | .ready s => some s
  | _ => none

/-- Publishes into the registry that was being filled, unless another has taken its place. -/
def publish (r : Registry) (serial : Nat) (s : CapabilitySet) : Registry :=
  if r.serial = serial then { r with phase := .ready s } else r

variable {σ : Type} (cell : Cell σ Registry) (ask : Capability → Action σ Answer)

/-- Asks about one capability; a probe that fails is logged and counts as absent. -/
def askOne (c : Capability) : Action σ Bool := do
  Action.mark (.asked c)
  let answer ← ask c
  Action.mark (.answered c answer)
  match answer with
  | .ok present => pure present
  | .error failure => do
    Action.log (.probeFailed c failure)
    pure false

/-- Asks about each capability in turn and adds those present to `s`. -/
def askAll : List Capability → CapabilitySet → Action σ CapabilitySet
  | [], s => pure s
  | c :: rest, s => do
    let present ← askOne ask c
    askAll rest (if present then s.insert c else s)

/-- Probes and publishes, the first time; later calls keep the published set. A call made while the
first is still probing waits for it forever. -/
def init : Action σ CapabilitySet := do
  let r ← cell.read
  match r.phase with
  | .ready s => do
    Action.log (.capabilitiesKept s)
    pure s
  | .probing => Action.hang
  | .idle => do
    cell.write { r with phase := .probing }
    let s ← askAll ask Capability.all .empty
    let now ← cell.read
    cell.write (now.publish r.serial s)
    Action.log (.capabilitiesPublished s)
    pure s

def snapshot : Action σ (Option CapabilitySet) := do
  let r ← cell.read
  pure r.published

def isReady : Action σ Bool := do
  let r ← cell.read
  pure r.published.isSome

def has (c : Capability) : Action σ Bool := do
  let r ← cell.read
  match r.published with
  | some s => pure (s.contains c)
  | none => Action.halt (.queriedTooEarly c)

/-- A query by bit value; anything but exactly one known bit halts first. -/
def hasBits (bits : UInt32) : Action σ Bool :=
  match Capability.ofBits? bits with
  | some c => has cell c
  | none => Action.halt (.unknownCapability bits)

end Registry

end PlatformLayer
