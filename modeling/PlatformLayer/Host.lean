import PlatformLayer.Interface

/-!
# The host's own probe

What the host itself reports. No host offers write watching or low-memory notification; whether the
number of the current processor can be read depends on the processor.
-/

namespace PlatformLayer

structure Host where
  processorNumber : Bool
  deriving DecidableEq

namespace Host

def offers (h : Host) : Capability → Bool
  | .writeWatch => false
  | .lowMemoryNotification => false
  | .currentProcessorNumber => h.processorNumber

/-- A host on bare metal offers nothing. -/
def bare : Host := ⟨false⟩

/-- A host on a processor that can tell its number. -/
def hosted : Host := ⟨true⟩

/-- What every host says alike, or nothing where hosts differ. -/
def verdict? (c : Capability) : Option Bool :=
  if bare.offers c = hosted.offers c then some (bare.offers c) else none

/-- The set that a new registry publishes when the host is asked. -/
def published (h : Host) : Option CapabilitySet :=
  let start : World Objects := ⟨.new, [], 0⟩
  (Registry.init Objects.registryCell (fun c => pure (.ok (h.offers c))) start).world.state
    |>.registry.published

/-- Asking a host again, and initialising a registry from it, tell the same. -/
def stable (h : Host) (c : Capability) : Bool :=
  h.published.any fun s => s.contains c == h.offers c

end Host

end PlatformLayer
