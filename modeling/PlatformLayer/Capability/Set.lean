import PlatformLayer.Capability.Basic
import PlatformLayer.Text.Record

/-!
# Sets of capabilities

A set is one 32-bit word. Members are the capabilities whose bit is set; other bits may be present
in the word and are passed over when the set is walked.
-/

namespace PlatformLayer

structure CapabilitySet where
  bits : UInt32
  deriving DecidableEq, Inhabited

namespace CapabilitySet

def empty : CapabilitySet := ⟨0⟩

def insert (s : CapabilitySet) (c : Capability) : CapabilitySet :=
  ⟨s.bits ||| c.bits⟩

def contains (s : CapabilitySet) (c : Capability) : Bool :=
  s.bits &&& c.bits != 0

def isEmpty (s : CapabilitySet) : Bool :=
  s.bits == 0

/-- The set of the capabilities that occur in a list. -/
def ofList (cs : List Capability) : CapabilitySet :=
  cs.foldl insert empty

/-- The indexes of the set bits of a word, in ascending order. -/
def bitIndexes (w : UInt32) : List Nat :=
  (List.range 32).filter fun i => w.toNat.testBit i

/-- The members in ascending order of their bits. -/
def toList (s : CapabilitySet) : List Capability :=
  (bitIndexes s.bits).filterMap fun i => Capability.ofBits? (1 <<< UInt32.ofNat i)

/-- The members' names, for a log line. -/
def display (s : CapabilitySet) : String :=
  if s.isEmpty then "(none)" else " | ".intercalate (s.toList.map Capability.name)

def text (s : CapabilitySet) : String :=
  Text.applied "CapabilitySet" (toString s.bits.toNat)

end CapabilitySet

end PlatformLayer
