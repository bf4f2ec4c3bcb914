/-!
# Host capabilities

A capability is an optional service of the host. Each has a published bit, and a bit pattern names a
capability only when it is exactly that bit.
-/

namespace PlatformLayer

inductive Capability where
  | writeWatch
  | lowMemoryNotification
  | currentProcessorNumber
  deriving DecidableEq, Inhabited

namespace Capability

/-- Every capability, in the order in which a host is asked about them. -/
def all : List Capability :=
  [writeWatch, lowMemoryNotification, currentProcessorNumber]

def bits : Capability → UInt32
  | writeWatch => 0x1
  | lowMemoryNotification => 0x2
  | currentProcessorNumber => 0x4

def name : Capability → String
  | writeWatch => "WriteWatch"
  | lowMemoryNotification => "LowMemoryNotification"
  | currentProcessorNumber => "CurrentProcessorNumber"

/-- The capability whose bit is exactly `b`. -/
def ofBits? (b : UInt32) : Option Capability :=
  all.find? fun c => c.bits == b

def ofName? (text : String) : Option Capability :=
  all.find? fun c => c.name == text

theorem mem_all (c : Capability) : c ∈ all := by
  cases c <;> decide

theorem bits_inj {c d : Capability} : c.bits = d.bits ↔ c = d := by
  cases c <;> cases d <;> decide

theorem ofBits?_bits (c : Capability) : ofBits? c.bits = some c := by
  cases c <;> rfl

theorem ofBits?_eq_some_iff {b : UInt32} {c : Capability} : ofBits? b = some c ↔ b = c.bits := by
  constructor
  · intro h
    have hfound := List.find?_some h
    exact (beq_iff_eq.mp hfound).symm
  · rintro rfl
    exact ofBits?_bits c

end Capability

end PlatformLayer
