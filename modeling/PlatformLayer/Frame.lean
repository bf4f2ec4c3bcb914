import PlatformLayer.Architecture.Catalog

/-!
# Handler frames

While a handler runs it works on the interrupted registers and on two argument words, which its
dispatcher picks up if the fault is resumed. Every activation has argument words of its own.
-/

namespace PlatformLayer

/-- The registers of an interrupted thread. -/
abbrev Registers := Architecture.native.Snapshot

namespace Registers

def resumeAt (ip sp : UInt64) : Registers :=
  Architecture.native.resumeAt ip.toNat sp.toNat

end Registers

/-- A word that a running handler can reach. -/
inductive Place where
  | arg0
  | arg1
  | register (s : Architecture.native.layout.Slot)
  deriving DecidableEq

namespace Place

/-- Names of places that may be stored to: the argument words, the two registers that can be
redirected by role, and every slot by its own name. -/
def target? : String → Option Place
  | "arg0" => some arg0
  | "arg1" => some arg1
  | "ip" => some (register Architecture.native.instruction)
  | "sp" => (Architecture.native.stack).map fun roles => register roles.sp
  | name => (Architecture.native.layout.slot? name).map register

/-- Names of places that may be loaded from; the frame pointer is one of them. -/
def source? : String → Option Place
  | "fp" => (Architecture.native.stack).map fun roles => register roles.fp
  | name => target? name

end Place

structure Frame where
  registers : Registers
  arg0 : UInt64
  arg1 : UInt64

namespace Frame

/-- Both argument words of a new activation are zero. -/
def enter (registers : Registers) : Frame := ⟨registers, 0, 0⟩

def load (frame : Frame) : Place → UInt64
  | .arg0 => frame.arg0
  | .arg1 => frame.arg1
  | .register s => UInt64.ofNat (frame.registers.read s)

def store (frame : Frame) : Place → UInt64 → Frame
  | .arg0, v => { frame with arg0 := v }
  | .arg1, v => { frame with arg1 := v }
  | .register s, v => { frame with registers := frame.registers.write s v.toNat }

end Frame

end PlatformLayer
