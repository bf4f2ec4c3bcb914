import PlatformLayer.Context.Text
import PlatformLayer.Failure

/-!
# Architectures

An architecture is a layout together with the slots that play the general roles: the instruction
pointer and, where the machine is described that far, the stack and frame pointers and a link
register. Code that only uses these roles need not know the layout.

An architecture without stack registers has an instruction pointer only; asking it for another
register halts rather than making up a value.
-/

namespace PlatformLayer

/-- The roles of a described machine. Not every machine keeps the return address in a register. -/
structure StackRegisters (l : Layout) where
  sp : l.Slot
  fp : l.Slot
  lr : Option l.Slot

structure Architecture where
  layout : Layout
  instruction : layout.Slot
  stack : Option (StackRegisters layout)

namespace Architecture

variable {a : Architecture}

/-- A snapshot of the registers of one machine. -/
abbrev Snapshot (a : Architecture) := Context a.layout

/-- Width in bytes of an address. -/
def wordSize (a : Architecture) : Nat := a.instruction.width

def ip (c : a.Snapshot) : Nat := c.read a.instruction

def setIp (c : a.Snapshot) (n : Nat) : a.Snapshot := c.write a.instruction n

/-- Moves the instruction pointer forward, wrapping at the word width. -/
def advance (c : a.Snapshot) (n : Nat) : a.Snapshot := setIp c (ip c + n)

def sp (c : a.Snapshot) : Except Halt Nat :=
  match a.stack with
  | some roles => .ok (c.read roles.sp)
  | none => .error (.unimplemented .getSp)

def setSp (c : a.Snapshot) (n : Nat) : Except Halt a.Snapshot :=
  match a.stack with
  | some roles => .ok (c.write roles.sp n)
  | none => .error (.unimplemented .setSp)

def fp (c : a.Snapshot) : Except Halt Nat :=
  match a.stack with
  | some roles => .ok (c.read roles.fp)
  | none => .error (.unimplemented .getFp)

/-- The link register, or nothing on a machine that pushes return addresses. -/
def lr (c : a.Snapshot) : Except Halt (Option Nat) :=
  match a.stack with
  | some roles => .ok (roles.lr.map c.read)
  | none => .error (.unimplemented .getLr)

/-- A snapshot that resumes at `ip` with the stack at `sp`, all else zero. -/
def resumeAt (a : Architecture) (ip sp : Nat) : a.Snapshot :=
  let c := setIp Context.zero ip
  match a.stack with
  | some roles => c.write roles.sp sp
  | none => c

end Architecture

end PlatformLayer
