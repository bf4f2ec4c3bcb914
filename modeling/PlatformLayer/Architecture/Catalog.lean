import PlatformLayer.Architecture.Basic

/-!
# The machines

Layouts and register roles of every machine the layer knows, and the machine it falls back to where
none is described. Assembly stubs read these layouts, so order and widths are fixed.
-/

namespace PlatformLayer

namespace Layout

/-- The scalar slot at position `i` of a layout. -/
def scalarSlot (l : Layout) (i : Nat) (h : i < l.fields.length)
    (one : 0 < (l.fields.get ⟨i, h⟩).count) : l.Slot :=
  ⟨⟨i, h⟩, ⟨0, one⟩⟩

def amd64Unix : Layout where
  name := "Amd64UnixContext"
  fields := ["ip", "rsp", "rbp", "rax", "rbx", "rdx", "r12", "r13", "r14", "r15"].map
    (Field.scalar .word64)

def amd64 : Layout where
  name := "Amd64Context"
  fields :=
    ["ip", "rsp", "rbp", "rdi", "rsi", "rax", "rbx", "r12", "r13", "r14", "r15", "_padding"].map
      (Field.scalar .word64) ++
    ["xmm6", "xmm7", "xmm8", "xmm9", "xmm10", "xmm11", "xmm12", "xmm13", "xmm14", "xmm15"].map
      (Field.scalar .vector128)

def arm64 : Layout where
  name := "Arm64Context"
  fields :=
    ["fp", "lr", "x0", "x1", "x19", "x20", "x21", "x22", "x23", "x24", "x25", "x26", "x27", "x28",
      "sp", "ip"].map (Field.scalar .word64) ++
    [Field.array .word64 "d" 8]

def riscv64 : Layout where
  name := "RiscV64Context"
  fields :=
    ["fp", "ra", "a0", "a1"].map (Field.scalar .word64) ++ [Field.array .word64 "s" 11] ++
    ["sp", "ip"].map (Field.scalar .word64) ++ [Field.array .word64 "fs" 12]

def arm : Layout where
  name := "ArmContext"
  fields :=
    ["r0", "r4", "r5", "r6", "r7", "r8", "r9", "r10", "r11", "ip", "sp", "lr"].map
      (Field.scalar .word32) ++
    [Field.array .word64 "d" 8]

def x86 : Layout where
  name := "X86Context"
  fields := ["ip", "rsp", "rbp", "rdi", "rsi", "rax", "rbx"].map (Field.scalar .word32)

/-- Where no machine is described only the resume address is kept. -/
def unsupported : Layout where
  name := "UnsupportedContext"
  fields := [Field.scalar .word64 "ip"]

/-- A vector save slot on its own, aligned for vector loads. -/
def vector : Layout where
  name := "Fp128"
  fields := [Field.scalar .word64 "low", Field.scalar .signed64 "high"]
  alignment := 16

end Layout

namespace Architecture

def amd64Unix : Architecture where
  layout := .amd64Unix
  instruction := Layout.amd64Unix.scalarSlot 0 (by decide) (by decide)
  stack := some
    { sp := Layout.amd64Unix.scalarSlot 1 (by decide) (by decide)
      fp := Layout.amd64Unix.scalarSlot 2 (by decide) (by decide)
      lr := none }

def amd64 : Architecture where
  layout := .amd64
  instruction := Layout.amd64.scalarSlot 0 (by decide) (by decide)
  stack := some
    { sp := Layout.amd64.scalarSlot 1 (by decide) (by decide)
      fp := Layout.amd64.scalarSlot 2 (by decide) (by decide)
      lr := none }

def arm64 : Architecture where
  layout := .arm64
  instruction := Layout.arm64.scalarSlot 15 (by decide) (by decide)
  stack := some
    { sp := Layout.arm64.scalarSlot 14 (by decide) (by decide)
      fp := Layout.arm64.scalarSlot 0 (by decide) (by decide)
      lr := some (Layout.arm64.scalarSlot 1 (by decide) (by decide)) }

def riscv64 : Architecture where
  layout := .riscv64
  instruction := Layout.riscv64.scalarSlot 6 (by decide) (by decide)
  stack := some
    { sp := Layout.riscv64.scalarSlot 5 (by decide) (by decide)
      fp := Layout.riscv64.scalarSlot 0 (by decide) (by decide)
      lr := some (Layout.riscv64.scalarSlot 1 (by decide) (by decide)) }

/-- The frame chain runs through `r7`. -/
def arm : Architecture where
  layout := .arm
  instruction := Layout.arm.scalarSlot 9 (by decide) (by decide)
  stack := some
    { sp := Layout.arm.scalarSlot 10 (by decide) (by decide)
      fp := Layout.arm.scalarSlot 4 (by decide) (by decide)
      lr := some (Layout.arm.scalarSlot 11 (by decide) (by decide)) }

def x86 : Architecture where
  layout := .x86
  instruction := Layout.x86.scalarSlot 0 (by decide) (by decide)
  stack := some
    { sp := Layout.x86.scalarSlot 1 (by decide) (by decide)
      fp := Layout.x86.scalarSlot 2 (by decide) (by decide)
      lr := none }

def unsupported : Architecture where
  layout := .unsupported
  instruction := Layout.unsupported.scalarSlot 0 (by decide) (by decide)
  stack := none

/-- The machine that faults are handled on. -/
def native : Architecture := amd64Unix

/-- Every machine under the name by which it is selected. -/
def catalog : List (String × Architecture) :=
  [ ("native", native), ("amd64_unix", amd64Unix), ("amd64", amd64), ("arm64", arm64)
  , ("riscv64", riscv64), ("arm", arm), ("x86", x86), ("unsupported", unsupported) ]

def ofName? (name : String) : Option Architecture :=
  catalog.lookup name

end Architecture

/-- The layouts that can be described: those of the machines and that of a vector save slot. -/
def Layout.ofName? (name : String) : Option Layout :=
  if name = "fp128" then some Layout.vector else (Architecture.ofName? name).map (·.layout)

end PlatformLayer
