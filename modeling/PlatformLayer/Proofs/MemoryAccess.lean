import PlatformLayer.Architecture.Session
import PlatformLayer.Proofs.MemoryImage

/-!
# Accessors and raw memory agree

Assembly stubs see a context as raw memory, all other code sees slots and register roles. A store
through an accessor is an overwrite of exactly the bytes of its slot. An overwrite of any stretch, be
it part of a slot or several slots at once, shows in every slot as the number that its bytes then
spell, so slots outside the stretch keep their values.
-/

namespace PlatformLayer

open Layout

namespace Context

variable {l : Layout} (c : Context l) {start : Nat} {bytes : List UInt8}

theorem memory_store (hpacked : l.Packed) (s : l.Slot) (v : s.kind.Value) :
    (c.store s v).memory = splice c.memory s.offset (leBytes s.width (Kind.toBits v)) := by
  have hbytes : leBytes s.width (Kind.toBits v) = Kind.encode v := (Kind.encode_eq_leBytes v).symm
  have hm := c.memory_length
  rw [hbytes]
  apply hpacked.memory_ext (memory_length _) (Slot.splice_encode_length hm v)
  intro t
  rw [stretch_memory]
  by_cases heq : t = s
  · subst heq
    rw [store_value_self, Slot.stretch_splice_encode hm v]
  · rw [store_value_of_ne c v heq, Slot.stretch_splice_encode_of_ne hm v heq, stretch_memory]

theorem memory_write (hpacked : l.Packed) (s : l.Slot) (n : Nat) :
    (c.write s n).memory = splice c.memory s.offset (leBytes s.width n) := by
  rw [write, memory_store c hpacked, Kind.toBits_ofBits, Slot.width, leBytes_mod]

theorem spliced_length (hfits : start + bytes.length ≤ l.size) :
    (splice c.memory start bytes).length = l.size := by
  rw [splice_length (by rwa [memory_length]), memory_length]

theorem read_ofMemory {m : List UInt8} (hm : m.length = l.size) (s : l.Slot) :
    (ofMemory m : Context l).read s = ofLeBytes (stretch m s.offset s.width) :=
  Kind.toBits_decode (stretch_length (hm ▸ s.within))

theorem value_ofMemory {m : List UInt8} (hm : m.length = l.size) (s : l.Slot) :
    (ofMemory m : Context l).value s
      = Kind.ofBits s.kind (ofLeBytes (stretch m s.offset s.width)) := by
  have hlt := ofLeBytes_lt (stretch m s.offset s.width)
  rw [stretch_length (hm ▸ s.within)] at hlt
  apply Kind.toBits_injective
  rw [Kind.toBits_ofBits, ← Slot.width, Nat.mod_eq_of_lt hlt]
  exact read_ofMemory hm s

theorem value_spliced_of_disjoint (hfits : start + bytes.length ≤ l.size) {s : l.Slot}
    (hdisjoint : s.offset + s.width ≤ start ∨ start + bytes.length ≤ s.offset) :
    (ofMemory (splice c.memory start bytes) : Context l).value s = c.value s := by
  have hmemory : start + bytes.length ≤ c.memory.length := by rwa [memory_length]
  calc (ofMemory (splice c.memory start bytes) : Context l).value s
    _ = Kind.decode s.kind (stretch (splice c.memory start bytes) s.offset s.width) := rfl
    _ = Kind.decode s.kind (stretch c.memory s.offset s.width) := by
      rw [stretch_splice_of_disjoint hmemory hdisjoint]
    _ = c.value s := by rw [stretch_memory, Kind.decode_encode]

theorem poke?_of_fits (hfits : start + bytes.length ≤ l.size) :
    c.poke? start bytes = some (ofMemory (splice c.memory start bytes)) :=
  if_pos hfits

theorem poke?_of_not_fits (hlong : l.size < start + bytes.length) : c.poke? start bytes = none :=
  if_neg (Nat.not_le_of_lt hlong)

theorem poke?_stretch {width : Nat} (hfits : start + width ≤ l.size) :
    c.poke? start (stretch c.memory start width) = some c := by
  have hmemory : start + width ≤ c.memory.length := by rwa [memory_length]
  rw [poke?_of_fits c (by rwa [stretch_length hmemory]), splice_stretch hmemory, ofMemory_memory]

end Context

/-- Slots and memory are two ways to the same values. -/
structure Layout.Coherent (l : Layout) : Prop where
  store : ∀ (c : Context l) (s : l.Slot) (v : s.kind.Value),
    (c.store s v).memory = splice c.memory s.offset (leBytes s.width (Kind.toBits v))
  poke : ∀ (c : Context l) (start : Nat) (bytes : List UInt8), start + bytes.length ≤ l.size →
    ∃ d, c.poke? start bytes = some d ∧ d.memory = splice c.memory start bytes ∧
      (∀ s : l.Slot, d.value s = Kind.ofBits s.kind
        (ofLeBytes (stretch (splice c.memory start bytes) s.offset s.width))) ∧
      ∀ s : l.Slot, s.offset + s.width ≤ start ∨ start + bytes.length ≤ s.offset →
        d.value s = c.value s
  unchanged : ∀ (c : Context l) (start width : Nat), start + width ≤ l.size →
    c.poke? start (stretch c.memory start width) = some c
  refused : ∀ (c : Context l) (start : Nat) (bytes : List UInt8),
    l.size < start + bytes.length → c.poke? start bytes = none

theorem Layout.Packed.coherent {l : Layout} (hpacked : l.Packed) : l.Coherent where
  store c := c.memory_store hpacked
  poke c start bytes hfits := by
    have hlength := c.spliced_length hfits
    exact ⟨_, c.poke?_of_fits hfits, Context.memory_ofMemory hpacked hlength,
      Context.value_ofMemory hlength, fun s => c.value_spliced_of_disjoint hfits⟩
  unchanged c start width := c.poke?_stretch
  refused c start bytes := c.poke?_of_not_fits

namespace Architecture

variable {a : Architecture}

/-- The number that the bytes of a slot spell in some memory. -/
def spelled (m : List UInt8) (s : a.layout.Slot) : Nat := ofLeBytes (stretch m s.offset s.width)

/-- Register roles and memory are two ways to the same values. -/
structure Coherent (a : Architecture) : Prop where
  setIp : ∀ (c : a.Snapshot) (n : Nat), (Architecture.setIp c n).memory
    = splice c.memory a.instruction.offset (leBytes a.instruction.width n)
  setSp : ∀ roles ∈ a.stack, ∀ (c : a.Snapshot) (n : Nat), ∃ d, Architecture.setSp c n = .ok d ∧
    d.memory = splice c.memory roles.sp.offset (leBytes roles.sp.width n)
  noSp : a.stack = none → ∀ (c : a.Snapshot) (n : Nat),
    Architecture.setSp c n = .error (.unimplemented .setSp)
  poke : ∀ (c : a.Snapshot) (start : Nat) (bytes : List UInt8),
    start + bytes.length ≤ a.layout.size → ∃ d : a.Snapshot, c.poke? start bytes = some d ∧
      ip d = spelled (splice c.memory start bytes) a.instruction ∧
      ∀ roles ∈ a.stack, sp d = .ok (spelled (splice c.memory start bytes) roles.sp) ∧
        fp d = .ok (spelled (splice c.memory start bytes) roles.fp) ∧
        lr d = .ok (roles.lr.map (spelled (splice c.memory start bytes)))
  refused : ∀ (bank : Session.Bank a) (i : Session.Index) (start : Nat) (bytes : List UInt8),
    a.layout.size < start + bytes.length →
      Session.apply bank i (.poke start bytes) = .ok (.outOfBounds, bank i)

theorem coherent_of_packed (hpacked : a.layout.Packed) : a.Coherent where
  setIp c n := c.memory_write hpacked a.instruction n
  setSp := by
    intro roles hroles c n
    exact ⟨c.write roles.sp n, by rw [Architecture.setSp, hroles], c.memory_write hpacked roles.sp n⟩
  noSp := by
    intro hnone c n
    rw [Architecture.setSp, hnone]
  poke := by
    intro c start bytes hfits
    have hread := Context.read_ofMemory (c.spliced_length hfits)
    refine ⟨_, c.poke?_of_fits hfits, hread a.instruction, fun roles hroles => ⟨?_, ?_, ?_⟩⟩
    · rw [sp, hroles]
      exact congrArg Except.ok (hread roles.sp)
    · rw [fp, hroles]
      exact congrArg Except.ok (hread roles.fp)
    · rw [lr, hroles]
      exact congrArg (fun read => Except.ok (roles.lr.map read)) (funext hread)
  refused := by
    intro bank i start bytes hlong
    rw [Session.apply, (bank i).poke?_of_not_fits hlong]

/-- The fields that play the general roles, with their offsets: the instruction pointer, the stack
and frame pointers and the link register, as far as the machine has them. -/
def roleFields (a : Architecture) : List (String × Nat) :=
  let slots := a.instruction :: match a.stack with
    | none => []
    | some roles => roles.sp :: roles.fp :: roles.lr.toList
  slots.map fun s => (s.name, s.offset)

theorem layout_known : ∀ x ∈ catalog, x.2.layout ∈ known := by
  simp [catalog, known, native, amd64Unix, amd64, arm64, riscv64, arm, x86, unsupported]

/-- **Accessors and raw memory agree**, slot by slot on every layout and role by role on every
machine. -/
theorem accessors_agree_with_memory :
    (∀ l ∈ known, l.Coherent) ∧ (∀ x ∈ catalog, x.2.Coherent) ∧
      catalog.map (fun x => (x.1, x.2.roleFields)) =
        [ ("native", [("ip", 0), ("rsp", 8), ("rbp", 16)])
        , ("amd64_unix", [("ip", 0), ("rsp", 8), ("rbp", 16)])
        , ("amd64", [("ip", 0), ("rsp", 8), ("rbp", 16)])
        , ("arm64", [("ip", 120), ("sp", 112), ("fp", 0), ("lr", 8)])
        , ("riscv64", [("ip", 128), ("sp", 120), ("fp", 0), ("ra", 8)])
        , ("arm", [("ip", 36), ("sp", 40), ("r7", 16), ("lr", 44)])
        , ("x86", [("ip", 0), ("rsp", 4), ("rbp", 8)])
        , ("unsupported", [("ip", 0)]) ] :=
  ⟨fun l hknown => (packed_of_known l hknown).coherent,
    fun x hx => coherent_of_packed (packed_of_known _ (layout_known x hx)), by decide⟩

/-- Ten bytes from the last byte of the stack pointer on: they reach over the whole instruction
pointer into the first byte of a vector register, and the frame pointer is out of their way. -/
theorem accessors_agree_with_memory_straddling :
    ∃ d : riscv64.Snapshot,
      (Context.zero : riscv64.Snapshot).poke? 127 [1, 2, 3, 4, 5, 6, 7, 8, 9, 10] = some d ∧
        ip d = 0x0908070605040302 ∧ sp d = .ok 0x0100000000000000 ∧ fp d = .ok 0 := by
  have hcoherent := accessors_agree_with_memory.2.1 ("riscv64", riscv64) (by simp [catalog])
  obtain ⟨d, hpoke, hip, hroles⟩ :=
    hcoherent.poke Context.zero 127 [1, 2, 3, 4, 5, 6, 7, 8, 9, 10] (by decide)
  obtain ⟨hsp, hfp, -⟩ := hroles _ rfl
  refine ⟨d, hpoke, ?_, ?_, ?_⟩
  · exact hip.trans (by decide +kernel)
  · exact hsp.trans (congrArg Except.ok (by decide +kernel))
  · exact hfp.trans (congrArg Except.ok (by decide +kernel))

end Architecture

end PlatformLayer
