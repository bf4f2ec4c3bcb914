import PlatformLayer.Proofs.MemoryAccess

/-!
# Vector registers as raw bits

A save slot holds a vector register as two halves, the high one signed. The sign of that half is the
sign of the word and spreads nowhere else, so halves and words determine each other. The halves lie in
memory as the word would, and a register saved among others is the same word by every way to it.
-/

namespace PlatformLayer

open Layout

/-! ### Halves and words -/

namespace Vector128

theorem toBits_inj {v w : Vector128} : v.toBits = w.toBits ↔ v = w := by
  constructor
  · intro h
    rw [← ofBits_toBits v, h, ofBits_toBits]
  · exact congrArg toBits

/-- The word is signed as its high half is, and the low half adds to it. -/
theorem toBits_toInt (v : Vector128) :
    v.toBits.toInt = v.high.toInt * byteRange 8 + v.low.toNat := by
  have hlow : v.low.toNat < 18446744073709551616 := v.low.toNat_lt
  have hword : v.toBits.toNat = v.low.toNat + 18446744073709551616 * v.high.toBitVec.toNat :=
    v.toBits_toNat
  have hhigh : v.high.toInt = v.high.toBitVec.toInt := rfl
  have hrange : (byteRange 8 : Int) = 18446744073709551616 := rfl
  rw [hhigh, hrange, BitVec.toInt_eq_toNat_cond, BitVec.toInt_eq_toNat_cond, hword]
  split <;> split <;> omega

/-! ### Halves in memory -/

def lowHalf : Layout.vector.Slot := Layout.vector.scalarSlot 0 (by decide) (by decide)

def highHalf : Layout.vector.Slot := Layout.vector.scalarSlot 1 (by decide) (by decide)

/-- The register that a record of two halves holds. -/
def ofRecord (c : Context .vector) : Vector128 := ⟨c.value lowHalf, c.value highHalf⟩

theorem memory_record (c : Context .vector) : c.memory = (ofRecord c).bytes := by
  have hlow : stretch c.memory 0 8 = leBytes 8 (ofRecord c).low.toNat := c.stretch_memory lowHalf
  have hhigh : stretch c.memory 8 8 = leBytes 8 (ofRecord c).high.toUInt64.toNat :=
    c.stretch_memory highHalf
  have hlength : c.memory.length = 8 + 8 := c.memory_length
  rw [bytes, ← hlow, ← hhigh, stretch_append hlength]

end Vector128

/-! ### Registers saved among others -/

theorem Kind.toBits_cast {k : Kind} (hkind : k = .vector128) (v : k.Value) :
    (Vector128.toBits (cast (congrArg Value hkind) v)).toNat = toBits v := by
  subst hkind
  rfl

theorem Layout.Slot.width_of_vector {l : Layout} {s : l.Slot} (hkind : s.kind = .vector128) :
    s.width = 16 := by
  rw [width, hkind]
  rfl

namespace Context

variable {l : Layout} (c : Context l) {s : l.Slot}

theorem stretch_memory_eq_leBytes :
    stretch c.memory s.offset s.width = leBytes s.width (c.read s) := by
  rw [c.stretch_memory, Kind.encode_eq_leBytes]
  rfl

theorem read_eq_ofLeBytes : c.read s = ofLeBytes (stretch c.memory s.offset s.width) := by
  have hread := read_ofMemory c.memory_length s
  rwa [ofMemory_memory] at hread

variable (hkind : s.kind = .vector128)

/-- The register that a vector slot holds. -/
def vectorAt : Vector128 := cast (congrArg Kind.Value hkind) (c.value s)

theorem toBits_vectorAt : (c.vectorAt hkind).toBits.toNat = c.read s :=
  Kind.toBits_cast hkind (c.value s)

theorem vectorAt_eq_ofBits {b : BitVec 128} (hread : c.read s = b.toNat) :
    c.vectorAt hkind = Vector128.ofBits b := by
  apply Vector128.toBits_inj.mp
  apply BitVec.eq_of_toNat_eq
  rw [toBits_vectorAt, hread, Vector128.toBits_ofBits]

/-- The slot is one word, whether it is read or written as a register or as sixteen bytes. -/
structure SavesRaw : Prop where
  read : c.read s = (c.vectorAt hkind).toBits.toNat
  bytes : stretch c.memory s.offset 16 = leBytes 16 (c.vectorAt hkind).toBits.toNat
  word : (c.vectorAt hkind).toBits.toNat = ofLeBytes (stretch c.memory s.offset 16)
  write : ∀ b : BitVec 128, (c.write s b.toNat).vectorAt hkind = Vector128.ofBits b ∧
    (c.write s b.toNat).memory = splice c.memory s.offset (leBytes 16 b.toNat)
  poke : ∀ bytes : List UInt8, bytes.length = 16 → ∃ d, c.poke? s.offset bytes = some d ∧
    d.memory = splice c.memory s.offset bytes ∧
    (d.vectorAt hkind).toBits.toNat = ofLeBytes bytes

theorem vectorAt_write (b : BitVec 128) :
    (c.write s b.toNat).vectorAt hkind = Vector128.ofBits b := by
  have hlt : b.toNat < byteRange 16 := b.isLt
  apply vectorAt_eq_ofBits
  rw [read_write_self, Slot.width_of_vector hkind, Nat.mod_eq_of_lt hlt]

theorem vectorAt_poke (hpacked : l.Packed) {bytes : List UInt8} (hlength : bytes.length = 16) :
    ∃ d, c.poke? s.offset bytes = some d ∧ d.memory = splice c.memory s.offset bytes ∧
      (d.vectorAt hkind).toBits.toNat = ofLeBytes bytes := by
  have hwidth : bytes.length = s.width := by rw [hlength, Slot.width_of_vector hkind]
  have hfits : s.offset + bytes.length ≤ l.size := hwidth ▸ s.within
  have hmemory : s.offset + bytes.length ≤ c.memory.length := by rwa [memory_length]
  have hspliced := c.spliced_length hfits
  refine ⟨_, c.poke?_of_fits hfits, memory_ofMemory hpacked hspliced, ?_⟩
  rw [toBits_vectorAt, read_ofMemory hspliced, ← hwidth, stretch_splice_self hmemory]

theorem savesRaw (hpacked : l.Packed) : c.SavesRaw hkind := by
  have hwidth := Slot.width_of_vector hkind
  have hbytes := c.stretch_memory_eq_leBytes (s := s)
  have hword := c.read_eq_ofLeBytes (s := s)
  rw [hwidth] at hbytes hword
  refine ⟨(c.toBits_vectorAt hkind).symm, ?_, ?_, fun b => ⟨c.vectorAt_write hkind b, ?_⟩,
    fun bytes => c.vectorAt_poke hkind hpacked⟩
  · rw [toBits_vectorAt, hbytes]
  · rw [toBits_vectorAt, hword]
  · rw [c.memory_write hpacked, hwidth]

end Context

namespace Vector128

/-- **Packing keeps raw bits.** Halves and words determine each other, negative high halves included,
and the halves lie in memory as the little-endian bytes of the word. So every vector register of a
snapshot is the same word as a register and as sixteen bytes. -/
theorem packing_keeps_raw_bits :
    (∀ b : BitVec 128, (ofBits b).toBits = b) ∧
    (∀ (low : UInt64) (high : Int64), ofBits (toBits ⟨low, high⟩) = ⟨low, high⟩) ∧
    (∀ v w : Vector128, v = w ↔ v.toBits = w.toBits) ∧
    (∀ v : Vector128, v.toBits.toInt = v.high.toInt * byteRange 8 + v.low.toNat) ∧
    (∀ c : Context .vector, c.memory = leBytes 16 (ofRecord c).toBits.toNat) ∧
    (∀ v : Vector128, v.bytes = leBytes 16 v.toBits.toNat) ∧
    (∀ (c : Context .amd64) (s : Layout.amd64.Slot) (hkind : s.kind = .vector128),
      c.SavesRaw hkind) ∧
    (Layout.amd64.slots.filter fun s => s.kind = .vector128).map (fun s => (s.name, s.offset)) =
      [ ("xmm6", 96), ("xmm7", 112), ("xmm8", 128), ("xmm9", 144), ("xmm10", 160), ("xmm11", 176)
      , ("xmm12", 192), ("xmm13", 208), ("xmm14", 224), ("xmm15", 240) ] := by
  have hpacked : Layout.amd64.Packed := packed_of_known _ (by simp [known])
  refine ⟨toBits_ofBits, fun low high => ofBits_toBits ⟨low, high⟩, fun v w => toBits_inj.symm,
    toBits_toInt, fun c => ?_, bytes_eq_leBytes, fun c s hkind => c.savesRaw hkind hpacked, ?_⟩
  · rw [memory_record, bytes_eq_leBytes]
  · decide

/-- A signalling pattern with a negative high half, poked as bytes into one register of a snapshot. -/
theorem packing_keeps_raw_bits_signalling :
    let xmm9 : Layout.amd64.Slot := Layout.amd64.scalarSlot 15 (by decide) (by decide)
    let bytes : List UInt8 := [0x01, 0, 0, 0, 0, 0, 0xf0, 0x7f, 0x01, 0, 0, 0, 0, 0, 0, 0x80]
    ∃ (hkind : xmm9.kind = .vector128) (d : Context .amd64),
      (Context.zero : Context .amd64).poke? 144 bytes = some d ∧
      d.vectorAt hkind = ⟨0x7ff0000000000001, -9223372036854775807⟩ ∧
      (d.vectorAt hkind).toBits = 0x80000000000000017ff0000000000001#128 := by
  intro xmm9 bytes
  have hkind : xmm9.kind = .vector128 := rfl
  have hoffset : xmm9.offset = 144 := by decide
  obtain ⟨-, -, hinj, -, -, -, hsaves, -⟩ := packing_keeps_raw_bits
  obtain ⟨d, hpoke, -, hword⟩ := (hsaves Context.zero xmm9 hkind).poke bytes rfl
  rw [hoffset] at hpoke
  have hbits : (d.vectorAt hkind).toBits = 0x80000000000000017ff0000000000001#128 := by
    apply BitVec.eq_of_toNat_eq
    exact hword.trans (by decide)
  refine ⟨hkind, d, hpoke, (hinj _ _).mpr ?_, hbits⟩
  rw [hbits]
  decide

end Vector128

end PlatformLayer
