import PlatformLayer.Proofs.Placement
import PlatformLayer.Proofs.StoredBytes

/-!
# Raw memory is a faithful image

A context can be rebuilt from its memory in any layout, since no slot overwrites another. Where the
slots leave no gap, memory can be rebuilt from the context that it holds as well, so contexts and
byte strings of the right length are the same thing in two forms.
-/

namespace PlatformLayer

open Layout

/-- Memories that agree on every slot are the same, where every byte lies in a slot. -/
theorem Layout.Packed.memory_ext {l : Layout} (hpacked : l.Packed) {m m' : List UInt8}
    (hm : m.length = l.size) (hm' : m'.length = l.size)
    (hslots : ∀ s : l.Slot, stretch m s.offset s.width = stretch m' s.offset s.width) : m = m' := by
  apply List.ext_getElem?
  intro b
  by_cases hb : b < l.size
  · obtain ⟨s, hstart, hstop⟩ := hpacked.exists_slot hb
    have hbyte := stretch_eq_iff.mp (hslots s) (b - s.offset) (by omega)
    rwa [Nat.add_sub_cancel' hstart] at hbyte
  · rw [List.getElem?_eq_none (by omega), List.getElem?_eq_none (by omega)]

/-! ### One slot written -/

namespace Layout.Slot

variable {l : Layout} {m : List UInt8} (hm : m.length = l.size) {s t : l.Slot} (v : s.kind.Value)

include hm

theorem encode_fits : s.offset + (Kind.encode v).length ≤ m.length := by
  rw [hm, Kind.encode_length]
  exact s.within

theorem splice_encode_length : (splice m s.offset (Kind.encode v)).length = l.size := by
  rw [splice_length (encode_fits hm v), hm]

theorem stretch_splice_encode :
    stretch (splice m s.offset (Kind.encode v)) s.offset s.width = Kind.encode v := by
  have hself := stretch_splice_self (encode_fits hm v)
  rwa [Kind.encode_length] at hself

theorem stretch_splice_encode_of_ne (hne : t ≠ s) :
    stretch (splice m s.offset (Kind.encode v)) t.offset t.width = stretch m t.offset t.width := by
  apply stretch_splice_of_disjoint (encode_fits hm v)
  rw [Kind.encode_length]
  exact disjoint hne

end Layout.Slot

/-! ### All slots written -/

namespace Context

variable {l : Layout} (c d : Context l)

/-- Writes the values of some slots to memory, in turn. -/
def writeSlots (slots : List l.Slot) (m : List UInt8) : List UInt8 :=
  slots.foldl (fun m s => splice m s.offset (Kind.encode (c.value s))) m

theorem writeSlots_length (slots : List l.Slot) {m : List UInt8} (hm : m.length = l.size) :
    (c.writeSlots slots m).length = l.size := by
  induction slots generalizing m with
  | nil => exact hm
  | cons s slots ih => exact ih (Slot.splice_encode_length hm (c.value s))

/-- A slot that has been written keeps its bytes while others are. -/
theorem stretch_writeSlots (slots : List l.Slot) {m : List UInt8} (hm : m.length = l.size)
    {t : l.Slot}
    (ht : t ∈ slots ∨ stretch m t.offset t.width = Kind.encode (c.value t)) :
    stretch (c.writeSlots slots m) t.offset t.width = Kind.encode (c.value t) := by
  induction slots generalizing m with
  | nil => exact ht.resolve_left List.not_mem_nil
  | cons s slots ih =>
      apply ih (Slot.splice_encode_length hm (c.value s))
      by_cases heq : t = s
      · subst heq
        exact Or.inr (Slot.stretch_splice_encode hm (c.value t))
      · refine ht.imp (fun hmem => (List.mem_cons.mp hmem).resolve_left heq) fun hwritten => ?_
        rw [Slot.stretch_splice_encode_of_ne hm (c.value s) heq, hwritten]

@[simp] theorem memory_length : c.memory.length = l.size :=
  c.writeSlots_length l.slots List.length_replicate

theorem stretch_memory (s : l.Slot) :
    stretch c.memory s.offset s.width = Kind.encode (c.value s) :=
  c.stretch_writeSlots l.slots List.length_replicate (Or.inl (mem_slots s))

theorem ofMemory_memory : ofMemory c.memory = c := by
  ext s
  change Kind.decode s.kind (stretch c.memory s.offset s.width) = c.value s
  rw [stretch_memory, Kind.decode_encode]

theorem memory_inj {c d : Context l} : c.memory = d.memory ↔ c = d := by
  constructor
  · intro h
    rw [← c.ofMemory_memory, h, d.ofMemory_memory]
  · exact congrArg memory

theorem memory_ofMemory (hpacked : l.Packed) {m : List UInt8} (hm : m.length = l.size) :
    (ofMemory m : Context l).memory = m := by
  apply hpacked.memory_ext (memory_length _) hm
  intro s
  have hwidth : (stretch m s.offset s.width).length = s.kind.size := by
    rw [stretch_length (hm ▸ s.within), Slot.width]
  rw [stretch_memory, ofMemory, Kind.encode_decode hwidth]

end Context

/-- **Raw memory is a faithful image of every layout.** The slots lie in declaration order within the
size of the layout, and each byte in exactly one of them. Every slot's bytes are those of its value,
least significant first; contexts and byte strings determine each other; and contexts are equal, slot
by slot, exactly if their memories are. -/
theorem Layout.faithful_of_known (l : Layout) (hknown : l ∈ known) :
    (∀ s t : l.Slot, s.field < t.field → s.offset + s.width ≤ t.offset) ∧
    (∀ s : l.Slot, s.offset + s.width ≤ l.size) ∧
    (∀ b < l.size, ∃ s : l.Slot, (s.offset ≤ b ∧ b < s.offset + s.width) ∧
      ∀ t : l.Slot, t.offset ≤ b ∧ b < t.offset + t.width → t = s) ∧
    (∀ c : Context l, c.memory.length = l.size ∧
      (∀ s : l.Slot, stretch c.memory s.offset s.width
        = leBytes s.width (Kind.toBits (c.value s))) ∧
      Context.ofMemory c.memory = c) ∧
    (∀ m : List UInt8, m.length = l.size → (Context.ofMemory m : Context l).memory = m) ∧
    (∀ c d : Context l, (c = d ↔ ∀ s, c.value s = d.value s) ∧
      (c = d ↔ c.memory = d.memory)) := by
  have hpacked := packed_of_known l hknown
  refine ⟨fun s t => Slot.stop_le_of_field_lt, Slot.within, fun b => hpacked.existsUnique_slot,
    fun c => ⟨c.memory_length, fun s => ?_, c.ofMemory_memory⟩,
    fun m => Context.memory_ofMemory hpacked, fun c d => ⟨?_, Context.memory_inj.symm⟩⟩
  · rw [c.stretch_memory, Kind.encode_eq_leBytes, Slot.width]
  · rw [Context.ext_iff, funext_iff]

/-- A byte string in which no two bytes are the same, as registers of 4 and 8 bytes and back. -/
theorem Layout.faithful_of_arm :
    Layout.arm ∈ known ∧ ((List.range 112).map UInt8.ofNat).length = Layout.arm.size ∧
      (Context.ofMemory ((List.range 112).map UInt8.ofNat) : Context .arm).memory
        = (List.range 112).map UInt8.ofNat := by
  have hknown : Layout.arm ∈ known := by simp [known]
  have hlength : ((List.range 112).map UInt8.ofNat).length = Layout.arm.size := by
    rw [List.length_map, List.length_range]
    decide
  exact ⟨hknown, hlength, (faithful_of_known .arm hknown).2.2.2.2.1 _ hlength⟩

end PlatformLayer
