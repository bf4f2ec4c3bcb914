import PlatformLayer.Layout.Basic

/-!
# Register contexts

A context holds one value per slot of its layout. It can be used in two ways that have to agree:
slot by slot, and as raw memory, where each slot lies at its offset.
-/

namespace PlatformLayer

@[ext] structure Context (l : Layout) where
  value : (s : l.Slot) → s.kind.Value

namespace Context

variable {l : Layout}

def zero : Context l := ⟨fun s => Kind.ofBits s.kind 0⟩

instance : Inhabited (Context l) := ⟨zero⟩

/-- The context with one slot replaced. -/
def store (c : Context l) (s : l.Slot) (v : s.kind.Value) : Context l :=
  ⟨fun t => if h : t = s then h ▸ v else c.value t⟩

/-- The bits of a slot as an unsigned number. -/
def read (c : Context l) (s : l.Slot) : Nat := Kind.toBits (c.value s)

/-- Stores the low bits of `n`, as many as the slot holds. -/
def write (c : Context l) (s : l.Slot) (n : Nat) : Context l :=
  c.store s (Kind.ofBits s.kind n)

/-- The whole context as bytes. -/
def memory (c : Context l) : List UInt8 :=
  l.slots.foldl (fun m s => splice m s.offset (Kind.encode (c.value s))) (List.replicate l.size 0)

/-- The context that some memory holds. -/
def ofMemory (m : List UInt8) : Context l :=
  ⟨fun s => Kind.decode s.kind (stretch m s.offset s.width)⟩

/-- Overwrites raw memory from `start` on, if the bytes fit. -/
def poke? (c : Context l) (start : Nat) (bytes : List UInt8) : Option (Context l) :=
  if start + bytes.length ≤ l.size then some (ofMemory (splice c.memory start bytes)) else none

/-- Contexts are equal when they agree on every slot. -/
instance instDecidableEqContext : DecidableEq (Context l) := fun c d =>
  decidable_of_iff (∀ s ∈ l.slots, c.value s = d.value s)
    ⟨fun h => Context.ext (funext fun s => h s (Layout.mem_slots s)), fun h _ _ => h ▸ rfl⟩

@[simp] theorem store_value_self (c : Context l) (s : l.Slot) (v : s.kind.Value) :
    (c.store s v).value s = v := by
  simp [store]

theorem store_value_of_ne (c : Context l) {s t : l.Slot} (v : s.kind.Value) (h : t ≠ s) :
    (c.store s v).value t = c.value t := by
  simp [store, h]

theorem store_value_eq (c : Context l) (s : l.Slot) : c.store s (c.value s) = c := by
  ext t
  by_cases h : t = s
  · subst h
    simp
  · exact store_value_of_ne c _ h

theorem store_store (c : Context l) (s : l.Slot) (v w : s.kind.Value) :
    (c.store s v).store s w = c.store s w := by
  ext t
  by_cases h : t = s
  · subst h
    simp
  · simp [store_value_of_ne _ _ h]

theorem store_comm (c : Context l) {s t : l.Slot} (h : s ≠ t) (v : s.kind.Value)
    (w : t.kind.Value) : (c.store s v).store t w = (c.store t w).store s v := by
  ext r
  by_cases hs : r = s
  · subst hs
    simp [store_value_of_ne _ _ h]
  · by_cases ht : r = t
    · subst ht
      simp [store_value_of_ne _ _ h.symm]
    · simp [store_value_of_ne _ _ hs, store_value_of_ne _ _ ht]

@[simp] theorem read_write_self (c : Context l) (s : l.Slot) (n : Nat) :
    (c.write s n).read s = n % byteRange s.width := by
  simp [read, write, Kind.toBits_ofBits, Layout.Slot.width]

theorem read_write_of_ne (c : Context l) {s t : l.Slot} (n : Nat) (h : t ≠ s) :
    (c.write s n).read t = c.read t := by
  simp [read, write, store_value_of_ne _ _ h]

@[simp] theorem read_zero (s : l.Slot) : (zero : Context l).read s = 0 := by
  simp [read, zero, Kind.toBits_ofBits]

end Context

end PlatformLayer
