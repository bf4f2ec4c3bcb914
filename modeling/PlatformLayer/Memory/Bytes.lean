/-!
# Bytes in memory

Numbers are stored least significant byte first. `splice` overwrites a stretch of memory and leaves
the rest alone; reading any stretch after it is settled by the lemmas at the end.
-/

namespace PlatformLayer

/-- The `width` low bytes of `n`, least significant first. -/
def leBytes : Nat → Nat → List UInt8
  | 0, _ => []
  | width + 1, n => UInt8.ofNat n :: leBytes width (n / 256)

/-- How many numbers `width` bytes can tell apart. -/
def byteRange : Nat → Nat
  | 0 => 1
  | width + 1 => 256 * byteRange width

/-- The number that little-endian bytes spell. -/
def ofLeBytes : List UInt8 → Nat
  | [] => 0
  | b :: rest => b.toNat + 256 * ofLeBytes rest

/-- Memory with the bytes from `start` on replaced by `bytes`. -/
def splice (memory : List UInt8) (start : Nat) (bytes : List UInt8) : List UInt8 :=
  memory.take start ++ bytes ++ memory.drop (start + bytes.length)

/-- The `width` bytes from `start` on. -/
def stretch (memory : List UInt8) (start width : Nat) : List UInt8 :=
  (memory.drop start).take width

@[simp] theorem leBytes_length (width n : Nat) : (leBytes width n).length = width := by
  induction width generalizing n with
  | zero => rfl
  | succ width ih => simp [leBytes, ih]

theorem ofLeBytes_leBytes (width n : Nat) : ofLeBytes (leBytes width n) = n % byteRange width := by
  induction width generalizing n with
  | zero => simp [leBytes, ofLeBytes, byteRange, Nat.mod_one]
  | succ width ih =>
      rw [leBytes, ofLeBytes, ih, UInt8.toNat_ofNat', byteRange, Nat.mod_mul]

theorem leBytes_ofLeBytes (bytes : List UInt8) :
    leBytes bytes.length (ofLeBytes bytes) = bytes := by
  induction bytes with
  | nil => rfl
  | cons b rest ih =>
      have hb : b.toNat < 256 := b.toNat_lt
      have hdiv : (b.toNat + 256 * ofLeBytes rest) / 256 = ofLeBytes rest := by omega
      have hmod : UInt8.ofNat (b.toNat + 256 * ofLeBytes rest) = b := by
        apply UInt8.toNat_inj.mp
        rw [UInt8.toNat_ofNat']
        omega
      simp [leBytes, ofLeBytes, hdiv, hmod, ih]

theorem ofLeBytes_lt (bytes : List UInt8) : ofLeBytes bytes < byteRange bytes.length := by
  induction bytes with
  | nil => simp [ofLeBytes, byteRange]
  | cons b rest ih =>
      have hb : b.toNat < 256 := b.toNat_lt
      simp only [ofLeBytes, List.length_cons, byteRange]
      omega

@[simp] theorem splice_length {memory bytes : List UInt8} {start : Nat}
    (h : start + bytes.length ≤ memory.length) :
    (splice memory start bytes).length = memory.length := by
  simp [splice]
  omega

theorem stretch_length {memory : List UInt8} {start width : Nat}
    (h : start + width ≤ memory.length) : (stretch memory start width).length = width := by
  simp [stretch]
  omega

end PlatformLayer
