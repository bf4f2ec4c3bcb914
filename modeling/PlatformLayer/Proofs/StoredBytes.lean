import PlatformLayer.Layout.Kind

/-!
# The bytes of stored values

Memory can be overwritten anywhere, so reading a stretch after that is settled byte by byte. A value
of any kind is stored as the little-endian bytes of its bits; for a vector these are the bytes of its
two halves, one after the other. Storing and loading are inverse to each other on exactly as many
bytes as the kind is wide.
-/

namespace PlatformLayer

/-! ### Stretches of memory -/

section Stretches

variable {memory memory' bytes : List UInt8} {start other width i : Nat}

theorem getElem?_stretch (hi : i < width) :
    (stretch memory start width)[i]? = memory[start + i]? := by
  rw [stretch, List.getElem?_take_of_lt hi, List.getElem?_drop]

theorem stretch_eq_iff : stretch memory start width = stretch memory' start width ↔
    ∀ i < width, memory[start + i]? = memory'[start + i]? := by
  constructor
  · intro h i hi
    rw [← getElem?_stretch hi, h, getElem?_stretch hi]
  · intro h
    apply List.ext_getElem?
    intro i
    by_cases hi : i < width
    · rw [getElem?_stretch hi, getElem?_stretch hi, h i hi]
    · have hwidth : width ≤ i := Nat.le_of_not_lt hi
      rw [stretch, stretch, List.getElem?_take_eq_none hwidth, List.getElem?_take_eq_none hwidth]

theorem getElem?_splice_outside (hfits : start + bytes.length ≤ memory.length)
    (hi : i < start ∨ start + bytes.length ≤ i) : (splice memory start bytes)[i]? = memory[i]? := by
  have htake : (memory.take start).length = start := by
    rw [List.length_take]
    omega
  rw [splice, List.append_assoc]
  rcases hi with hbefore | hafter
  · rw [List.getElem?_append_left (by omega), List.getElem?_take_of_lt hbefore]
  · have hrest : start + bytes.length + (i - start - bytes.length) = i := by omega
    rw [List.getElem?_append_right (by omega), htake, List.getElem?_append_right (by omega),
      List.getElem?_drop, hrest]

theorem stretch_splice_self (hfits : start + bytes.length ≤ memory.length) :
    stretch (splice memory start bytes) start bytes.length = bytes := by
  have htake : (memory.take start).length = start := by
    rw [List.length_take]
    omega
  rw [stretch, splice, List.append_assoc, List.drop_left' htake, List.take_left' rfl]

theorem stretch_splice_of_disjoint (hfits : start + bytes.length ≤ memory.length)
    (hdisjoint : other + width ≤ start ∨ start + bytes.length ≤ other) :
    stretch (splice memory start bytes) other width = stretch memory other width := by
  rw [stretch_eq_iff]
  intro i hi
  exact getElem?_splice_outside hfits (by omega)

/-- Writing back what is there changes nothing. -/
theorem splice_stretch (hfits : start + width ≤ memory.length) :
    splice memory start (stretch memory start width) = memory := by
  rw [splice, stretch_length hfits, stretch, ← List.drop_drop, List.append_assoc,
    List.take_append_drop, List.take_append_drop]

theorem stretch_append {m n : Nat} (hlength : memory.length = m + n) :
    stretch memory 0 m ++ stretch memory m n = memory := by
  have hrest : stretch memory m n = memory.drop m := by
    rw [stretch, List.take_of_length_le (by rw [List.length_drop]; omega)]
  rw [hrest]
  exact List.take_append_drop m memory

end Stretches

/-! ### Little-endian numbers -/

theorem leBytes_mod (width n : Nat) : leBytes width (n % byteRange width) = leBytes width n := by
  have hbytes := leBytes_ofLeBytes (leBytes width n)
  rwa [leBytes_length, ofLeBytes_leBytes] at hbytes

theorem leBytes_add (m n x : Nat) :
    leBytes (m + n) x = leBytes m x ++ leBytes n (x / byteRange m) := by
  induction m generalizing x with
  | zero => simp [leBytes, byteRange]
  | succ m ih =>
      rw [Nat.succ_add, leBytes, ih, leBytes, byteRange, Nat.div_div_eq_div_mul]
      rfl

theorem ofLeBytes_append (bytes bytes' : List UInt8) :
    ofLeBytes (bytes ++ bytes') = ofLeBytes bytes + byteRange bytes.length * ofLeBytes bytes' := by
  induction bytes with
  | nil => simp [ofLeBytes, byteRange]
  | cons b rest ih =>
      simp only [List.cons_append, ofLeBytes, ih, List.length_cons, byteRange, Nat.mul_add,
        Nat.mul_assoc, Nat.add_assoc]

/-! ### Values -/

namespace Vector128

theorem toBits_toNat (v : Vector128) :
    v.toBits.toNat = v.low.toNat + byteRange 8 * v.high.toUInt64.toNat := by
  have hlow : v.low.toBitVec.toNat < 18446744073709551616 := v.low.toBitVec.isLt
  have hhigh : v.high.toBitVec.toNat < 18446744073709551616 := v.high.toBitVec.isLt
  have hwide : (v.low.toBitVec.setWidth 128).toNat = v.low.toBitVec.toNat :=
    BitVec.toNat_setWidth_of_le (by decide)
  have hshift : (v.high.toBitVec.setWidth 128 <<< 64).toNat = v.high.toBitVec.toNat <<< 64 := by
    rw [BitVec.toNat_shiftLeft, BitVec.toNat_setWidth, Nat.shiftLeft_eq]
    omega
  -- the halves share no bit, so their disjunction is a sum
  rw [toBits, BitVec.toNat_or, hshift, hwide, ← Nat.shiftLeft_add_eq_or_of_lt hlow,
    Nat.shiftLeft_eq, Nat.add_comm, Nat.mul_comm]
  rfl

theorem bytes_eq_leBytes (v : Vector128) : v.bytes = leBytes 16 v.toBits.toNat := by
  have hlow : v.low.toNat < byteRange 8 := v.low.toNat_lt
  have hmod : leBytes 8 v.toBits.toNat = leBytes 8 v.low.toNat := by
    rw [← leBytes_mod, toBits_toNat, Nat.add_mul_mod_self_left, Nat.mod_eq_of_lt hlow]
  have hdiv : v.toBits.toNat / byteRange 8 = v.high.toUInt64.toNat := by
    rw [toBits_toNat, Nat.add_mul_div_left _ _ (by decide), Nat.div_eq_of_lt hlow, Nat.zero_add]
  rw [leBytes_add 8 8, hmod, hdiv, bytes]

theorem toBits_ofBytes {bs : List UInt8} (hlength : bs.length = 16) :
    (ofBytes bs).toBits.toNat = ofLeBytes bs := by
  have hlow := ofLeBytes_lt (stretch bs 0 8)
  have hhigh := ofLeBytes_lt (stretch bs 8 8)
  rw [stretch_length (by omega)] at hlow hhigh
  calc (ofBytes bs).toBits.toNat
      = (ofBytes bs).low.toNat + byteRange 8 * (ofBytes bs).high.toUInt64.toNat := toBits_toNat _
    _ = ofLeBytes (stretch bs 0 8) + byteRange 8 * ofLeBytes (stretch bs 8 8) := by
      rw [ofBytes, UInt64.toNat_ofNat_of_lt' hlow, UInt64.toUInt64_toInt64,
        UInt64.toNat_ofNat_of_lt' hhigh]
    _ = ofLeBytes (stretch bs 0 8 ++ stretch bs 8 8) := by
      rw [ofLeBytes_append, stretch_length (by omega)]
    _ = ofLeBytes bs := by rw [stretch_append hlength]

end Vector128

namespace Kind

variable {k : Kind}

theorem encode_eq_leBytes (v : k.Value) : encode v = leBytes k.size (toBits v) := by
  cases k with
  | word32 => rfl
  | word64 => rfl
  | signed64 => rfl
  | vector128 => exact Vector128.bytes_eq_leBytes v

theorem toBits_decode {bytes : List UInt8} (hlength : bytes.length = k.size) :
    toBits (decode k bytes) = ofLeBytes bytes := by
  have hlt := ofLeBytes_lt bytes
  rw [hlength] at hlt
  cases k with
  | word32 => exact UInt32.toNat_ofNat_of_lt' hlt
  | word64 => exact UInt64.toNat_ofNat_of_lt' hlt
  | signed64 => exact UInt64.toNat_ofNat_of_lt' hlt
  | vector128 => exact Vector128.toBits_ofBytes hlength

theorem toBits_injective {v w : k.Value} (h : toBits v = toBits w) : v = w := by
  rw [← ofBits_toBits v, h, ofBits_toBits]

theorem decode_encode (v : k.Value) : decode k (encode v) = v := by
  apply toBits_injective
  rw [toBits_decode (encode_length v), encode_eq_leBytes, ofLeBytes_leBytes,
    Nat.mod_eq_of_lt (toBits_lt v)]

theorem encode_decode {bytes : List UInt8} (hlength : bytes.length = k.size) :
    encode (decode k bytes) = bytes := by
  rw [encode_eq_leBytes, toBits_decode hlength, ← hlength, leBytes_ofLeBytes]

end Kind

end PlatformLayer
