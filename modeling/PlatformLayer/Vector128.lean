import PlatformLayer.Memory.Bytes
import PlatformLayer.Text.Record

/-!
# Vector register save slots

A 128-bit vector register is saved as raw bits in two halves, the high one signed. Packing the
halves into a 128-bit word and taking it apart again loses nothing, so a payload is never
renormalised.
-/

namespace PlatformLayer

structure Vector128 where
  low : UInt64
  high : Int64
  deriving DecidableEq, Inhabited

namespace Vector128

def ofBits (bits : BitVec 128) : Vector128 :=
  { low := UInt64.ofBitVec (bits.setWidth 64)
    high := Int64.ofBitVec ((bits >>> 64).setWidth 64) }

def toBits (v : Vector128) : BitVec 128 :=
  (v.high.toBitVec.setWidth 128 <<< 64) ||| v.low.toBitVec.setWidth 128

/-- The sixteen bytes of the two halves, low half first. -/
def bytes (v : Vector128) : List UInt8 :=
  leBytes 8 v.low.toNat ++ leBytes 8 v.high.toUInt64.toNat

/-- Reads the halves back from sixteen bytes. -/
def ofBytes (bs : List UInt8) : Vector128 :=
  { low := UInt64.ofNat (ofLeBytes (stretch bs 0 8))
    high := (UInt64.ofNat (ofLeBytes (stretch bs 8 8))).toInt64 }

/-- The members of the slot, each with its decimal text. -/
def members (v : Vector128) : List (String × String) :=
  [("low", toString v.low.toNat), ("high", toString v.high.toInt)]

def text (v : Vector128) : String :=
  Text.record "Fp128" v.members

def spread (v : Vector128) : List String :=
  Text.spreadRecord "Fp128" (v.members.map fun m => (m.1, [m.2]))

theorem toBits_ofBits (bits : BitVec 128) : (ofBits bits).toBits = bits := by
  apply BitVec.eq_of_getLsbD_eq
  intro i hi
  by_cases hlow : i < 64
  · simp [ofBits, toBits, hlow, hi]
  · have hsub : i - 64 < 64 := by omega
    have hsum : 64 + (i - 64) = i := by omega
    simp [ofBits, toBits, hlow, hi, hsub, hsum]

theorem ofBits_toBits (v : Vector128) : ofBits v.toBits = v := by
  obtain ⟨low, high⟩ := v
  have hlow : (toBits ⟨low, high⟩).setWidth 64 = low.toBitVec := by
    apply BitVec.eq_of_getLsbD_eq
    intro i hi
    simp [toBits, hi]
  have hhigh : (toBits ⟨low, high⟩ >>> 64).setWidth 64 = high.toBitVec := by
    apply BitVec.eq_of_getLsbD_eq
    intro i hi
    have h128 : i < 128 := by omega
    have hshift : 64 + i < 128 := by omega
    simp [toBits, hi, h128, hshift]
  simp [ofBits, hlow, hhigh]

theorem bytes_length (v : Vector128) : v.bytes.length = 16 := by
  simp [bytes]

end Vector128

end PlatformLayer
