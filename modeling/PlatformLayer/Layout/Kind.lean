import PlatformLayer.Vector128

/-!
# Kinds of stored values

What one slot of a layout can hold: a machine word, a signed word or a vector register. Each kind
has a width and an alignment in bytes, and its values are stored as exactly that many bytes.
-/

namespace PlatformLayer

inductive Kind where
  | word32
  | word64
  | signed64
  | vector128
  deriving DecidableEq, Inhabited

namespace Kind

/-- Width in bytes. -/
def size : Kind → Nat
  | word32 => 4
  | word64 => 8
  | signed64 => 8
  | vector128 => 16

/-- Every kind is aligned to its own width. -/
def align : Kind → Nat := size

def Value : Kind → Type
  | word32 => UInt32
  | word64 => UInt64
  | signed64 => Int64
  | vector128 => Vector128

instance instDecidableEqValue : (k : Kind) → DecidableEq k.Value
  | word32 => inferInstanceAs (DecidableEq UInt32)
  | word64 => inferInstanceAs (DecidableEq UInt64)
  | signed64 => inferInstanceAs (DecidableEq Int64)
  | vector128 => inferInstanceAs (DecidableEq Vector128)

/-- The stored bits, read as an unsigned number. -/
def toBits : {k : Kind} → k.Value → Nat
  | word32, v => UInt32.toNat v
  | word64, v => UInt64.toNat v
  | signed64, v => UInt64.toNat (Int64.toUInt64 v)
  | vector128, v => BitVec.toNat (Vector128.toBits v)

/-- The value whose bits are the low bits of `n`. -/
def ofBits : (k : Kind) → Nat → k.Value
  | word32, n => UInt32.ofNat n
  | word64, n => UInt64.ofNat n
  | signed64, n => UInt64.toInt64 (UInt64.ofNat n)
  | vector128, n => Vector128.ofBits (BitVec.ofNat 128 n)

/-- The bytes in memory of a value. -/
def encode : {k : Kind} → k.Value → List UInt8
  | word32, v => leBytes 4 (UInt32.toNat v)
  | word64, v => leBytes 8 (UInt64.toNat v)
  | signed64, v => leBytes 8 (UInt64.toNat (Int64.toUInt64 v))
  | vector128, v => Vector128.bytes v

/-- The value that the bytes at its place hold. -/
def decode : (k : Kind) → List UInt8 → k.Value
  | word32, bytes => UInt32.ofNat (ofLeBytes bytes)
  | word64, bytes => UInt64.ofNat (ofLeBytes bytes)
  | signed64, bytes => UInt64.toInt64 (UInt64.ofNat (ofLeBytes bytes))
  | vector128, bytes => Vector128.ofBytes bytes

def text : {k : Kind} → k.Value → String
  | word32, v => toString (UInt32.toNat v)
  | word64, v => toString (UInt64.toNat v)
  | signed64, v => toString (Int64.toInt v)
  | vector128, v => Vector128.text v

def spread : {k : Kind} → k.Value → List String
  | vector128, v => Vector128.spread v
  | word32, v => [toString (UInt32.toNat v)]
  | word64, v => [toString (UInt64.toNat v)]
  | signed64, v => [toString (Int64.toInt v)]

theorem size_pos (k : Kind) : 0 < k.size := by
  cases k <;> decide

@[simp] theorem encode_length {k : Kind} (v : k.Value) : (encode v).length = k.size := by
  cases k
  · exact leBytes_length 4 _
  · exact leBytes_length 8 _
  · exact leBytes_length 8 _
  · exact Vector128.bytes_length v

theorem toBits_lt {k : Kind} (v : k.Value) : toBits v < byteRange k.size := by
  cases k
  · exact UInt32.toNat_lt v
  · exact UInt64.toNat_lt v
  · exact UInt64.toNat_lt (Int64.toUInt64 v)
  · exact (Vector128.toBits v).isLt

theorem ofBits_toBits {k : Kind} (v : k.Value) : ofBits k (toBits v) = v := by
  cases k
  · exact UInt32.ofNat_toNat
  · exact UInt64.ofNat_toNat
  · exact (congrArg UInt64.toInt64 UInt64.ofNat_toNat).trans (Int64.toInt64_toUInt64 v)
  · have h : BitVec.ofNat 128 (Vector128.toBits v).toNat = Vector128.toBits v := by simp
    exact (congrArg Vector128.ofBits h).trans (Vector128.ofBits_toBits v)

theorem toBits_ofBits (k : Kind) (n : Nat) : toBits (ofBits k n) = n % byteRange k.size := by
  cases k
  · exact UInt32.toNat_ofNat'
  · exact UInt64.toNat_ofNat'
  · exact UInt64.toNat_ofNat'
  · exact (congrArg BitVec.toNat (Vector128.toBits_ofBits _)).trans (BitVec.toNat_ofNat _ _)

end Kind

end PlatformLayer
