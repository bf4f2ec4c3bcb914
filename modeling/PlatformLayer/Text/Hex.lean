/-!
# Hexadecimal text

Words, addresses and bit masks are written as `0x` and lowercase digits without leading zeros; raw
memory is written as two digits per byte. Both forms are also read.
-/

namespace PlatformLayer.Hex

/-- The text of `n` with its base mark, as log lines show it. -/
def ofNat (n : Nat) : String :=
  String.ofList ('0' :: 'x' :: Nat.toDigits 16 n)

def digit? (c : Char) : Option Nat :=
  if '0' ≤ c ∧ c ≤ '9' then some (c.toNat - '0'.toNat)
  else if 'a' ≤ c ∧ c ≤ 'f' then some (c.toNat - 'a'.toNat + 10)
  else none

/-- The number that a run of digits continues, read from the left. -/
def readDigits? (acc : Nat) : List Char → Option Nat
  | [] => some acc
  | c :: rest => (digit? c).bind fun d => readDigits? (16 * acc + d) rest

/-- Reads a marked number; at least one digit is required. -/
def toNat? (text : String) : Option Nat :=
  match text.toList with
  | '0' :: 'x' :: c :: rest => readDigits? 0 (c :: rest)
  | _ => none

def ofByte (b : UInt8) : List Char :=
  [Nat.digitChar (b.toNat / 16), Nat.digitChar (b.toNat % 16)]

/-- Two digits per byte, in memory order. -/
def ofBytes (bytes : List UInt8) : String :=
  String.ofList (bytes.flatMap ofByte)

def readBytes? : List Char → Option (List UInt8)
  | [] => some []
  | [_] => none
  | hi :: lo :: rest =>
    match digit? hi, digit? lo, readBytes? rest with
    | some h, some l, some bytes => some (UInt8.ofNat (16 * h + l) :: bytes)
    | _, _, _ => none

def toBytes? (text : String) : Option (List UInt8) :=
  readBytes? text.toList

theorem digit?_digitChar : ∀ d < 16, digit? (Nat.digitChar d) = some d := by decide

end PlatformLayer.Hex
