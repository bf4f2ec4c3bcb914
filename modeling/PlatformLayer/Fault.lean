import PlatformLayer.Text.Record

/-!
# Hardware faults

A fault is a code and the address it concerns. A handler answers with a 32-bit status; only
`continueExecution` resumes the interrupted code, with two argument words.
-/

namespace PlatformLayer

structure Fault where
  code : UInt64
  address : UInt64
  deriving DecidableEq, Inhabited

namespace Fault

/-- The codes with which the host reports faults. -/
def codes : List (String × UInt64) :=
  [ ("DATATYPE_MISALIGNMENT", 0x80000002)
  , ("ACCESS_VIOLATION", 0xC0000005)
  , ("ILLEGAL_INSTRUCTION", 0xC000001D)
  , ("INTEGER_DIVIDE_BY_ZERO", 0xC0000094)
  , ("INTEGER_OVERFLOW", 0xC0000095)
  , ("PRIVILEGED_INSTRUCTION", 0xC0000096) ]

end Fault

/-- What a handler returns. -/
abbrev Status := Int32

namespace Status

def continueExecution : Status := -1

def continueSearch : Status := 0

end Status

/-- What becomes of a fault. -/
inductive Disposition where
  | resume (arg0 arg1 : UInt64)
  | unhandled
  deriving DecidableEq, Inhabited

namespace Disposition

/-- A fault is resumed on one status and unhandled on every other. -/
def ofStatus (status : Status) (arg0 arg1 : UInt64) : Disposition :=
  if status = Status.continueExecution then resume arg0 arg1 else unhandled

def text : Disposition → String
  | resume arg0 arg1 =>
    Text.record "Resume" [("arg0", toString arg0.toNat), ("arg1", toString arg1.toNat)]
  | unhandled => "Unhandled"

end Disposition

end PlatformLayer
