import PlatformLayer.Architecture.Catalog
import PlatformLayer.Notice

/-!
# Working on snapshots

A session holds four snapshots of one machine and applies operations to them one after another.
Every operation is answered, together with the general registers it leaves; an operation that halts
is the last one answered.
-/

namespace PlatformLayer

inductive Register where
  | ip
  | sp
  | fp
  | lr
  deriving DecidableEq

def Register.ofName? (name : String) : Option Register :=
  [("ip", ip), ("sp", sp), ("fp", fp), ("lr", lr)].lookup name

namespace Session

abbrev Index := Fin 4

/-- What can be done to one snapshot. -/
inductive Operation (a : Architecture) where
  | reset
  | resumeAt (ip sp : Nat)
  | get (r : Register)
  | set (r : Register) (n : Nat)
  | advance (n : Nat)
  | write (s : a.layout.Slot) (n : Nat)
  | read (s : a.layout.Slot)
  | poke (start : Nat) (bytes : List UInt8)
  | dump
  | copy (source : Index)
  | equal (other : Index)
  | print
  | printSpread

inductive Reply where
  | done
  | absent
  | outOfBounds
  | word (n : Nat)
  | memory (bytes : List UInt8)
  | flag (b : Bool)
  | text (t : String)
  deriving DecidableEq

abbrev Bank (a : Architecture) := Index → a.Snapshot

variable {a : Architecture}

def Bank.initial (a : Architecture) : Bank a := fun _ => Context.zero

def Bank.put (bank : Bank a) (i : Index) (c : a.Snapshot) : Bank a :=
  fun j => if j = i then c else bank j

/-- Reads a register by its role. -/
def getRegister (c : a.Snapshot) : Register → Except Halt Reply
  | .ip => .ok (.word (Architecture.ip c))
  | .sp => (Architecture.sp c).map .word
  | .fp => (Architecture.fp c).map .word
  | .lr => (Architecture.lr c).map fun
    | some n => .word n
    | none => .absent

/-- Sets a register by its role. The frame chain and return addresses are never redirected. -/
def setRegister (c : a.Snapshot) (n : Nat) : Register → Except Halt (Reply × a.Snapshot)
  | .ip => .ok (.done, Architecture.setIp c n)
  | .sp => (Architecture.setSp c n).map fun d => (.done, d)
  | .fp => .ok (.absent, c)
  | .lr => .ok (.absent, c)

/-- One operation on snapshot `i`: the reply and the snapshot it leaves there. -/
def apply (bank : Bank a) (i : Index) : Operation a → Except Halt (Reply × a.Snapshot)
  | .reset => .ok (.done, Context.zero)
  | .resumeAt ip sp => .ok (.done, a.resumeAt ip sp)
  | .get r => (getRegister (bank i) r).map fun reply => (reply, bank i)
  | .set r n => setRegister (bank i) n r
  | .advance n => .ok (.done, Architecture.advance (bank i) n)
  | .write s n => .ok (.done, (bank i).write s n)
  | .read s => .ok (.word ((bank i).read s), bank i)
  | .poke start bytes =>
    match (bank i).poke? start bytes with
    | some c => .ok (.done, c)
    | none => .ok (.outOfBounds, bank i)
  | .dump => .ok (.memory (bank i).memory, bank i)
  | .copy source => .ok (.done, bank source)
  | .equal other => .ok (.flag (decide (bank i = bank other)), bank i)
  | .print => .ok (.text (bank i).text, bank i)
  | .printSpread => .ok (.text (bank i).spreadText, bank i)

inductive Answer (a : Architecture) where
  | replied (reply : Reply) (snapshot : a.Snapshot)
  | halted (log : List Notice) (h : Halt)

/-- Answers operations in turn, up to and including the first that halts. -/
def run (bank : Bank a) : List (Index × Operation a) → List (Answer a)
  | [] => []
  | (i, op) :: rest =>
    match apply bank i op with
    | .ok (reply, c) => .replied reply c :: run (bank.put i c) rest
    | .error h => [.halted [.halting h] h]

/-- The general registers that a machine shows after an operation, by name. -/
def shown (c : a.Snapshot) : List (String × Nat) :=
  ("ip", Architecture.ip c) ::
    match a.stack with
    | none => []
    | some roles =>
      ("sp", c.read roles.sp) :: ("fp", c.read roles.fp) ::
        (roles.lr.toList.map fun s => ("lr", c.read s))

end Session

end PlatformLayer
