import PlatformLayer.Program.Basic

/-!
# Scripted clients

Client code that makes a fixed list of moves. Probes, handlers and callbacks note the reply to every
move; a thread gathers the replies instead.
-/

namespace PlatformLayer.Script

variable {ρ : Role}

/-- One move: a piece of client code that is open at the end, where its reply is known. -/
abbrev Move (ρ : Role) := (Reply → Program ρ) → Program ρ

/-- Makes the moves in turn, notes each reply, and returns `v`. -/
def noting : List (Move ρ) → ρ.Value → Program ρ
  | [], v => .ret v
  | move :: rest, v => move fun r => .note r (noting rest v)

/-- Makes the moves in turn and returns their replies after those of `before`. -/
def gathering (before : List Reply) : List (Move .thread) → Program .thread
  | [] => .ret before
  | move :: rest => move fun r => gathering (before ++ [r]) rest

def call (op : Operation) : Move ρ := Program.call op

/-- Start-up with a scripted probe: for each capability the moves made and the answer given. -/
def init (probe : Capability → List (Move .probe) × Answer) : Move ρ :=
  Program.init (fun c => noting (probe c).1 (probe c).2) fun c => (probe c).2

def threads (n : Nat) (moves : List (Move .thread)) : Move ρ :=
  Program.spawn n (gathering [] moves)

/-- Where a handler takes a word from. -/
inductive Source where
  | word (v : UInt64)
  | faultCode
  | faultAddress
  | place (p : Place)

/-- Copies a word to a place of the running handler's frame. -/
def assign (fault : Fault) (target : Place) (source : Source) : Move .handler := fun next =>
  match source with
  | .word v => .store target v (next .done)
  | .faultCode => .store target fault.code (next .done)
  | .faultAddress => .store target fault.address (next .done)
  | .place p => .load p fun v => .store target v (next .done)

/-- Hands a fault on with the running handler's own registers. -/
def forward (fault : Fault) : Move .handler := Program.forward fault

/-- What a scripted handler does with the faults of one kind: those with the given code, and with an
address below the given one. -/
structure Rule where
  code : Option UInt64
  below : Option UInt64
  moves : Fault → List (Move .handler)
  status : Status

def Rule.applies (rule : Rule) (fault : Fault) : Bool :=
  rule.code.all (· == fault.code) && rule.below.all (fault.address < ·)

/-- The first rule that applies decides; a fault that no rule covers is left to others. -/
def handler (rules : List Rule) (fault : Fault) : Body .handler :=
  match rules.find? (·.applies fault) with
  | some rule => ⟨noting (rule.moves fault) rule.status, rule.status⟩
  | none => ⟨.ret Status.continueSearch, Status.continueSearch⟩

/-- Numbers without a script stand for code that does nothing. -/
def clients (handlers : List (List Rule)) (callbacks : List (List (Move .callback))) : Clients where
  handler h := handler (handlers.getD h [])
  callback c := noting (callbacks.getD c []) ()

end PlatformLayer.Script
