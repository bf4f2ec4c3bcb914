import PlatformLayer.Call

/-!
# Client code

What a client of the layer may do, as a tree of calls in which each reply chooses how to go on. The
role fixes what the code returns and what it can reach: only a handler has a frame to load from,
store to and hand on.
-/

namespace PlatformLayer

inductive Role where
  | probe
  | handler
  | callback
  | thread
  deriving DecidableEq

namespace Role

/-- What code of this role returns. A thread gathers replies. -/
def Value : Role → Type
  | probe => Answer
  | handler => Status
  | callback => Unit
  | thread => List Reply

/-- What code of this role works on besides the layer. -/
def Local : Role → Type
  | handler => Frame
  | _ => Unit

end Role

inductive Program : Role → Type where
  | ret {ρ : Role} (v : ρ.Value) : Program ρ
  | call {ρ : Role} (op : Operation) (next : Reply → Program ρ) : Program ρ
  /-- Start-up with a probe. Where client code may not nest any deeper, the probe is passed over and
  `skipped` stands for its answers. -/
  | init {ρ : Role} (ask : Capability → Program .probe) (skipped : Capability → Answer)
      (next : Reply → Program ρ) : Program ρ
  /-- Starts `n` threads, one after another, each running `body` to its end. -/
  | spawn {ρ : Role} (n : Nat) (body : Program .thread) (next : Reply → Program ρ) : Program ρ
  /-- Makes a result visible in the history. -/
  | note {ρ : Role} (r : Reply) (next : Program ρ) : Program ρ
  | load (place : Place) (next : UInt64 → Program .handler) : Program .handler
  | store (place : Place) (v : UInt64) (next : Program .handler) : Program .handler
  /-- Dispatches a fault on the handler's own registers. -/
  | forward (fault : Fault) (next : Reply → Program .handler) : Program .handler

/-- Code that the layer calls, and the value that stands for it where it is passed over. -/
structure Body (ρ : Role) where
  program : Program ρ
  skipped : ρ.Value

/-- The code behind every handler and callback number. -/
structure Clients where
  handler : HandlerId → Fault → Body .handler
  callback : CallbackId → Program .callback

end PlatformLayer
