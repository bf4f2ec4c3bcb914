import PlatformLayer.Interface
import PlatformLayer.Program.Basic

/-!
# Running client code

Client code runs against an interface. Probes, handlers and callbacks that it causes to be called
run one level further in; at the innermost level they are passed over, though their entry is still
recorded. Threads run one after another, at the level of the code that starts them.
-/

namespace PlatformLayer

/-- What a run is set in: the interface, the code of the clients, and what the host offers. -/
structure Setting (σ : Type) where
  interface : Interface σ
  clients : Clients
  host : Capability → Bool

/-- A way to run client code on a thread. -/
abbrev Runner (σ : Type) :=
  (ρ : Role) → (thread : Nat) → Program ρ → ρ.Local → Action σ (ρ.Value × ρ.Local)

namespace Setting

variable {σ : Type} (S : Setting σ) (inner : Option (Runner σ)) (thread : Nat)

/-- Asks a client's probe about a capability. -/
def askClient (ask : Capability → Program .probe) (skipped : Capability → Answer)
    (c : Capability) : Action σ Answer := do
  Action.emit (.probeAsked c)
  match inner with
  | some run => do
    let (answer, _) ← run .probe thread (ask c) ()
    pure answer
  | none => pure (skipped c)

/-- Enters handler `h` for a fault. -/
def enterHandler (h : HandlerId) (fault : Fault) (frame : Frame) :
    Action σ (Status × Frame) := do
  Action.emit (.handlerEntered h fault frame)
  let body := S.clients.handler h fault
  let (status, left) ← match inner with
    | some run => run .handler thread body.program frame
    | none => pure (body.skipped, frame)
  Action.mark (.handlerLeft h fault status left)
  pure (status, left)

/-- Runs callback `c` on the present thread. -/
def runCallback (c : CallbackId) : Action σ Unit := do
  Action.emit (.callbackEntered c thread)
  match inner with
  | some run => do
    let _ ← run .callback thread (S.clients.callback c) ()
    Action.mark (.callbackLeft c)
  | none => Action.mark (.callbackLeft c)

def dispatch (fault : Fault) (registers : Registers) : Action σ (Disposition × Registers) :=
  S.interface.dispatch (S.enterHandler inner thread) fault registers

/-- A call that only the owner of the objects can make. -/
def asOwner (use : OwnerInterface σ → Action σ Reply) : Action σ Reply :=
  match S.interface.owner with
  | some owner => use owner
  | none => pure .absent

/-- A fault on a numbered context is dispatched on a copy, which is put back afterwards. -/
def dispatchOn (fault : Fault) (context : Nat) : Action σ Reply := do
  let w ← Action.get
  let (disposition, registers) ← S.dispatch inner thread fault (w.contexts.getD context default)
  Action.modify fun w => { w with contexts := w.contexts.set context registers }
  pure (.dispatched disposition registers)

/-- Overwrites one numbered context. -/
def putContext (context : Nat) (f : Registers → Registers) : Action σ Reply := do
  Action.modify fun w => { w with contexts := w.contexts.modify context f }
  pure .done

def perform : Operation → Action σ Reply
  | .initFromHost => do
    let s ← S.interface.init fun c => pure (.ok (S.host c))
    pure (.capabilities s)
  | .has c => do
    let b ← S.interface.has c
    pure (.flag b)
  | .hasBits bits => S.asOwner fun owner => do
    let b ← owner.hasBits bits
    pure (.flag b)
  | .isReady => S.asOwner fun owner => do
    let b ← owner.isReady
    pure (.flag b)
  | .snapshot => do
    let s ← S.interface.snapshot
    pure (.snapshot s)
  | .register h => do
    let r ← S.interface.register h
    pure (.registration r)
  | .getHandler => do
    let h ← S.interface.getHandler
    pure (.handler h)
  | .isRegistered => S.asOwner fun owner => do
    let b ← owner.isRegistered
    pure (.flag b)
  | .dispatch fault context => S.dispatchOn inner thread fault context
  | .setExit c => do
    let old ← S.interface.setExit c
    pure (.callback old)
  | .clearExit => S.asOwner fun owner => do
    let old ← owner.clearExit
    pure (.callback old)
  | .getExit => S.asOwner fun owner => do
    let c ← owner.getExit
    pure (.callback c)
  | .notify => do
    let b ← S.interface.notify (S.runCallback inner thread)
    pure (.flag b)
  | .newContext context ip sp => putContext context fun _ => Registers.resumeAt ip sp
  | .writeContext context s v => putContext context fun c => c.write s v.toNat
  | .replace component => S.asOwner fun owner => do
    owner.replace component
    pure .done

/-- Makes a call, with its start and its reply on record. -/
def making (call : Call) (act : Action σ Reply) : Action σ Reply := do
  Action.mark (.called thread call)
  let r ← act
  Action.mark (.returned call r)
  pure r

/-- Dispatches a fault on a running handler's own registers, which the nested handler may change. -/
def forwardOwn (fault : Fault) (frame : Frame) : Action σ (Reply × Frame) := do
  Action.mark (.called thread (.forward fault))
  let (disposition, registers) ← S.dispatch inner thread fault frame.registers
  let r := Reply.dispatched disposition registers
  Action.mark (.returned (.forward fault) r)
  pure (r, { frame with registers := registers })

/-- Starts `n` threads in turn. Threads are numbered over the whole run, from one. -/
def startThreads {α : Type} (body : Nat → Action σ α) : Nat → Action σ (List α)
  | 0 => pure []
  | n + 1 => do
    let w ← Action.get
    Action.modify fun w => { w with threads := w.threads + 1 }
    let first ← body (w.threads + 1)
    let rest ← startThreads body n
    pure (first :: rest)

/-- Runs code on a thread, with `inner` for the client code that it causes to be called. -/
def exec {ρ : Role} (thread : Nat) :
    Program ρ → ρ.Local → Action σ (ρ.Value × ρ.Local)
  | .ret v, own => pure (v, own)
  | .call op next, own => do
    let r ← making thread (.operation op) (S.perform inner thread op)
    exec thread (next r) own
  | .init ask skipped next, own => do
    let r ← making thread .init do
      let s ← S.interface.init (askClient inner thread ask skipped)
      pure (.capabilities s)
    exec thread (next r) own
  | .spawn n body next, own => do
    let results ← startThreads (fun t => do
      let (replies, _) ← exec t body ()
      pure replies) n
    exec thread (next (.threads results)) own
  | .note r next, own => do
    Action.emit (.noted r)
    exec thread next own
  | .load place next, frame => exec thread (next (Frame.load frame place)) frame
  | .store place v next, frame => do
    Action.mark (.stored place v)
    exec thread next (Frame.store frame place v)
  | .forward fault next, frame => do
    let (r, left) ← S.forwardOwn inner thread fault frame
    exec thread (next r) left

/-- Runs code that may cause client code to be called `depth` levels in. -/
def runAt (S : Setting σ) : Nat → Runner σ
  | 0 => fun _ thread program own => S.exec none thread program own
  | depth + 1 => fun _ thread program own => S.exec (some (S.runAt depth)) thread program own

end Setting

end PlatformLayer
