import PlatformLayer.Interface

/-!
# What each method does in a given state

Methods that run no client code have a closed form: the state alone fixes the result, the state they
leave and what they log. The three that do run client code are cut down to that code and what is
recorded around it.
-/

namespace PlatformLayer

/-- The ways to end without returning. -/
inductive Stop where
  | halted (h : Halt)
  | hung

def Stop.outcome {α : Type} : Stop → Outcome α
  | halted h => .halted h
  | hung => .hung

theorem Report.returned_or_stopped {σ α : Type} (report : Report σ α) :
    (∃ a w h, report = ⟨.returned a, w, h⟩) ∨
      ∃ (stop : Stop) (w : _) (h : _), report = ⟨stop.outcome, w, h⟩ := by
  match report with
  | ⟨.returned a, w, h⟩ => exact Or.inl ⟨a, w, h, rfl⟩
  | ⟨.halted halt, w, h⟩ => exact Or.inr ⟨.halted halt, w, h, rfl⟩
  | ⟨.hung, w, h⟩ => exact Or.inr ⟨.hung, w, h, rfl⟩

namespace Action

variable {σ α β : Type} {x : Action σ α} {w w' : World σ} {first : History σ}

theorem bind_of_returned {a : α} (hx : x w = ⟨.returned a, w', first⟩) (f : α → Action σ β) :
    (x >>= f) w = ⟨(f a w').outcome, (f a w').world, first ++ (f a w').history⟩ := by
  simp only [bind_eq, andThen, hx]

theorem bind_of_stopped {stop : Stop} (hx : x w = ⟨stop.outcome, w', first⟩)
    (f : α → Action σ β) : (x >>= f) w = ⟨stop.outcome, w', first⟩ := by
  cases stop <;> simp only [bind_eq, andThen, hx, Stop.outcome]

theorem mark_bind_apply (what : Happening) (f : Unit → Action σ β) (w : World σ) :
    (mark what >>= f) w
      = ⟨(f () w).outcome, (f () w).world, ⟨what, w.state⟩ :: (f () w).history⟩ := rfl

/-- A result handed on under another name. -/
theorem bind_pure_of_returned {a : α} (hx : x w = ⟨.returned a, w', first⟩) (f : α → β) :
    (x >>= fun a => pure (f a)) w = ⟨.returned (f a), w', first⟩ := by
  rw [bind_of_returned hx, pure_eq, ret]
  simp only [List.append_nil]

end Action

/-- The set after one more answer. -/
def CapabilitySet.tally (s : CapabilitySet) (c : Capability) : Answer → CapabilitySet
  | .ok present => if present then s.insert c else s
  | .error _ => s

/-- What is logged about an answer. -/
def Capability.complaint (c : Capability) : Answer → List Notice
  | .ok _ => []
  | .error failure => [.probeFailed c failure]

namespace Registry

variable {σ : Type} {cell : Cell σ Registry} {w : World σ} {s : CapabilitySet}

theorem published_eq_some_iff {r : Registry} : r.published = some s ↔ r.phase = .ready s := by
  unfold published
  cases r.phase <;> simp

theorem init_of_ready (hphase : (cell.get w.state).phase = .ready s)
    (ask : Capability → Action σ Answer) :
    init cell ask w
      = ⟨.returned s, w, [⟨.event (.logged (.capabilitiesKept s)), w.state⟩]⟩ := by
  simp only [init, Action.bind_eq, Action.andThen, Cell.read, hphase]
  rfl

theorem init_of_probing (hphase : (cell.get w.state).phase = .probing)
    (ask : Capability → Action σ Answer) : init cell ask w = ⟨Stop.hung.outcome, w, []⟩ := by
  simp only [init, Action.bind_eq, Action.andThen, Cell.read, hphase]
  rfl

/-- The world in which a first start-up asks its probe. -/
def begin (cell : Cell σ Registry) (w : World σ) : World σ :=
  { w with state := cell.set { cell.get w.state with phase := .probing } w.state }

/-- Makes the answers of a finished round of probing public. -/
def settle (cell : Cell σ Registry) (serial : Nat) (s : CapabilitySet) : Action σ CapabilitySet :=
  do
  let now ← cell.read
  cell.write (now.publish serial s)
  Action.log (.capabilitiesPublished s)
  pure s

theorem settle_apply (serial : Nat) (w : World σ) :
    settle cell serial s w
      = ⟨.returned s, { w with state := cell.set ((cell.get w.state).publish serial s) w.state },
        [⟨.event (.logged (.capabilitiesPublished s)),
          cell.set ((cell.get w.state).publish serial s) w.state⟩]⟩ := rfl

/-- A first start-up is a round of probing on a registry that says so, and then one write. -/
theorem init_of_idle (hphase : (cell.get w.state).phase = .idle)
    (ask : Capability → Action σ Answer) :
    init cell ask w
      = (askAll ask Capability.all .empty >>= settle cell (cell.get w.state).serial)
          (begin cell w) := by
  simp only [init, Action.bind_eq, Action.andThen, Cell.read, hphase]
  rfl

section Asking

variable {ask : Capability → Action σ Answer} {c : Capability} {w' : World σ} {h : History σ}

/-- An answer goes on record before it is complained about and counted. -/
theorem askAll_cons_of_returned {a : Answer} (hask : ask c w = ⟨.returned a, w', h⟩)
    (cs : List Capability) :
    askAll ask (c :: cs) s w
      = ⟨(askAll ask cs (s.tally c a) w').outcome, (askAll ask cs (s.tally c a) w').world,
        ⟨.asked c, w.state⟩ :: (h ++ (⟨.answered c a, w'.state⟩ ::
          ((c.complaint a).map (fun n => ⟨.event (.logged n), w'.state⟩) ++
            (askAll ask cs (s.tally c a) w').history)))⟩ := by
  cases a with
  | ok present =>
      simp only [askAll, askOne, Action.bind_eq, Action.andThen, Action.mark, hask]
      simp [Action.pure_eq, Action.ret, CapabilitySet.tally, Capability.complaint]
  | error failure =>
      simp only [askAll, askOne, Action.bind_eq, Action.andThen, Action.mark, hask]
      simp [Action.pure_eq, Action.ret, Action.log, Action.emit, Action.mark, CapabilitySet.tally,
        Capability.complaint]

theorem askAll_cons_of_stopped {stop : Stop} (hask : ask c w = ⟨stop.outcome, w', h⟩)
    (cs : List Capability) :
    askAll ask (c :: cs) s w = ⟨stop.outcome, w', ⟨.asked c, w.state⟩ :: h⟩ := by
  have hone : askOne ask c w = ⟨stop.outcome, w', ⟨.asked c, w.state⟩ :: h⟩ := by
    rw [askOne, Action.mark_bind_apply, Action.bind_of_stopped hask]
  rw [askAll, Action.bind_of_stopped hone]

end Asking

theorem snapshot_apply (w : World σ) :
    snapshot cell w = ⟨.returned (cell.get w.state).published, w, []⟩ := rfl

theorem isReady_apply (w : World σ) :
    isReady cell w = ⟨.returned (cell.get w.state).published.isSome, w, []⟩ := rfl

theorem has_of_published (hpublished : (cell.get w.state).published = some s) (c : Capability) :
    has cell c w = ⟨.returned (s.contains c), w, []⟩ := by
  simp only [has, Action.bind_eq, Action.andThen, Cell.read, hpublished]
  rfl

theorem has_of_unpublished (hpublished : (cell.get w.state).published = none) (c : Capability) :
    has cell c w = ⟨(Stop.halted (.queriedTooEarly c)).outcome, w,
      [⟨.event (.logged (.halting (.queriedTooEarly c))), w.state⟩]⟩ := by
  simp only [has, Action.bind_eq, Action.andThen, Cell.read, hpublished]
  rfl

theorem hasBits_of_known {bits : UInt32} {c : Capability}
    (hbits : Capability.ofBits? bits = some c) : hasBits cell bits = has cell c := by
  rw [hasBits, hbits]

theorem hasBits_of_unknown {bits : UInt32} (hbits : Capability.ofBits? bits = none)
    (w : World σ) :
    hasBits cell bits w = ⟨(Stop.halted (.unknownCapability bits)).outcome, w,
      [⟨.event (.logged (.halting (.unknownCapability bits))), w.state⟩]⟩ := by
  rw [hasBits, hbits]
  rfl

end Registry

namespace HandlerSlot

variable {σ : Type} {cell : Cell σ HandlerSlot} {w : World σ}

theorem register_of_empty (hempty : (cell.get w.state).handler = none) (h : HandlerId) :
    register cell h w
      = ⟨.returned (.ok ()), { w with state := cell.set ⟨some h⟩ w.state },
        [⟨.event (.logged .handlerRegistered), cell.set ⟨some h⟩ w.state⟩]⟩ := by
  simp only [register, Action.bind_eq, Action.andThen, Cell.read, hempty]
  rfl

theorem register_of_occupied {k : HandlerId} (hfull : (cell.get w.state).handler = some k)
    (h : HandlerId) :
    register cell h w
      = ⟨.returned (.error .handlerAlreadyRegistered), w,
        [⟨.event (.logged .handlerRefused), w.state⟩]⟩ := by
  simp only [register, Action.bind_eq, Action.andThen, Cell.read, hfull]
  rfl

theorem getHandler_apply (w : World σ) :
    getHandler cell w = ⟨.returned (cell.get w.state).handler, w, []⟩ := rfl

theorem isRegistered_apply (w : World σ) :
    isRegistered cell w = ⟨.returned (cell.get w.state).handler.isSome, w, []⟩ := rfl

variable {enter : HandlerId → Fault → Frame → Action σ (Status × Frame)}

theorem offer_of_empty (hempty : (cell.get w.state).handler = none)
    (enter : HandlerId → Fault → Frame → Action σ (Status × Frame)) (fault : Fault)
    (registers : Registers) :
    offer cell enter fault registers w
      = ⟨.returned (.unhandled, registers), w,
        [⟨.event (.logged (.faultUnclaimed fault.code)), w.state⟩]⟩ := by
  simp only [offer, Action.bind_eq, Action.andThen, Cell.read, hempty]
  rfl

theorem offer_of_occupied {k : HandlerId} (hfull : (cell.get w.state).handler = some k)
    (enter : HandlerId → Fault → Frame → Action σ (Status × Frame)) (fault : Fault)
    (registers : Registers) :
    offer cell enter fault registers w
      = (enter k fault (Frame.enter registers) >>= fun left => do
          Action.log (.faultHandled fault left.1)
          pure (Disposition.ofStatus left.1 left.2.arg0 left.2.arg1, left.2.registers)) w := by
  simp only [offer, Action.bind_eq, Action.andThen, Cell.read, hfull]
  rfl

section Dispatch

variable {fault : Fault} {registers : Registers} {w' : World σ} {h : History σ}

theorem dispatch_of_returned {d : Disposition} {left : Registers}
    (hoffer : offer cell enter fault registers w = ⟨.returned (d, left), w', h⟩) :
    dispatch cell enter fault registers w
      = ⟨.returned (d, left), w', ⟨.faultRaised fault registers, w.state⟩ ::
        (h ++ [⟨.faultSettled fault d left, w'.state⟩])⟩ := by
  simp only [dispatch, Action.bind_eq, Action.andThen, Action.mark, hoffer]
  rfl

theorem dispatch_of_stopped {stop : Stop}
    (hoffer : offer cell enter fault registers w = ⟨stop.outcome, w', h⟩) :
    dispatch cell enter fault registers w
      = ⟨stop.outcome, w', ⟨.faultRaised fault registers, w.state⟩ :: h⟩ := by
  rw [dispatch, Action.mark_bind_apply, Action.bind_of_stopped hoffer]

end Dispatch

end HandlerSlot

namespace ExitSlot

variable {σ : Type} {cell : Cell σ ExitSlot} {w : World σ}

/-- What installing a callback logs. -/
def replacing (slot : ExitSlot) : List Notice :=
  if slot.callback.isSome then [.exitCallbackReplaced] else []

theorem setCallback_apply (c : CallbackId) (w : World σ) :
    setCallback cell c w
      = ⟨.returned (cell.get w.state).callback, { w with state := cell.set ⟨some c⟩ w.state },
        (cell.get w.state).replacing.map fun n =>
          ⟨.event (.logged n), cell.set ⟨some c⟩ w.state⟩⟩ := by
  cases hslot : (cell.get w.state).callback with
  | none =>
      simp only [setCallback, Action.bind_eq, Action.andThen, Cell.read, Cell.write, hslot,
        replacing]
      rfl
  | some old =>
      simp only [setCallback, Action.bind_eq, Action.andThen, Cell.read, Cell.write, hslot,
        replacing]
      rfl

theorem clear_apply (w : World σ) :
    clear cell w
      = ⟨.returned (cell.get w.state).callback, { w with state := cell.set ⟨none⟩ w.state }, []⟩ :=
  rfl

theorem getCallback_apply (w : World σ) :
    getCallback cell w = ⟨.returned (cell.get w.state).callback, w, []⟩ := rfl

variable {run : CallbackId → Action σ Unit}

theorem notify_of_empty (hempty : (cell.get w.state).callback = none) :
    notify cell run w = ⟨.returned false, w, []⟩ := by
  simp only [notify, Action.bind_eq, Action.andThen, Cell.read, hempty]
  rfl

theorem notify_of_occupied {c : CallbackId} (hfull : (cell.get w.state).callback = some c)
    (run : CallbackId → Action σ Unit) :
    notify cell run w
      = (Action.log .exitCallbackRunning >>= fun _ => run c >>= fun _ => pure true) w := by
  simp only [notify, Action.bind_eq, Action.andThen, Cell.read, hfull]
  rfl

end ExitSlot

end PlatformLayer
