import PlatformLayer.Proofs.Activations
import PlatformLayer.Proofs.FrameStores

/-!
# Handlers within handlers

A handler may be entered again while it is running, for faults that it raises itself or that other
code raises on its behalf. The activations then share nothing but what one of them hands on: a fault
on a numbered context leaves the frame of the handler that raises it alone, and one on its own
registers changes these registers, exactly as the handler entered for it left them, and no more.
-/

namespace PlatformLayer

open History

variable {scope : Scope}

/-- The values that a step stores in a place of the frame of the handler that takes it. A handler
stores for itself, and whatever reaches registers while it hands them on is stored in them too. -/
def Program.stores (place : Place) (h : History Objects) : Program .handler → List UInt64
  | .store other v _ => if other = place then [v] else []
  | .forward f _ => if place.hides (.forward f) then [] else storedIn place 0 h
  | _ => []

/-- What one step does to the frame of the handler that takes it. -/
inductive Program.Affects :
    Program .handler → Frame → History Objects → Program .handler → Frame → Prop where
  | called {op : Operation} {next : Reply → Program .handler} {frame : Frame} {r : Reply}
      {h : History Objects} : Affects (.call op next) frame h (next r) frame
  | started {ask : Capability → Program .probe} {skipped : Capability → Answer}
      {next : Reply → Program .handler} {frame : Frame} {r : Reply} {h : History Objects} :
      Affects (.init ask skipped next) frame h (next r) frame
  | spawned {n : Nat} {body : Program .thread} {next : Reply → Program .handler} {frame : Frame}
      {r : Reply} {h : History Objects} : Affects (.spawn n body next) frame h (next r) frame
  | noted {r : Reply} {next : Program .handler} {frame : Frame} {h : History Objects} :
      Affects (.note r next) frame h next frame
  | loaded {place : Place} {next : UInt64 → Program .handler} {frame : Frame} :
      Affects (.load place next) frame [] (next (frame.load place)) frame
  | stored {place : Place} {v : UInt64} {next : Program .handler} {frame : Frame} {o : Objects} :
      Affects (.store place v next) frame [⟨.stored place v, o⟩] next (frame.store place v)
  | unclaimed {t : Nat} {f : Fault} {next : Reply → Program .handler} {frame : Frame}
      {o : Objects} :
      Affects (.forward f next) frame
        (⟨.called t (.forward f), o⟩ :: passedBy f frame.registers o ++
          [⟨.returned (.forward f) (.dispatched .unhandled frame.registers), o⟩])
        (next (.dispatched .unhandled frame.registers)) frame
  /-- The registers are those that the handler in between left, and only what is stored in them
  while it runs, by itself or by handlers that it hands them on to, can have changed them. -/
  | handedOn {t : Nat} {f : Fault} {next : Reply → Program .handler} {frame left : Frame}
      {k : HandlerId} {status : Status} {o o' : Objects} {body h : History Objects}
      (hrecord : h = ⟨.called t (.forward f), o⟩ ::
          (entering f frame.registers k o ++ (body ++ leaving k f status left o')) ++
        [⟨.returned (.forward f) (.dispatched
          (Disposition.ofStatus status left.arg0 left.arg1) left.registers), o'⟩])
      (hreach : ∀ s, storedIn (.register s) 0 h = storedIn (.register s) 0 body)
      (hleft : ∀ s, left.load (.register s)
        = (storedIn (.register s) 0 body).getLast?.getD (frame.load (.register s))) :
      Affects (.forward f next) frame h
        (next (.dispatched (Disposition.ofStatus status left.arg0 left.arg1) left.registers))
        { frame with registers := left.registers }

section Forward

variable {t : Nat} {f : Fault} {k : HandlerId} {status : Status} {registers : Registers}
  {left : Frame} {r : Reply} {o o' : Objects} {body : History Objects}

/-- While registers are handed on, what reaches them is what reaches them in the handler in between,
and nothing reaches the argument words. -/
theorem History.storedIn_forward
    (hbody : Nesting (some (Frame.enter registers)) (some left) (.returned ()) body)
    (place : Place) :
    storedIn place 0 (⟨.called t (.forward f), o⟩ ::
        (entering f registers k o ++ (body ++ leaving k f status left o')) ++
      [⟨.returned (.forward f) r, o'⟩])
      = if place.hides (.forward f) then [] else storedIn place 0 body := by
  rw [List.cons_append, List.append_assoc, List.append_assoc]
  refine (storedIn_activation (c := .forward f) (e := .returned ()) rfl
    (hbody.enclosed place _).1).trans ?_
  by_cases hhides : place.hides (.forward f)
  · rw [if_pos hhides, hbody.hidden hhides]
  · rw [if_neg hhides, Place.behind_of_shown (Bool.eq_false_iff.mpr hhides)]

end Forward

/-- A call that hands no registers on does not depend on a frame. -/
theorem Passage.frameless {t : Nat} {c : Call} {frame left : Option Frame} {o o' : Objects}
    {e : Outcome Unit} {h : History Objects}
    (hcall : Passage scope (.call t c frame left) o e o' h) (hown : ∀ f, c ≠ .forward f) :
    Passage scope (.call t c none none) o e o' h := by
  cases hcall with
  | prompt hprompt => exact .prompt hprompt
  | fatal hfatal => exact .fatal hfatal
  | waiting hinit hprobing => exact .waiting hinit hprobing
  | init hinit hidle body => exact .init hinit hidle body
  | initStuck hinit hidle hstuck body => exact .initStuck hinit hidle hstuck body
  | notify hslot body => exact .notify hslot body
  | dispatch body => exact .dispatch body
  | @forward _ f => exact absurd rfl (hown f)

section Step

variable {program program' : Program .handler} {frame frame' : Frame} {o o' : Objects}
  {h : History Objects} (hstep : program.Step scope frame o h program' frame' o')
include hstep

theorem Program.Step.affects : program.Affects frame h program' frame' := by
  cases hstep with
  | made hmakes call =>
      cases hmakes with
      | operation => exact .called
      | init => exact .started
      | forward =>
          rcases call.of_forward with ⟨-, rfl, -, hreply, rfl⟩ |
            ⟨k, status, left, body, -, -, hreply, hbody, rfl⟩
          · cases hreply
            exact .unclaimed
          · cases hreply
            obtain ⟨_, ⟨⟩, hload⟩ := hbody.nests.load_eq
            exact .handedOn rfl (fun s => storedIn_forward hbody.nests (.register s))
              fun s => hload (.register s)
  | spawned _ => exact .spawned
  | noted => exact .noted
  | loaded => exact .loaded
  | stored => exact .stored

theorem Program.Step.storedIn_eq (place : Place) :
    storedIn place 0 h = program.stores place h := by
  cases hstep with
  | made hmakes call =>
      cases hmakes with
      | operation => exact ((call.frameless nofun).nests.frameless place).2
      | init => exact ((call.frameless nofun).nests.frameless place).2
      | @forward f =>
          rcases call.of_forward with ⟨-, rfl, -, -, rfl⟩ |
            ⟨k, status, left, body, -, -, -, hbody, rfl⟩
          · simp [Program.stores, passedBy, Place.deeper, Call.raises?]
          · rw [Program.stores, storedIn_forward hbody.nests place]
            by_cases hhides : place.hides (.forward f)
            · rw [if_pos hhides, if_pos hhides]
            · rw [if_neg hhides, if_neg hhides]
  | spawned threads => exact (threads.nests.frameless place).2
  | noted => rfl
  | loaded => rfl
  | @stored other v =>
      by_cases hplace : other = place
      · simp [Program.stores, Place.deeper, hplace]
      · simp [Program.stores, Place.deeper, hplace]

end Step

/-- Wherever a handler's code has come, its frame holds what was last stored in it. -/
theorem Program.Reaches.load_eq {program program' : Program .handler} {frame frame' : Frame}
    {o o' : Objects} {h : History Objects}
    (hreaches : program.Reaches scope frame o h program' frame' o') (place : Place) :
    frame'.load place = (storedIn place 0 h).getLast?.getD (frame.load place) := by
  obtain ⟨_, ⟨⟩, hload⟩ := hreaches.passage.nests.load_eq
  exact hload place

/-- **Activations share nothing but the registers that they hand on.** Every activation starts with
argument words that are zero. Wherever its code has come, each place of its frame holds the value
last stored there: argument words by this activation itself, registers by it or by those that it
handed them on to. A step changes the frame by a store of its own or by handing the registers on,
never by a fault on another context, and the caller is told what the frame holds at the end. -/
theorem Run.activations_isolated (run : Run) (before : History Objects) (k : HandlerId)
    (f : Fault) (frame : Frame) (o : Objects) (after : History Objects)
    (hsplit : run.history = before ++ ⟨.event (.handlerEntered k f frame), o⟩ :: after) :
    ∃ c registers, c.raises? = some f ∧ frame = ⟨registers, 0, 0⟩ ∧
      (∀ done program here x,
        (run.clients.handler k f).program.Reaches run.scope frame o done program here x →
        (∀ place, Frame.load here place
          = (storedIn place 0 done).getLast?.getD (frame.load place)) ∧
        ∀ h program' here' x', program.Step run.scope here x h program' here' x' →
          program.Affects here h program' here' ∧ ∀ place,
            storedIn place 0 (done ++ h) = storedIn place 0 done ++ program.stores place h) ∧
      ((∃ stop o', run.outcome = Stop.outcome stop ∧
          (run.clients.handler k f).Conduct run.scope (underWay 0 before = run.depth) frame o
            stop.outcome o' after) ∨
        ∃ body status left o' rest,
          (run.clients.handler k f).Conduct run.scope (underWay 0 before = run.depth) frame o
            (.returned (status, left)) o' body ∧
          after = body ++ (leaving k f status left o' ++
            ⟨.returned c (.dispatched (Disposition.ofStatus status left.arg0 left.arg1)
              left.registers), o'⟩ :: rest) ∧
          left.arg0 = (storedIn .arg0 0 body).getLast?.getD 0 ∧
          left.arg1 = (storedIn .arg1 0 body).getLast?.getD 0 ∧
          ∀ s, left.load (.register s)
            = (storedIn (.register s) 0 body).getLast?.getD (frame.load (.register s))) := by
  obtain ⟨c, registers, hraises, -, rfl, hactivation⟩ := run.activation hsplit
  refine ⟨c, registers, hraises, rfl, ?_, ?_⟩
  · intro done program here x hreaches
    -- what was done so far came back to this frame, so the next step stores in it, if it stores
    refine ⟨hreaches.load_eq, fun h program' here' x' hstep => ⟨hstep.affects, fun place => ?_⟩⟩
    rw [storedIn_append, (hreaches.passage.nests.enclosed place 0).1 rfl, hstep.storedIn_eq]
  · generalize run.outcome = e at hactivation
    cases hactivation with
    | @finished status left o' _ body rest hcode =>
        obtain ⟨_, ⟨⟩, hload⟩ := hcode.nests.load_eq
        exact Or.inr ⟨body, status, left, o', rest, hcode, rfl, hload .arg0, hload .arg1,
          fun s => hload (.register s)⟩
    | @cut stop o' _ hcode => exact Or.inl ⟨stop, o', rfl, hcode⟩

/-- The handler of the first fault stores an argument, raises one fault on the context that it was
called for and another on its own registers, and makes the instruction pointer that it then finds
its other argument. The handlers of these two store an argument and the instruction pointer. -/
def Run.handingOn : Run :=
  let ip := Place.register Architecture.native.instruction
  { Run.alone ⟨fun _ f => ⟨if f.code = 1 then
          .store .arg0 7 (.call (.dispatch ⟨2, 0x20⟩ 0) fun _ => .forward ⟨3, 0x30⟩ fun _ =>
            .load ip fun v => .store .arg1 v (.ret .continueExecution))
        else .store .arg0 9 (.store ip 0x77 (.ret .continueExecution)), .continueSearch⟩,
        fun _ => .ret ()⟩ 2
      (.call (.register 4) fun _ => .call (.dispatch ⟨1, 0x10⟩ 0) fun r => .ret [r]) with
    contexts := [default] }

theorem Run.activations_isolated_handingOn :
    ∃ body status left o' rest, Run.handingOn.history.drop 6
        = body ++ (leaving 4 ⟨1, 0x10⟩ status left o' ++ rest) ∧
      left.arg0 = (storedIn .arg0 0 body).getLast?.getD 0 ∧
      left.arg1 = (storedIn .arg1 0 body).getLast?.getD 0 ∧
      ∃ registers, ⟨.faultSettled ⟨1, 0x10⟩ (.resume 7 0x77) registers, ⟨.new, ⟨some 4⟩, .new⟩⟩
        ∈ Run.handingOn.history := by
  have hsettled : ∃ registers,
      ⟨.faultSettled ⟨1, 0x10⟩ (.resume 7 0x77) registers, ⟨.new, ⟨some 4⟩, .new⟩⟩
        ∈ Run.handingOn.history := ⟨_, List.mem_of_getElem? (i := 28) rfl⟩
  obtain ⟨c, registers, -, -, -, ⟨stop, o', hstopped, -⟩ |
      ⟨body, status, left, o', rest, -, hafter, harg0, harg1, -⟩⟩ :=
    Run.activations_isolated Run.handingOn (Run.handingOn.history.take 5) 4 ⟨1, 0x10⟩
      (Frame.enter default) ⟨.new, ⟨some 4⟩, .new⟩ (Run.handingOn.history.drop 6) rfl
  · have hreturned : Run.handingOn.outcome = .returned () := rfl
    exact absurd (hstopped.symm.trans hreturned) (stop.outcome_ne ())
  · exact ⟨body, status, left, o', _, hafter, harg0, harg1, hsettled⟩

end PlatformLayer
