import PlatformLayer.Proofs.PromptCalls

/-!
# Calls that run client code

Start-up asks a probe, a fault enters a handler and a notification runs a callback. Whatever that
code does makes a passage of its own, and each of the three calls puts its own records around it.
-/

namespace PlatformLayer

open History

/-- The frame that code works on, where it has one. -/
def Role.frame? : {ρ : Role} → ρ.Local → Option Frame
  | .handler, frame => some frame
  | .probe, _ => none
  | .callback, _ => none
  | .thread, _ => none

/-- What is left of a frame by code that may not have come to its end. -/
def Outcome.leaving {α : Type} (frame : Option Frame) (left : α → Option Frame) :
    Outcome α → Option Frame
  | returned a => left a
  | _ => frame

namespace Stop

variable {α : Type}

theorem outcome_ne (stop : Stop) (a : α) : stop.outcome ≠ .returned a := by
  cases stop <;> simp [outcome]

@[simp] theorem fate_outcome (stop : Stop) : (stop.outcome : Outcome α).fate = stop.outcome := by
  cases stop <;> rfl

@[simp] theorem leaving_outcome (stop : Stop) (frame : Option Frame)
    (left : α → Option Frame) : stop.outcome.leaving frame left = frame := by
  cases stop <;> rfl

end Stop

variable {scope : Scope} {α β : Type}

/-- However it is run, the action makes a passage of client code. -/
def Follows (x : Action scope.State α) (frame : Option Frame) (left : α → Option Frame) : Prop :=
  ∀ w, (x w).Traces (.code frame ((x w).outcome.leaving frame left)) (Scope.objects w.state)

namespace Follows

variable {frame : Option Frame} {left : α → Option Frame}

theorem ret (left : α → Option Frame) (a : α) :
    Follows (pure a : Action scope.State α) (left a) left := by
  intro w
  exact .stop

/-- Reading the world, and changing what is no part of the layer, goes unseen. -/
theorem get : Follows (Action.get : Action scope.State _) frame fun _ => frame :=
  fun _ => .stop

theorem modify {f : World scope.State → World scope.State} (hf : ∀ w, (f w).state = w.state) :
    Follows (Action.modify f) frame fun _ => frame := by
  intro w
  rw [Report.Traces, Action.modify, hf w]
  exact .stop

/-- Code that has no frame, or does not touch the one it has. -/
theorem passage {x : Action scope.State α} (hx : Follows x frame fun _ => frame)
    (w : World scope.State) : (x w).Traces (.code frame frame) (Scope.objects w.state) := by
  have hleaving : (x w).outcome.leaving frame (fun _ => frame) = frame := by
    cases (x w).outcome <;> rfl
  have hpassage := hx w
  rwa [hleaving] at hpassage

theorem bind {x : Action scope.State α} {f : α → Action scope.State β}
    {left' : β → Option Frame} (hx : Follows x frame left)
    (hf : ∀ a, Follows (f a) (left a) left') : Follows (x >>= f) frame left' := by
  intro w
  have hfirst := hx w
  obtain ⟨a, w', first, hreport⟩ | ⟨stop, w', first, hreport⟩ := (x w).returned_or_stopped
  · rw [hreport] at hfirst
    rw [Action.bind_of_returned hreport, Report.Traces, seen_append]
    have hwhole := Passage.append hfirst (hf a w')
    obtain ⟨b, w'', rest, hrest⟩ | ⟨stop, w'', rest, hrest⟩ := (f a w').returned_or_stopped
    · rw [hrest] at hwhole ⊢
      exact hwhole
    · -- where `f a` is cut off, what it would have left is not what `x` started from
      rw [hrest] at hwhole ⊢
      simp only [Stop.leaving_outcome, Stop.fate_outcome] at hwhole ⊢
      exact .stuck (stop.outcome_ne ()) hwhole
  · rw [hreport] at hfirst
    rw [Action.bind_of_stopped hreport]
    simp only [Report.Traces, Stop.leaving_outcome, Stop.fate_outcome] at hfirst ⊢
    exact hfirst

end Follows

/-- A way to run client code that only ever makes passages. -/
def Runner.Sound (run : Runner scope.State) : Prop :=
  ∀ (ρ : Role) (thread : Nat) (program : Program ρ) (own : ρ.Local),
    Follows (run ρ thread program own) (Role.frame? own) fun r => Role.frame? r.2

/-! ### Asking and start-up -/

/-- A probe's entry, where it leaves one, and then its code. -/
def Asks (heralded : Bool) (c : Capability) (x : Action scope.State Answer) : Prop :=
  ∀ w, ∃ h, (x w).history.seen = heralding heralded c (Scope.objects w.state) ++ h ∧
    Passage scope (.code none none) (Scope.objects w.state) (x w).outcome.fate
      (Scope.objects (x w).world.state) h

theorem asks_host (host : Capability → Bool) (c : Capability) :
    Asks false c (pure (.ok (host c)) : Action scope.State Answer) :=
  fun _ => ⟨[], rfl, .stop⟩

theorem asks_client {inner : Option (Runner scope.State)} (hinner : ∀ run ∈ inner, run.Sound)
    (t : Nat) (ask : Capability → Program .probe) (skipped : Capability → Answer)
    (c : Capability) : Asks true c (Setting.askClient inner t ask skipped c) := by
  intro w
  match inner with
  | none => exact ⟨[], rfl, .stop⟩
  | some run =>
      have hcode : Follows (run .probe t (ask c) () >>= fun r => pure r.1) none
          fun _ => none := by
        refine Follows.bind (hinner run rfl .probe t (ask c) ()) fun r => ?_
        exact Follows.ret (fun _ => none) r.1
      have hentry : Setting.askClient (some run) t ask skipped c w
          = (Action.emit (.probeAsked c) >>= fun _ =>
              run .probe t (ask c) () >>= fun r => pure r.1) w := rfl
      refine ⟨((run .probe t (ask c) () >>= fun r => pure r.1) w).history.seen, ?_, ?_⟩
      · rw [hentry]
        rfl
      · rw [hentry]
        exact hcode.passage w

theorem askAll_traces {ask : Capability → Action scope.State Answer} {heralded : Bool}
    (hask : ∀ c, Asks heralded c (ask c)) (cs : List Capability) (s : CapabilitySet)
    (w : World scope.State) :
    ∃ found, (∀ s', (Registry.askAll ask cs s w).outcome = .returned s' → s' = found) ∧
      (Registry.askAll ask cs s w).Traces (.asking heralded cs s found)
        (Scope.objects w.state) := by
  induction cs generalizing s w with
  | nil =>
      refine ⟨s, ?_, .askedAll⟩
      intro s' hs
      cases hs
      rfl
  | cons c cs ih =>
      obtain ⟨h, hhistory, hcode⟩ := hask c w
      obtain ⟨a, w', first, hreport⟩ | ⟨stop, w', first, hreport⟩ :=
        (ask c w).returned_or_stopped
      · rw [hreport] at hhistory hcode
        obtain ⟨found, hfound, hrest⟩ := ih (s.tally c a) w'
        rw [Registry.askAll_cons_of_returned hreport]
        refine ⟨found, hfound, ?_⟩
        rw [Report.Traces]
        simp only [seen_cons, seen_append, seen_logging, hhistory, List.append_assoc]
        exact .asks hcode hrest
      · rw [hreport] at hhistory hcode
        rw [Registry.askAll_cons_of_stopped hreport]
        refine ⟨s, fun s' hs => absurd hs (stop.outcome_ne s'), ?_⟩
        rw [Stop.fate_outcome] at hcode
        rw [Report.Traces, seen_cons, hhistory, Stop.fate_outcome]
        exact .askStuck (stop.outcome_ne ()) hcode

theorem traces_init {c : Call} (hinit : c.isInit) {ask : Capability → Action scope.State Answer}
    (hask : ∀ capability, Asks c.heralds capability (ask capability)) (t : Nat)
    (frame : Option Frame) (w : World scope.State) :
    (Setting.making t c (scope.interface.init ask >>= fun s => pure (.capabilities s)) w).Traces
      (.call t c frame frame) (Scope.objects w.state) := by
  have hmethod : scope.interface.init = Registry.init (scope.cell Objects.registryCell) := by
    cases scope <;> rfl
  have hget := Scope.cell_get Objects.registryCell w.state
  rw [hmethod]
  cases hphase : (Scope.objects w.state).registry.phase with
  | ready s =>
      exact traces_prompt frame (Action.bind_pure_of_returned
        (Registry.init_of_ready ((congrArg _ hget).trans hphase) ask) _)
        (seen_logging [.capabilitiesKept s] _)
        (.kept hinit (Registry.published_eq_some_iff.mpr hphase))
  | probing =>
      rw [making_of_stopped (Action.bind_of_stopped
        (Registry.init_of_probing ((congrArg _ hget).trans hphase) ask) _)]
      exact .waiting hinit hphase
  | idle =>
      have hstart := Registry.init_of_idle ((congrArg _ hget).trans hphase) ask
      have hbegin : Scope.objects (Registry.begin (scope.cell Objects.registryCell) w).state
          = (Scope.objects w.state).probing := by
        rw [Registry.begin, Scope.objects_cell_set, Scope.cell_get]
        rfl
      obtain ⟨found, hfound, hbody⟩ := askAll_traces hask Capability.all .empty
        (Registry.begin (scope.cell Objects.registryCell) w)
      rw [hbegin] at hbody
      obtain ⟨s, w', h, hreport⟩ | ⟨stop, w', h, hreport⟩ := (Registry.askAll ask Capability.all
        .empty (Registry.begin (scope.cell Objects.registryCell) w)).returned_or_stopped
      · rw [hreport] at hbody hfound
        obtain rfl := hfound s rfl
        have hsettled := hstart.trans (Action.bind_of_returned hreport _)
        rw [Registry.settle_apply, Scope.cell_get, Scope.cell_get] at hsettled
        rw [making_of_returned (Action.bind_pure_of_returned hsettled _), Report.Traces]
        simp only [seen_cons, seen_append, seen_nil, Scope.objects_cell_set, List.append_assoc,
          List.cons_append, List.nil_append]
        exact .init hinit hphase hbody
      · rw [hreport, Report.Traces, Stop.fate_outcome] at hbody
        rw [making_of_stopped (Action.bind_of_stopped
          (hstart.trans (Action.bind_of_stopped hreport _)) _), Report.Traces, Stop.fate_outcome]
        exact .initStuck hinit hphase (stop.outcome_ne ()) hbody

/-! ### Faults -/

section Faults

variable (clients : Clients) (host : Capability → Bool) (inner : Option (Runner scope.State))
  (t : Nat) (fault : Fault)

/-- The code of a handler, without the record of its coming and going. -/
def handlerCode (k : HandlerId) (frame : Frame) : Action scope.State (Status × Frame) :=
  match inner with
  | some run => run .handler t (clients.handler k fault).program frame
  | none => pure ((clients.handler k fault).skipped, frame)

theorem follows_handlerCode (hinner : ∀ run ∈ inner, run.Sound) (k : HandlerId)
    (frame : Frame) :
    Follows (handlerCode clients inner t fault k frame) (some frame) fun r => some r.2 := by
  match inner with
  | none => exact Follows.ret (fun r : Status × Frame => some r.2) (_, frame)
  | some run => exact hinner run rfl .handler t (clients.handler k fault).program frame

theorem enterHandler_eq (k : HandlerId) (frame : Frame) :
    (scope.setting clients host).enterHandler inner t k fault frame
      = (Action.emit (.handlerEntered k fault frame) >>= fun _ =>
          handlerCode clients inner t fault k frame >>= fun r =>
            Action.mark (.handlerLeft k fault r.1 r.2) >>= fun _ => pure r) := by
  cases inner <;> rfl

theorem dispatch_eq (registers : Registers) :
    (scope.setting clients host).dispatch inner t fault registers
      = HandlerSlot.dispatch (scope.cell Objects.handlerCell)
          ((scope.setting clients host).enterHandler inner t) fault registers := by
  cases scope <;> rfl

section Offered

variable {cell : Cell scope.State HandlerSlot} {w w' : World scope.State}
  {h : History scope.State} {k : HandlerId} (hslot : (cell.get w.state).handler = some k)
  (registers : Registers)
include hslot

theorem offer_of_code_returned {status : Status} {left : Frame}
    (hcode : handlerCode clients inner t fault k (Frame.enter registers) w
      = ⟨.returned (status, left), w', h⟩) :
    HandlerSlot.offer cell ((scope.setting clients host).enterHandler inner t) fault registers w
      = ⟨.returned (Disposition.ofStatus status left.arg0 left.arg1, left.registers), w',
        ⟨.event (.handlerEntered k fault (Frame.enter registers)), w.state⟩ ::
          (h ++ [⟨.handlerLeft k fault status left, w'.state⟩,
            ⟨.event (.logged (.faultHandled fault status)), w'.state⟩])⟩ := by
  rw [HandlerSlot.offer_of_occupied hslot, enterHandler_eq]
  simp only [Action.bind_eq, Action.andThen, Action.emit, Action.mark, hcode]
  simp [Action.pure_eq, Action.ret, Action.log, Action.emit, Action.mark]

theorem offer_of_code_stopped {stop : Stop}
    (hcode : handlerCode clients inner t fault k (Frame.enter registers) w
      = ⟨stop.outcome, w', h⟩) :
    HandlerSlot.offer cell ((scope.setting clients host).enterHandler inner t) fault registers w
      = ⟨stop.outcome, w',
        ⟨.event (.handlerEntered k fault (Frame.enter registers)), w.state⟩ :: h⟩ := by
  have henter : (scope.setting clients host).enterHandler inner t k fault (Frame.enter registers) w
      = ⟨stop.outcome, w',
        ⟨.event (.handlerEntered k fault (Frame.enter registers)), w.state⟩ :: h⟩ := by
    rw [enterHandler_eq, Action.emit, Action.mark_bind_apply, Action.bind_of_stopped hcode]
  rw [HandlerSlot.offer_of_occupied hslot, Action.bind_of_stopped henter]

end Offered

/-- A fault without a handler is passed by; otherwise the code of the handler that is registered
when it is raised settles it, if that code returns. -/
theorem dispatch_cases (registers : Registers) (w : World scope.State) :
    ((Scope.objects w.state).handlerSlot.handler = none ∧
      (scope.setting clients host).dispatch inner t fault registers w
        = ⟨.returned (.unhandled, registers), w,
          [⟨.faultRaised fault registers, w.state⟩,
            ⟨.event (.logged (.faultUnclaimed fault.code)), w.state⟩,
            ⟨.faultSettled fault .unhandled registers, w.state⟩]⟩) ∨
    ∃ k, (Scope.objects w.state).handlerSlot.handler = some k ∧
      ((∃ status left w' h,
        handlerCode clients inner t fault k (Frame.enter registers) w
          = ⟨.returned (status, left), w', h⟩ ∧
        (scope.setting clients host).dispatch inner t fault registers w
          = ⟨.returned (Disposition.ofStatus status left.arg0 left.arg1, left.registers), w',
            ⟨.faultRaised fault registers, w.state⟩ ::
              ⟨.event (.handlerEntered k fault (Frame.enter registers)), w.state⟩ ::
              (h ++ [⟨.handlerLeft k fault status left, w'.state⟩,
                ⟨.event (.logged (.faultHandled fault status)), w'.state⟩,
                ⟨.faultSettled fault (Disposition.ofStatus status left.arg0 left.arg1)
                  left.registers, w'.state⟩])⟩) ∨
      ∃ (stop : Stop) (w' : _) (h : _),
        handlerCode clients inner t fault k (Frame.enter registers) w = ⟨stop.outcome, w', h⟩ ∧
        (scope.setting clients host).dispatch inner t fault registers w
          = ⟨stop.outcome, w', ⟨.faultRaised fault registers, w.state⟩ ::
              ⟨.event (.handlerEntered k fault (Frame.enter registers)), w.state⟩ :: h⟩) := by
  have hget := Scope.cell_get Objects.handlerCell w.state
  rw [dispatch_eq]
  cases hslot : (Scope.objects w.state).handlerSlot.handler with
  | none =>
      exact Or.inl ⟨rfl, HandlerSlot.dispatch_of_returned
        (HandlerSlot.offer_of_empty ((congrArg _ hget).trans hslot) _ fault registers)⟩
  | some k =>
      have hfull := (congrArg HandlerSlot.handler hget).trans hslot
      refine Or.inr ⟨k, rfl, ?_⟩
      obtain ⟨⟨status, left⟩, w', h, hreport⟩ | ⟨stop, w', h, hreport⟩ :=
        (handlerCode clients inner t fault k (Frame.enter registers) w).returned_or_stopped
      · have hdispatch := HandlerSlot.dispatch_of_returned
          (offer_of_code_returned clients host inner t fault hfull registers hreport)
        rw [List.cons_append, List.append_assoc] at hdispatch
        exact Or.inl ⟨status, left, w', h, hreport, hdispatch⟩
      · exact Or.inr ⟨stop, w', h, hreport, HandlerSlot.dispatch_of_stopped
          (offer_of_code_stopped clients host inner t fault hfull registers hreport)⟩

/-- No status came back: any will do for a stretch that is cut off. -/
theorem Passage.handled_of_stuck {f : Fault} {registers : Registers} {k : HandlerId}
    {o o' : Objects} {e : Outcome Unit} {h : History Objects} (hstuck : e ≠ .returned ())
    (hslot : o.handlerSlot.handler = some k)
    (body : Passage scope (.code (some (Frame.enter registers)) (some (Frame.enter registers)))
      o e o' h) :
    Passage scope (.fault f registers .unhandled registers) o e o'
      (⟨.faultRaised f registers, o⟩ ::
        ⟨.event (.handlerEntered k f (Frame.enter registers)), o⟩ :: h) := by
  have hcut : Passage scope (.fault f registers
      (Disposition.ofStatus Status.continueSearch 0 0) registers) o e o' _ := .handled hslot body
  rw [closing_of_stuck hstuck, List.append_nil] at hcut
  exact hcut

theorem traces_fault (hinner : ∀ run ∈ inner, run.Sound) (registers : Registers)
    (w : World scope.State) :
    ∃ d left,
      (∀ r, ((scope.setting clients host).dispatch inner t fault registers w).outcome
        = .returned r → r = (d, left)) ∧
      ((scope.setting clients host).dispatch inner t fault registers w).Traces
        (.fault fault registers d left) (Scope.objects w.state) := by
  have hcode := fun k =>
    follows_handlerCode clients inner t fault hinner k (Frame.enter registers) w
  rcases dispatch_cases clients host inner t fault registers w with ⟨hslot, hdispatch⟩ |
    ⟨k, hslot, ⟨status, left, w', h, hreport, hdispatch⟩ | ⟨stop, w', h, hreport, hdispatch⟩⟩
  · rw [hdispatch]
    refine ⟨.unhandled, registers, ?_, .unclaimed hslot⟩
    rintro r ⟨⟩
    rfl
  · rw [hdispatch]
    refine ⟨Disposition.ofStatus status left.arg0 left.arg1, left.registers, ?_, ?_⟩
    · rintro r ⟨⟩
      rfl
    · have hbody := hcode k
      rw [hreport] at hbody
      simp only [Report.Traces, seen_cons, seen_append, seen_nil]
      exact .handled hslot hbody
  · rw [hdispatch]
    refine ⟨.unhandled, registers, fun r hr => absurd hr (stop.outcome_ne r), ?_⟩
    have hbody := hcode k
    simp only [hreport, Report.Traces, Stop.leaving_outcome, Stop.fate_outcome] at hbody
    rw [Report.Traces, Stop.fate_outcome]
    exact .handled_of_stuck (stop.outcome_ne ()) hslot hbody

section Settled

variable {w w' : World scope.State} {h : History scope.State}

theorem dispatchOn_of_returned {context : Nat} {d : Disposition} {left : Registers}
    (hdispatch : (scope.setting clients host).dispatch inner t fault
      (w.contexts.getD context default) w = ⟨.returned (d, left), w', h⟩) :
    (scope.setting clients host).dispatchOn inner t fault context w
      = ⟨.returned (.dispatched d left),
        { w' with contexts := w'.contexts.set context left }, h⟩ := by
  simp only [Setting.dispatchOn, Action.bind_eq, Action.andThen, Action.get, hdispatch,
    List.nil_append]
  simp [Action.modify, Action.pure_eq, Action.ret]

theorem dispatchOn_of_stopped {context : Nat} {stop : Stop}
    (hdispatch : (scope.setting clients host).dispatch inner t fault
      (w.contexts.getD context default) w = ⟨stop.outcome, w', h⟩) :
    (scope.setting clients host).dispatchOn inner t fault context w = ⟨stop.outcome, w', h⟩ := by
  rw [Setting.dispatchOn]
  exact Action.bind_of_stopped hdispatch _

theorem forwardOwn_of_returned {frame : Frame} {d : Disposition} {left : Registers}
    (hdispatch : (scope.setting clients host).dispatch inner t fault frame.registers w
      = ⟨.returned (d, left), w', h⟩) :
    (scope.setting clients host).forwardOwn inner t fault frame w
      = ⟨.returned (.dispatched d left, { frame with registers := left }), w',
        ⟨.called t (.forward fault), w.state⟩ ::
          (h ++ [⟨.returned (.forward fault) (.dispatched d left), w'.state⟩])⟩ := by
  rw [Setting.forwardOwn, Action.mark_bind_apply, Action.bind_of_returned hdispatch]
  rfl

theorem forwardOwn_of_stopped {frame : Frame} {stop : Stop}
    (hdispatch : (scope.setting clients host).dispatch inner t fault frame.registers w
      = ⟨stop.outcome, w', h⟩) :
    (scope.setting clients host).forwardOwn inner t fault frame w
      = ⟨stop.outcome, w', ⟨.called t (.forward fault), w.state⟩ :: h⟩ := by
  rw [Setting.forwardOwn, Action.mark_bind_apply, Action.bind_of_stopped hdispatch]

end Settled

theorem traced_dispatch (hinner : ∀ run ∈ inner, run.Sound) (context : Nat)
    (frame : Option Frame) (w : World scope.State) :
    (Operation.dispatch fault context).Traced clients host inner t frame w := by
  obtain ⟨d, left, hresult, hfault⟩ := traces_fault clients host inner t fault hinner
    (w.contexts.getD context default) w
  have hcall : Passage scope (.call t (.operation (.dispatch fault context)) frame frame)
    (Scope.objects w.state) _ _ _ := .dispatch hfault
  obtain ⟨r, w', h, hreport⟩ | ⟨stop, w', h, hreport⟩ := ((scope.setting clients host).dispatch
    inner t fault (w.contexts.getD context default) w).returned_or_stopped
  · rw [hreport] at hcall hresult
    obtain rfl := hresult r rfl
    rw [Operation.Traced, Setting.perform,
      making_of_returned (dispatchOn_of_returned clients host inner t fault hreport), Report.Traces]
    simp only [seen_cons, seen_append, seen_nil]
    exact hcall
  · rw [hreport, Stop.fate_outcome, closing_of_stuck (stop.outcome_ne ()), List.append_nil]
      at hcall
    rw [Operation.Traced, Setting.perform,
      making_of_stopped (dispatchOn_of_stopped clients host inner t fault hreport), Report.Traces,
      Stop.fate_outcome]
    exact hcall

/-- A handler that hands its own registers on finds them as the nested handler left them. -/
theorem forwardOwn_cases (hinner : ∀ run ∈ inner, run.Sound) (frame : Frame)
    (w : World scope.State) :
    (∃ (d : _) (left : _) (w' : _) (h : History scope.State),
      (scope.setting clients host).forwardOwn inner t fault frame w
        = ⟨.returned (.dispatched d left, { frame with registers := left }), w',
          h ++ [⟨.returned (.forward fault) (.dispatched d left), w'.state⟩]⟩ ∧
      Passage scope (.call t (.forward fault) (some frame) (some { frame with registers := left }))
        (Scope.objects w.state) (.returned ()) (Scope.objects w'.state)
        (h.seen ++ [⟨.returned (.forward fault) (.dispatched d left), Scope.objects w'.state⟩])) ∨
    ∃ (left : Registers) (stop : Stop) (w' : _) (h : History scope.State),
      (scope.setting clients host).forwardOwn inner t fault frame w = ⟨stop.outcome, w', h⟩ ∧
      Passage scope (.call t (.forward fault) (some frame) (some { frame with registers := left }))
        (Scope.objects w.state) stop.outcome (Scope.objects w'.state) h.seen := by
  obtain ⟨d, left, hresult, hfault⟩ :=
    traces_fault clients host inner t fault hinner frame.registers w
  have hcall : Passage scope (.call t (.forward fault) (some frame)
    (some { frame with registers := left })) (Scope.objects w.state) _ _ _ := .forward hfault
  obtain ⟨r, w', h, hreport⟩ | ⟨stop, w', h, hreport⟩ := ((scope.setting clients host).dispatch
    inner t fault frame.registers w).returned_or_stopped
  · rw [hreport] at hcall hresult
    obtain rfl := hresult r rfl
    exact Or.inl ⟨d, left, w', _ :: h,
      forwardOwn_of_returned clients host inner t fault hreport, hcall⟩
  · rw [hreport, Stop.fate_outcome, closing_of_stuck (stop.outcome_ne ()), List.append_nil]
      at hcall
    exact Or.inr ⟨left, stop, w', _ :: h,
      forwardOwn_of_stopped clients host inner t fault hreport, hcall⟩

theorem follows_forwardOwn (hinner : ∀ run ∈ inner, run.Sound) (frame : Frame) :
    Follows ((scope.setting clients host).forwardOwn inner t fault frame) (some frame)
      fun r => some r.2 := by
  intro w
  obtain ⟨d, left, w', h, hreport, hcall⟩ | ⟨left, stop, w', h, hreport, hcall⟩ :=
    forwardOwn_cases clients host inner t fault hinner frame w
  · rw [hreport, Report.Traces, seen_append]
    exact .made hcall
  · simp only [hreport, Report.Traces, Stop.leaving_outcome, Stop.fate_outcome]
    exact .stuck (stop.outcome_ne ()) (.made hcall)

end Faults

/-! ### Notifications -/

section Notifications

variable (clients : Clients) (host : Capability → Bool) (inner : Option (Runner scope.State))
  (t : Nat)

/-- The code of a callback, without the record of its coming and going. -/
def callbackCode (k : CallbackId) : Action scope.State Unit :=
  match inner with
  | some run => run .callback t (clients.callback k) () >>= fun _ => pure ()
  | none => pure ()

theorem follows_callbackCode (hinner : ∀ run ∈ inner, run.Sound) (k : CallbackId) :
    Follows (callbackCode clients inner t k) none fun _ => none := by
  match inner with
  | none => exact Follows.ret (fun _ => none) ()
  | some run =>
      refine Follows.bind (hinner run rfl .callback t (clients.callback k) ()) fun r => ?_
      exact Follows.ret (fun _ => none) ()

theorem runCallback_eq (k : CallbackId) :
    (scope.setting clients host).runCallback inner t k
      = (Action.emit (.callbackEntered k t) >>= fun _ =>
          callbackCode clients inner t k >>= fun _ => Action.mark (.callbackLeft k)) := by
  cases inner with
  | none => rfl
  | some run =>
      rw [callbackCode, bind_assoc]
      rfl

/-- A notification that finds no callback is over at once; otherwise the code of the callback that it
finds is run, and the slot is not looked at again. -/
theorem notify_cases (w : World scope.State) :
    ((Scope.objects w.state).exitSlot.callback = none ∧
      (scope.setting clients host).perform inner t .notify w = ⟨.returned (.flag false), w, []⟩) ∨
    ∃ k, (Scope.objects w.state).exitSlot.callback = some k ∧
      ((∃ w' h, callbackCode clients inner t k w = ⟨.returned (), w', h⟩ ∧
        (scope.setting clients host).perform inner t .notify w
          = ⟨.returned (.flag true), w', ⟨.event (.logged .exitCallbackRunning), w.state⟩ ::
              ⟨.event (.callbackEntered k t), w.state⟩ :: (h ++ [⟨.callbackLeft k, w'.state⟩])⟩) ∨
      ∃ (stop : Stop) (w' : _) (h : _),
        callbackCode clients inner t k w = ⟨stop.outcome, w', h⟩ ∧
        (scope.setting clients host).perform inner t .notify w
          = ⟨stop.outcome, w', ⟨.event (.logged .exitCallbackRunning), w.state⟩ ::
              ⟨.event (.callbackEntered k t), w.state⟩ :: h⟩) := by
  have hperform : (scope.setting clients host).perform inner t .notify
      = (ExitSlot.notify (scope.cell Objects.exitCell)
          ((scope.setting clients host).runCallback inner t) >>= fun b => pure (.flag b)) := by
    cases scope <;> rfl
  have hget := Scope.cell_get Objects.exitCell w.state
  rw [hperform]
  cases hslot : (Scope.objects w.state).exitSlot.callback with
  | none =>
      exact Or.inl ⟨rfl, Action.bind_pure_of_returned
        (ExitSlot.notify_of_empty ((congrArg _ hget).trans hslot)) _⟩
  | some k =>
      have hnotify := ExitSlot.notify_of_occupied ((congrArg ExitSlot.callback hget).trans hslot)
        ((scope.setting clients host).runCallback inner t)
      refine Or.inr ⟨k, rfl, ?_⟩
      obtain ⟨_, w', h, hreport⟩ | ⟨stop, w', h, hreport⟩ :=
        (callbackCode clients inner t k w).returned_or_stopped
      · have hrun : (scope.setting clients host).runCallback inner t k w
            = ⟨.returned (), w', ⟨.event (.callbackEntered k t), w.state⟩ ::
              (h ++ [⟨.callbackLeft k, w'.state⟩])⟩ := by
          rw [runCallback_eq, Action.emit, Action.mark_bind_apply, Action.bind_of_returned hreport]
          rfl
        rw [Action.log, Action.emit, Action.mark_bind_apply, Action.bind_of_returned hrun]
          at hnotify
        have hreturned := Action.bind_pure_of_returned hnotify Reply.flag
        simp only [Action.pure_eq, Action.ret, List.append_nil] at hreturned
        exact Or.inl ⟨w', h, hreport, hreturned⟩
      · have hrun : (scope.setting clients host).runCallback inner t k w
            = ⟨stop.outcome, w', ⟨.event (.callbackEntered k t), w.state⟩ :: h⟩ := by
          rw [runCallback_eq, Action.emit, Action.mark_bind_apply, Action.bind_of_stopped hreport]
        rw [Action.log, Action.emit, Action.mark_bind_apply, Action.bind_of_stopped hrun]
          at hnotify
        exact Or.inr ⟨stop, w', h, hreport, Action.bind_of_stopped hnotify _⟩

theorem traced_notify (hinner : ∀ run ∈ inner, run.Sound) (frame : Option Frame)
    (w : World scope.State) : Operation.notify.Traced clients host inner t frame w := by
  rw [Operation.Traced]
  rcases notify_cases clients host inner t w with ⟨hslot, hperform⟩ |
    ⟨k, hslot, ⟨w', h, hreport, hperform⟩ | ⟨stop, w', h, hreport, hperform⟩⟩
  · exact traces_prompt frame hperform rfl (.unnotified hslot)
  · have hcode := (follows_callbackCode clients inner t hinner k).passage w
    have hcall : Passage scope (.call t (.operation .notify) frame frame)
      (Scope.objects w.state) _ _ _ := .notify hslot hcode
    rw [hreport] at hcall
    rw [making_of_returned hperform, Report.Traces]
    simp only [seen_cons, seen_append, seen_nil, List.append_assoc, List.cons_append,
      List.nil_append]
    exact hcall
  · have hcode := (follows_callbackCode clients inner t hinner k).passage w
    have hcall : Passage scope (.call t (.operation .notify) frame frame)
      (Scope.objects w.state) _ _ _ := .notify hslot hcode
    rw [hreport, Stop.fate_outcome, closing_of_stuck (stop.outcome_ne ()), List.append_nil]
      at hcall
    rw [making_of_stopped hperform, Report.Traces, Stop.fate_outcome]
    exact hcall

end Notifications

end PlatformLayer
