import PlatformLayer.Proofs.Handling

/-!
# Activations of handlers

Wherever in a run a fault is raised or a notification made, at whatever depth and in whatever code,
it is answered there, and wherever a handler is entered, that is its activation for one such fault.
The first is shown of every way to run client code, the innermost first.
-/

namespace PlatformLayer

open History

variable {scope : Scope} {clients : Clients} {α β : Type}

theorem Stop.outcome_injective {stop stop' : Stop}
    (h : (stop.outcome : Outcome α) = stop'.outcome) : stop = stop' := by
  cases stop <;> cases stop' <;> simp_all [Stop.outcome]

/-! ### Actions -/

/-- However the action is run, it handles the faults that are raised in it, and answers the
notifications. -/
def HandlesFaults (clients : Clients) (depth n n' : Nat) (x : Action scope.State α) : Prop :=
  ∀ w, Handles scope clients depth n n' w.contexts (x w).world.contexts (x w).outcome.fate
    (x w).history.seen

namespace HandlesFaults

variable {depth n n' n'' : Nat}

theorem quiet {x : Action scope.State α} (hleaves : LeavesContexts x)
    (hquiet : ∀ w, Lacks Happening.touches (x w).history.seen) :
    HandlesFaults clients depth n n x := by
  intro w
  rw [hleaves w]
  exact .of_lacks (hquiet w)

theorem ret (a : α) : HandlesFaults clients depth n n (pure a : Action scope.State α) :=
  fun _ => .nil

theorem mark {what : Happening} (hquiet : what.callsClient = false) (hturn : what.turn n = n')
    (hput : ∀ contexts, what.put contexts = contexts) :
    HandlesFaults clients depth n n' (Action.mark what : Action scope.State Unit) :=
  fun w => .record hquiet hturn (hput w.contexts)

theorem bind {x : Action scope.State α} {f : α → Action scope.State β}
    (hx : HandlesFaults clients depth n n' x) (hf : ∀ a, HandlesFaults clients depth n' n'' (f a)) :
    HandlesFaults clients depth n n'' (x >>= f) := by
  intro w
  have hfirst := hx w
  obtain ⟨a, w', first, hreport⟩ | ⟨stop, w', first, hreport⟩ := (x w).returned_or_stopped
  · rw [hreport] at hfirst
    rw [Action.bind_of_returned hreport, seen_append]
    exact hfirst.append (hf a w')
  · rw [hreport, Stop.fate_outcome] at hfirst
    rw [Action.bind_of_stopped hreport, Stop.fate_outcome]
    -- what was to come is never reached, nor is the level that it would have been at
    exact hfirst.stuck (stop.outcome_ne ())

theorem making {t : Nat} {c : Call} {act : Action scope.State Reply}
    (hclient : c.entersClient = false)
    (hput : ∀ r contexts, (Happening.returned c r).put contexts = contexts)
    (hact : HandlesFaults clients depth n n act) :
    HandlesFaults clients depth n n (Setting.making t c act) := by
  refine .bind (.mark hclient rfl fun _ => rfl) fun _ => .bind hact fun r => ?_
  exact .bind (.mark rfl rfl (hput r)) fun _ => .ret r

/-- A call that writes to a numbered context does so when it returns. -/
theorem putting {t context : Nat} {c : Call} {f : Registers → Registers}
    (hclient : c.entersClient = false)
    (hput : ∀ contexts, (Happening.returned c .done).put contexts = contexts.modify context f) :
    HandlesFaults clients depth n n
      (Setting.making t c (Setting.putContext context f) : Action scope.State Reply) := by
  exact fun w => .cons hclient (.record rfl rfl (hput w.contexts))

theorem init {cell : Cell scope.State Registry} {ask : Capability → Action scope.State Answer}
    (hask : ∀ c, HandlesFaults clients depth (n + 1) (n + 1) (ask c)) :
    HandlesFaults clients depth n n (Registry.init cell ask) := by
  have hone : ∀ c, HandlesFaults clients depth n n (Registry.askOne ask c) := by
    intro c
    refine .bind (.mark rfl rfl fun _ => rfl) fun _ => .bind (hask c) fun answer => ?_
    refine .bind (.mark rfl rfl fun _ => rfl) fun _ => ?_
    cases answer with
    | ok present => exact .ret present
    | error failure => exact .bind (.mark rfl rfl fun _ => rfl) fun _ => .ret false
  have hall : ∀ cs s, HandlesFaults clients depth n n (Registry.askAll ask cs s) := by
    intro cs
    induction cs with
    | nil => exact .ret
    | cons c cs ih => exact fun s => .bind (hone c) fun present => ih _
  refine .bind (fun _ => .nil) fun r => ?_
  cases hphase : r.phase with
  | ready s => exact .bind (.mark rfl rfl fun _ => rfl) fun _ => .ret s
  | probing => exact fun _ => .nil
  | idle =>
      refine .bind (fun _ => .nil) fun _ => .bind (hall _ _) fun s => ?_
      refine .bind (fun _ => .nil) fun now => .bind (fun _ => .nil) fun _ => ?_
      exact .bind (.mark rfl rfl fun _ => rfl) fun _ => .ret s

theorem startThreads {body : Nat → Action scope.State α}
    (hbody : ∀ t, HandlesFaults clients depth n n (body t)) (count : Nat) :
    HandlesFaults clients depth n n (Setting.startThreads body count) := by
  induction count with
  | zero => exact .ret []
  | succ count ih =>
      refine .bind (fun _ => .nil) fun w => .bind (fun _ => .nil) fun _ => ?_
      exact .bind (hbody _) fun first => .bind ih fun rest => .ret _

end HandlesFaults

/-- A way to run client code that conducts it and handles the faults raised in it, with `n` levels
of client code under way. -/
structure Runner.Faithful (clients : Clients) (depth n : Nat) (run : Runner scope.State) :
    Prop where
  sound : run.Sound
  conducts : ∀ (ρ : Role) (t : Nat) (program : Program ρ) (own : ρ.Local),
    Conducts (run ρ t program own) program own
  handles : ∀ (ρ : Role) (t : Nat) (program : Program ρ) (own : ρ.Local),
    HandlesFaults clients depth n n (run ρ t program own)

section Faults

variable (host : Capability → Bool) {inner : Option (Runner scope.State)} {depth n : Nat}
  (hinner : ∀ run ∈ inner, run.Faithful clients depth (n + 1)) {t : Nat} {f : Fault}
include hinner

theorem handles_handlerCode (k : HandlerId) (frame : Frame) :
    HandlesFaults clients depth (n + 1) (n + 1) (handlerCode clients inner t f k frame) := by
  match inner with
  | none => exact .ret _
  | some run => exact (hinner run rfl).handles .handler t _ frame

variable (hdeep : inner = none ↔ n = depth)
include hdeep

theorem conduct_handlerCode (k : HandlerId) (frame : Frame) (w : World scope.State) :
    (clients.handler k f).Conduct scope (n = depth) frame (Scope.objects w.state)
      (handlerCode clients inner t f k frame w).outcome
      (Scope.objects (handlerCode clients inner t f k frame w).world.state)
      (handlerCode clients inner t f k frame w).history.seen := by
  match inner with
  | none => exact Or.inr ⟨hdeep.mp rfl, rfl, rfl, rfl⟩
  | some run =>
      have hshallow : n ≠ depth := fun hlevel => absurd (hdeep.mpr hlevel) (Option.some_ne_none run)
      exact Or.inl ⟨hshallow, (hinner run rfl).conducts .handler t _ frame w⟩

section Dispatch

variable {c : Call} (hraises : c.raises? = some f) {registers : Registers}
  {w w' : World scope.State} (hdraws : c.Draws w.contexts registers) {h : History scope.State}
include hraises hdraws

theorem handles_settled {d : Disposition} {left : Registers}
    (hdispatch : (scope.setting clients host).dispatch inner t f registers w
      = ⟨.returned (d, left), w', h⟩) :
    Handles scope clients depth n n w.contexts
      ((Happening.returned c (.dispatched d left)).put w'.contexts) (.returned ())
      (⟨.called t c, Scope.objects w.state⟩ ::
        (h.seen ++ [⟨.returned c (.dispatched d left), Scope.objects w'.state⟩])) := by
  rcases dispatch_cases clients host inner t f registers w with ⟨hslot, hunclaimed⟩ |
    ⟨k, hslot, ⟨status, frame, x, body, hreport, hhandled⟩ | ⟨stop, x, body, -, hstopped⟩⟩
  · cases hunclaimed.symm.trans hdispatch
    refine .raised hraises hdraws (.unclaimed hslot) ?_
    exact .append (.of_lacks (by simp)) (.record rfl rfl rfl)
  · cases hhandled.symm.trans hdispatch
    have hcode := conduct_handlerCode hinner (t := t) (f := f) hdeep k (Frame.enter registers) w
    have hnested := handles_handlerCode hinner (t := t) (f := f) k (Frame.enter registers) w
    rw [hreport] at hcode hnested
    simp only [seen_cons, seen_append, seen_nil, List.append_assoc, List.cons_append,
      List.nil_append]
    -- one level more is under way from the entry until the handler is left
    refine .raised hraises hdraws (.claimed hslot (.finished hcode)) (.cons rfl (.cons rfl ?_))
    exact hnested.append (.cons rfl (.cons rfl (.cons rfl (.record rfl rfl rfl))))
  · have houtcome := congrArg Report.outcome (hstopped.symm.trans hdispatch)
    exact absurd houtcome (stop.outcome_ne _)

theorem handles_cut {stop : Stop}
    (hdispatch : (scope.setting clients host).dispatch inner t f registers w
      = ⟨stop.outcome, w', h⟩) :
    Handles scope clients depth n n w.contexts w'.contexts stop.outcome
      (⟨.called t c, Scope.objects w.state⟩ :: h.seen) := by
  rcases dispatch_cases clients host inner t f registers w with ⟨hslot, hreturned⟩ |
    ⟨k, hslot, ⟨_, _, _, _, -, hreturned⟩ | ⟨stop', x, body, hreport, hstopped⟩⟩
  · have houtcome := congrArg Report.outcome (hreturned.symm.trans hdispatch)
    exact absurd houtcome.symm (stop.outcome_ne _)
  · have houtcome := congrArg Report.outcome (hreturned.symm.trans hdispatch)
    exact absurd houtcome.symm (stop.outcome_ne _)
  · have hcode := conduct_handlerCode hinner (t := t) (f := f) hdeep k (Frame.enter registers) w
    have hnested := handles_handlerCode hinner (t := t) (f := f) k (Frame.enter registers) w
    have hsame := hstopped.symm.trans hdispatch
    obtain rfl := Stop.outcome_injective (congrArg Report.outcome hsame)
    cases hsame
    rw [hreport, Stop.fate_outcome] at hnested
    rw [hreport] at hcode
    have hentered : Handles scope clients depth (n + 1) n w.contexts w'.contexts stop'.outcome
        body.seen := hnested.stuck (stop'.outcome_ne ())
    refine .raised hraises hdraws (.claimed hslot (.cut hcode)) ?_
    exact .cons rfl (.cons rfl hentered)

end Dispatch

theorem handles_dispatch (context : Nat) :
    HandlesFaults clients depth n n (Setting.making t (.operation (.dispatch f context))
      ((scope.setting clients host).perform inner t (.dispatch f context))) := by
  intro w
  obtain ⟨⟨d, left⟩, w', h, hreport⟩ | ⟨stop, w', h, hreport⟩ :=
    ((scope.setting clients host).dispatch inner t f
      (w.contexts.getD context default) w).returned_or_stopped
  · rw [Setting.perform,
      making_of_returned (dispatchOn_of_returned clients host inner t f hreport)]
    simp only [seen_cons, seen_append, seen_nil]
    exact handles_settled host hinner hdeep (c := .operation (.dispatch f context)) rfl rfl hreport
  · rw [Setting.perform, making_of_stopped (dispatchOn_of_stopped clients host inner t f hreport),
      Stop.fate_outcome]
    exact handles_cut host hinner hdeep (c := .operation (.dispatch f context)) rfl rfl hreport

theorem handles_forward (frame : Frame) :
    HandlesFaults clients depth n n ((scope.setting clients host).forwardOwn inner t f frame) := by
  intro w
  obtain ⟨⟨d, left⟩, w', h, hreport⟩ | ⟨stop, w', h, hreport⟩ :=
    ((scope.setting clients host).dispatch inner t f frame.registers w).returned_or_stopped
  · rw [forwardOwn_of_returned clients host inner t f hreport]
    simp only [seen_cons, seen_append, seen_nil]
    exact handles_settled host hinner hdeep (c := .forward f) rfl trivial hreport
  · rw [forwardOwn_of_stopped clients host inner t f hreport, Stop.fate_outcome]
    exact handles_cut host hinner hdeep (c := .forward f) rfl trivial hreport

end Faults

/-! ### Programs and runs -/

section Programs

variable (host : Capability → Bool) {inner : Option (Runner scope.State)} {depth n : Nat}
  (hinner : ∀ run ∈ inner, run.Faithful clients depth (n + 1))
include hinner

theorem handles_askClient (t : Nat) (ask : Capability → Program .probe)
    (skipped : Capability → Answer) (c : Capability) :
    HandlesFaults clients depth (n + 1) (n + 1) (Setting.askClient inner t ask skipped c) := by
  refine .bind (.mark rfl rfl fun _ => rfl) fun _ => ?_
  match inner with
  | none => exact .ret _
  | some run => exact .bind ((hinner run rfl).handles .probe t (ask c) ()) fun r => .ret r.1

theorem handles_plain (t : Nat) {op : Operation} (hinit : (Call.operation op).isInit = false)
    (hclient : (Call.operation op).entersClient = false) (hputs : op.puts = false) :
    HandlesFaults clients depth n n (Setting.making t (.operation op)
      ((scope.setting clients host).perform inner t op)) := by
  have hleaves : LeavesContexts (Setting.making t (.operation op)
      ((scope.setting clients host).perform inner t op)) := by
    have hperform := LeavesContexts.perform clients host inner t hinit hclient hputs
    exact .bind (fun _ => rfl) fun _ => .bind hperform fun r => .bind (fun _ => rfl) fun _ => .ret r
  refine .quiet hleaves fun w => ?_
  have hsound : ∀ run ∈ inner, run.Sound := fun run hrun => (hinner run hrun).sound
  have htraced := traced_operation clients host hsound t none op w
  rcases htraced.of_plain hinit hclient with ⟨r, notices, hprompt, -, hhistory⟩ |
    ⟨halt, hfatal, -, -, hhistory⟩
  · have hlogging : ∀ o, Lacks Happening.touches (logging notices o) := lacks_logging (by simp)
    rw [hhistory]
    simp [hclient, hlogging, hputs]
  · rw [hhistory]
    simp [hclient]

variable (hdeep : inner = none ↔ n = depth)
include hdeep

theorem conduct_callbackCode (t : Nat) (k : CallbackId) (w : World scope.State) :
    clients.RunsCallback scope (n = depth) k (Scope.objects w.state)
      (callbackCode clients inner t k w).outcome.fate
      (Scope.objects (callbackCode clients inner t k w).world.state)
      (callbackCode clients inner t k w).history.seen := by
  match inner with
  | none => exact Or.inr ⟨hdeep.mp rfl, rfl, rfl, rfl⟩
  | some run =>
      have hshallow : n ≠ depth := fun hlevel => absurd (hdeep.mpr hlevel) (Option.some_ne_none run)
      have hconduct := (hinner run rfl).conducts .callback t (clients.callback k) () w
      obtain ⟨v, w', h, hreport⟩ | ⟨stop, w', h, hreport⟩ :=
        (run .callback t (clients.callback k) () w).returned_or_stopped
      · have hcode : callbackCode clients (some run) t k w = ⟨.returned (), w', h⟩ :=
          Action.bind_pure_of_returned hreport fun _ => ()
        rw [hreport] at hconduct
        rw [hcode]
        exact Or.inl ⟨hshallow, _, hconduct, rfl⟩
      · have hcode : callbackCode clients (some run) t k w = ⟨stop.outcome, w', h⟩ :=
          Action.bind_of_stopped hreport fun _ => pure ()
        rw [hreport] at hconduct
        rw [hcode, Stop.fate_outcome]
        exact Or.inl ⟨hshallow, _, hconduct, stop.fate_outcome⟩

theorem handles_notify (t : Nat) :
    HandlesFaults clients depth n n (Setting.making t (.operation .notify)
      ((scope.setting clients host).perform inner t .notify)) := by
  have hnested : ∀ k,
      HandlesFaults clients depth (n + 1) (n + 1) (callbackCode clients inner t k) := by
    intro k
    match inner with
    | none => exact .ret ()
    | some run =>
        exact .bind ((hinner run rfl).handles .callback t (clients.callback k) ()) fun _ => .ret ()
  intro w
  rcases notify_cases clients host inner t w with ⟨hslot, hperform⟩ |
    ⟨k, hslot, ⟨w', h, hreport, hperform⟩ | ⟨stop, w', h, hreport, hperform⟩⟩
  · rw [making_of_returned hperform]
    exact .notifying (.unheard hslot) (.record rfl rfl rfl)
  · have hcode := conduct_callbackCode hinner hdeep t k w
    have hbody := hnested k w
    rw [hreport] at hcode hbody
    rw [making_of_returned hperform]
    simp only [seen_cons, seen_append, seen_nil, List.append_assoc, List.cons_append,
      List.nil_append]
    refine .notifying (.finished hslot hcode) (.cons rfl (.cons rfl ?_))
    exact hbody.append (.cons rfl (.record rfl rfl rfl))
  · have hcode := conduct_callbackCode hinner hdeep t k w
    have hbody := hnested k w
    rw [hreport, Stop.fate_outcome] at hcode hbody
    rw [making_of_stopped hperform, Stop.fate_outcome]
    refine .notifying (.cut hslot hcode) (.cons rfl (.cons rfl ?_))
    exact hbody.stuck (stop.outcome_ne ())

theorem handles_operation (t : Nat) (op : Operation) :
    HandlesFaults clients depth n n (Setting.making t (.operation op)
      ((scope.setting clients host).perform inner t op)) := by
  cases op with
  | initFromHost =>
      rw [Setting.perform, Scope.setting, Scope.interface_init]
      exact .making rfl (fun _ _ => rfl) (.bind (.init fun c => .ret _) fun s => .ret _)
  | dispatch f context => exact handles_dispatch host hinner hdeep context
  | notify => exact handles_notify host hinner hdeep t
  | newContext i ip sp => exact .putting rfl fun _ => rfl
  | writeContext i s v => exact .putting rfl fun _ => rfl
  | _ => exact handles_plain host hinner t rfl rfl rfl

theorem handles_exec {ρ : Role} (program : Program ρ) (t : Nat) (own : ρ.Local) :
    HandlesFaults clients depth n n ((scope.setting clients host).exec inner t program own) := by
  induction program generalizing t with
  | ret v => exact .ret (v, own)
  | call op next ih => exact .bind (handles_operation host hinner hdeep t op) fun r => ih r t own
  | init ask skipped next _ ih =>
      have hinit : HandlesFaults clients depth n n (scope.interface.init
          (Setting.askClient inner t ask skipped)) := by
        rw [Scope.interface_init]
        exact .init (handles_askClient hinner t ask skipped)
      refine .bind (.making rfl (fun _ _ => rfl) (.bind hinit fun s => .ret _)) fun r => ?_
      exact ih r t own
  | spawn count body next ihbody ih =>
      have hbody : ∀ t, HandlesFaults clients depth n n
          ((scope.setting clients host).exec inner t body () >>= fun r => pure r.1) :=
        fun t => .bind (ihbody t ()) fun r => .ret r.1
      exact .bind (.startThreads hbody count) fun results => ih _ t own
  | note r next ih => exact .bind (.mark rfl rfl fun _ => rfl) fun _ => ih t own
  | load place next ih => exact ih _ t own
  | store place v next ih => exact .bind (.mark rfl rfl fun _ => rfl) fun _ => ih t _
  | forward fault next ih =>
      exact .bind (handles_forward host hinner hdeep own) fun r => ih r.1 t r.2

end Programs

theorem faithful_runAt (scope : Scope) (clients : Clients) (host : Capability → Bool)
    {depth n below : Nat} (hdepth : n + below = depth) :
    ((scope.setting clients host).runAt below).Faithful clients depth n := by
  have hexec : ∀ {inner : Option (Runner scope.State)} {n : Nat},
      (∀ run ∈ inner, run.Faithful clients depth (n + 1)) → (inner = none ↔ n = depth) →
      Runner.Faithful clients depth n fun _ t program own =>
        (scope.setting clients host).exec inner t program own := by
    intro inner n hinner hdeep
    have hsound : ∀ run ∈ inner, run.Sound := fun run hrun => (hinner run hrun).sound
    constructor
    · exact fun ρ t program own => follows_exec clients host hsound program t own
    · exact fun ρ t program own => conducts_exec clients host hsound program t own
    · exact fun ρ t program own => handles_exec host hinner hdeep program t own
  -- a level further in there is one level more under way and one less to go
  induction below generalizing n with
  | zero => exact hexec (by simp) (iff_of_true rfl hdepth)
  | succ below ih =>
      refine hexec ?_ (iff_of_false (Option.some_ne_none _) (by omega))
      rintro run ⟨⟩
      exact ih (by omega)

/-- **Every fault that is raised in a run is handled where it is raised**, and so is every
notification. -/
theorem Run.handles (run : Run) : Handles run.scope run.clients run.depth 0 0 run.contexts
    run.report.world.contexts run.outcome run.history :=
  (faithful_runAt run.scope run.clients run.host (Nat.zero_add run.depth)).handles .thread
    run.thread run.program () ⟨run.scope.initial, run.contexts, run.threads⟩

/-! ### Entries -/

@[simp] def Happening.entersHandler : Happening → Bool
  | event (.handlerEntered _ _ _) => true
  | _ => false

theorem Happening.not_entersHandler_of_quiet {what : Happening} (hquiet : what.ofFault = false) :
    what.entersHandler = false := by
  match what with
  | event (.handlerEntered _ _ _) => exact absurd hquiet.symm Bool.false_ne_true
  | event (.logged _) | event (.probeAsked _) | event (.callbackEntered _ _) | event (.noted _)
  | called _ _ | returned _ _ | asked _ | answered _ _ | faultRaised _ _ | faultSettled _ _ _
  | stored _ _ | handlerLeft _ _ _ _ | callbackLeft _ => rfl

/-- Every entry on record stands right behind the call that led to it. -/
def EntersOnCall (h : History Objects) : Prop :=
  ∀ (k : HandlerId) (f : Fault) (frame : Frame) (o : Objects) (after : History Objects),
    ⟨.event (.handlerEntered k f frame), o⟩ :: after <:+ h → ∃ t c registers,
      c.raises? = some f ∧ o.handlerSlot.handler = some k ∧ frame = Frame.enter registers ∧
        ⟨.called t c, o⟩ :: (entering f registers k o ++ after) <:+ h

namespace EntersOnCall

variable {h h' : History Objects}

theorem of_lacks (hlacks : Lacks Happening.entersHandler h) : EntersOnCall h :=
  fun _ _ _ _ _ hsite => absurd hsite (hlacks.not_ending rfl)

theorem append (hfirst : EntersOnCall h) (hrest : EntersOnCall h') : EntersOnCall (h ++ h') := by
  intro k f frame o after hsite
  rcases ending_append hsite with hlater | ⟨rest, hearlier, rfl⟩
  · obtain ⟨t, c, registers, hraises, hslot, hframe, hcall⟩ := hrest k f frame o after hlater
    exact ⟨t, c, registers, hraises, hslot, hframe, hcall.trans (List.suffix_append h h')⟩
  · obtain ⟨t, c, registers, hraises, hslot, hframe, front, rfl⟩ := hfirst k f frame o rest hearlier
    exact ⟨t, c, registers, hraises, hslot, hframe, front, by simp⟩

theorem entry {t : Nat} {c : Call} {f : Fault} {registers : Registers} {k : HandlerId}
    {o : Objects} (hraises : c.raises? = some f) (hslot : o.handlerSlot.handler = some k) :
    EntersOnCall (⟨.called t c, o⟩ :: entering f registers k o) := by
  intro k' f' frame o' after hsite
  have hentry := ending_of_append (h := [⟨.called t c, o⟩, ⟨.faultRaised f registers, o⟩])
    (p := Happening.entersHandler) (by simp) rfl hsite
  rcases List.suffix_cons_iff.mp hentry with hentry | hnone
  · cases hentry
    exact ⟨t, c, registers, hraises, hslot, rfl, List.suffix_rfl⟩
  · exact absurd (List.suffix_nil.mp hnone) (List.cons_ne_nil _ _)

end EntersOnCall

theorem Nesting.entersOnCall {frame left : Option Frame} {e : Outcome Unit} {h : History Objects}
    (hnesting : Nesting frame left e h) : EntersOnCall h := by
  induction hnesting with
  | quiet hquiet =>
      exact .of_lacks fun m hm => Happening.not_entersHandler_of_quiet (hquiet m hm)
  | stored => exact .of_lacks (by simp)
  | append _ _ ihfirst ihrest => exact ihfirst.append ihrest
  | stuck _ _ ih => exact ih
  | elsewhere _ ih => exact ih
  | unclaimed _ _ _ => exact .of_lacks (by simp [passedBy])
  | @handled t c f registers k status left r _ _ o o' e _ hraises hslot _ _ ih =>
      have hleaving : Lacks Happening.entersHandler
          (leaving k f status left o' ++ [⟨.returned c r, o'⟩]) := by simp [leaving]
      exact (EntersOnCall.entry hraises hslot).append (ih.append (.of_lacks (hleaving.closing e)))

/-- **Every entry into a handler is an activation** of its code, for the fault of one call. -/
theorem Run.activation (run : Run) {before after : History Objects} {k : HandlerId} {f : Fault}
    {frame : Frame} {o : Objects}
    (hsplit : run.history = before ++ ⟨.event (.handlerEntered k f frame), o⟩ :: after) :
    ∃ c registers, c.raises? = some f ∧ o.handlerSlot.handler = some k ∧
      frame = Frame.enter registers ∧
      Activation run.scope run.clients (underWay 0 before = run.depth) c f registers k o run.outcome
        after := by
  obtain ⟨t, c, registers, hraises, hslot, rfl, front, hcall⟩ :=
    run.passage.nests.entersOnCall k f frame o after ⟨before, hsplit.symm⟩
  obtain ⟨_, -, hhandling⟩ := run.handles.site front t c f o _ hraises hcall.symm
  have hbefore : before = front ++ [⟨.called t c, o⟩, ⟨.faultRaised f registers, o⟩] := by
    apply List.append_cancel_right (hsplit.symm.trans (hcall.symm.trans _))
    rw [List.append_assoc]
    rfl
  rw [hbefore, underWay_append]
  exact ⟨c, registers, hraises, hslot, rfl, hhandling.of_entered.2⟩

end PlatformLayer
