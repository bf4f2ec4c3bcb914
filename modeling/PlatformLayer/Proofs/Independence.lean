import PlatformLayer.Proofs.Playing

/-!
# Components that do not interfere

A call works on one of the three objects, or on the numbered contexts, and the client code that it
sets off can reach the others only by calls of its own. If that code makes no calls, a step on one
component finds and leaves nothing but that component. So steps on the three components can be
interleaved at will: each gives what it gives when the steps on its own component are made alone.
-/

namespace PlatformLayer

open Comparison (Matches)

/-! ### Code that makes no calls -/

/-- Code that makes no call. It may note results, work on its frame if it has one, and start threads
that make no calls either. -/
def Program.Quiet : {ρ : Role} → Program ρ → Prop
  | _, .ret _ => True
  | _, .call _ _ => False
  | _, .init _ _ _ => False
  | _, .spawn _ body next => body.Quiet ∧ ∀ r, (next r).Quiet
  | _, .note _ next => next.Quiet
  | _, .load _ next => ∀ v, (next v).Quiet
  | _, .store _ _ next => next.Quiet
  | _, .forward _ _ => False

/-- Worlds still correspond when a thread is started in both. -/
def Comparison.IgnoresThreads {σ τ : Type} (K : Comparison σ τ) : Prop :=
  ∀ w w', K.worlds w w' →
    K.worlds { w with threads := w.threads + 1 } { w' with threads := w'.threads + 1 }

namespace Program.Quiet

variable {σ τ : Type} {K : Comparison σ τ} (hcount : K.IgnoresThreads) (S : Setting σ)
  (S' : Setting τ) {ρ : Role} {program : Program ρ}
include hcount

theorem matches_exec (hquiet : program.Quiet) (inner : Option (Runner σ))
    (inner' : Option (Runner τ)) (t t' : Nat) (own : ρ.Local) :
    K.Matches (S.exec inner t program own) (S'.exec inner' t' program own) := by
  induction program generalizing t t' with
  | ret v => exact .ret (v, own)
  | call op next _ => exact hquiet.elim
  | init ask skipped next _ _ => exact hquiet.elim
  | spawn n body next ihbody ih =>
      obtain ⟨hbody, hnext⟩ := hquiet
      refine .bind (Setting.matches_startThreads hcount ?_ n) fun results =>
        ih _ (hnext _) t t' own
      exact fun w w' _ => .bind (ihbody hbody _ _ ()) fun r => .ret r.1
  | note r next ih => exact .bind (.mark (.same rfl)) fun _ => ih hquiet t t' own
  | load place next ih => exact ih _ (hquiet _) t t' own
  | store place v next ih => exact .bind (.mark (.same rfl)) fun _ => ih hquiet t t' _
  | forward fault next _ => exact hquiet.elim

theorem runsAlike (hquiet : program.Quiet) (depth t t' : Nat) :
    K.RunsAlike (S.innerAt depth) (S'.innerAt depth) t t' program := by
  cases depth with
  | zero => exact .none
  | succ depth =>
      refine .some fun own => ?_
      rw [Setting.runAt_eq_exec, Setting.runAt_eq_exec]
      exact hquiet.matches_exec hcount S S' _ _ t t' own

end Program.Quiet

/-! ### Steps on one component -/

namespace Script

/-- A call made at the top level. -/
inductive Step where
  | operation (op : Operation)
  | init (ask : Capability → Program .probe) (skipped : Capability → Answer)

namespace Step

def move {ρ : Role} : Step → Move ρ
  | operation op => .call op
  | init ask skipped => .init ask skipped

def concerns? : Step → Option Component
  | operation op => op.concerns?
  | init _ _ => some .registry

/-- The client code that the step brings along makes no calls. -/
def Quiet (clients : Clients) : Step → Prop
  | operation (.register k) => ∀ fault, (clients.handler k fault).program.Quiet
  | operation (.setExit k) => (clients.callback k).Quiet
  | init ask _ => ∀ c, (ask c).Quiet
  | _ => True

end Step

end Script

section Components

variable {scope : Scope}

/-- Worlds that agree in one component. -/
def SameIn : Component → World scope.State → World scope.State → Prop
  | .registry, w, w' => (Scope.objects w.state).registry = (Scope.objects w'.state).registry
  | .handlerSlot, w, w' =>
    (Scope.objects w.state).handlerSlot = (Scope.objects w'.state).handlerSlot ∧
      w.contexts = w'.contexts
  | .exitSlot, w, w' => (Scope.objects w.state).exitSlot = (Scope.objects w'.state).exitSlot

namespace SameIn

variable {c : Component} {w w' w'' : World scope.State}

theorem refl (c : Component) (w : World scope.State) : SameIn c w w := by
  cases c with
  | registry => exact Eq.refl _
  | handlerSlot => exact ⟨rfl, rfl⟩
  | exitSlot => exact Eq.refl _

theorem symm (hsame : SameIn c w w') : SameIn c w' w := by
  cases c with
  | registry => exact Eq.symm hsame
  | handlerSlot => exact ⟨hsame.1.symm, hsame.2.symm⟩
  | exitSlot => exact Eq.symm hsame

theorem trans (hsame : SameIn c w w') (hsame' : SameIn c w' w'') : SameIn c w w'' := by
  cases c with
  | registry => exact Eq.trans hsame hsame'
  | handlerSlot => exact ⟨hsame.1.trans hsame'.1, hsame.2.trans hsame'.2⟩
  | exitSlot => exact Eq.trans hsame hsame'

theorem counted (hsame : SameIn c w w') (n n' : Nat) :
    SameIn c { w with threads := n } { w' with threads := n' } := by
  cases c <;> exact hsame

section Writes

variable {d : Component} (w : World scope.State)

theorem set_registry (hd : d ≠ .registry) (r : Registry) :
    SameIn d w { w with state := (scope.cell Objects.registryCell).set r w.state } := by
  cases d with
  | registry => exact absurd rfl hd
  | handlerSlot => simp [SameIn, Objects.registryCell]
  | exitSlot => simp [SameIn, Objects.registryCell]

theorem set_handlerSlot (hd : d ≠ .handlerSlot) (slot : HandlerSlot) :
    SameIn d w { w with state := (scope.cell Objects.handlerCell).set slot w.state } := by
  cases d with
  | registry => simp [SameIn, Objects.handlerCell]
  | handlerSlot => exact absurd rfl hd
  | exitSlot => simp [SameIn, Objects.handlerCell]

theorem set_exitSlot (hd : d ≠ .exitSlot) (slot : ExitSlot) :
    SameIn d w { w with state := (scope.cell Objects.exitCell).set slot w.state } := by
  cases d with
  | registry => simp [SameIn, Objects.exitCell]
  | handlerSlot => simp [SameIn, Objects.exitCell]
  | exitSlot => exact absurd rfl hd

theorem set_contexts (hd : d ≠ .handlerSlot) (contexts : List Registers) :
    SameIn d w { w with contexts := contexts } := by
  cases d with
  | registry => exact Eq.refl _
  | handlerSlot => exact absurd rfl hd
  | exitSlot => exact Eq.refl _

end Writes

end SameIn

/-- Whatever client code is installed in a component makes no calls. -/
def Tame (clients : Clients) : Component → World scope.State → Prop
  | .registry, _ => True
  | .handlerSlot, w => ∀ k, (Scope.objects w.state).handlerSlot.handler = some k →
      ∀ fault, (clients.handler k fault).program.Quiet
  | .exitSlot, w => ∀ k, (Scope.objects w.state).exitSlot.callback = some k →
      (clients.callback k).Quiet

theorem Tame.of_sameIn {clients : Clients} {c : Component} {w w' : World scope.State}
    (htame : Tame clients c w) (hsame : SameIn c w w') : Tame clients c w' := by
  cases c with
  | registry => trivial
  | handlerSlot =>
      intro k hk
      exact htame k ((congrArg HandlerSlot.handler hsame.1).trans hk)
  | exitSlot =>
      intro k hk
      exact htame k ((congrArg ExitSlot.callback hsame).trans hk)

/-- Worlds that agree in one component; in the others each is still as it was at the start. -/
structure Beside (clients : Clients) (c : Component) (start start' w w' : World scope.State) :
    Prop where
  same : SameIn c w w'
  tame : Tame clients c w
  frame : ∀ d, d ≠ c → SameIn d start w
  frame' : ∀ d, d ≠ c → SameIn d start' w'

/-- Compares steps on one component, whatever the other two are like. Only the registry halts. -/
def Comparison.beside (clients : Clients) (c : Component) (start start' : World scope.State) :
    Comparison scope.State scope.State where
  worlds := Beside clients c start start'
  states _ _ := True
  threads := Eq
  admits _ := True
  stops _ := c = .registry
  states_of_worlds _ := trivial

namespace Beside

variable {clients : Clients} {c : Component} {start start' : World scope.State}

theorem ignoresThreads : (Comparison.beside clients c start start').IgnoresThreads := by
  intro w w' hw
  refine ⟨hw.same.counted _ _, ?_, fun d hd => ?_, fun d hd => ?_⟩
  · cases c <;> exact hw.tame
  · exact (hw.frame d hd).counted start.threads _
  · exact (hw.frame' d hd).counted start'.threads _

section Registry

theorem reads_registry : (Comparison.beside clients .registry start start').Reads
    (scope.cell Objects.registryCell) (scope.cell Objects.registryCell) := by
  intro w w' hw
  rw [Scope.cell_get, Scope.cell_get]
  exact hw.same

theorem writes_registry (r : Registry) : (Comparison.beside clients .registry start start').Writes
    (scope.cell Objects.registryCell) (scope.cell Objects.registryCell) r := by
  intro w w' hw
  refine ⟨?_, trivial, fun d hd => ?_, fun d hd => ?_⟩
  · simp [SameIn, Objects.registryCell]
  · exact (hw.frame d hd).trans (.set_registry w hd r)
  · exact (hw.frame' d hd).trans (.set_registry w' hd r)

end Registry

section HandlerSlot

theorem reads_handlerSlot : (Comparison.beside clients .handlerSlot start start').Reads
    (scope.cell Objects.handlerCell) (scope.cell Objects.handlerCell) := by
  intro w w' hw
  rw [Scope.cell_get, Scope.cell_get]
  exact hw.same.1

theorem writes_handlerSlot {k : HandlerId}
    (hquiet : ∀ fault, (clients.handler k fault).program.Quiet) :
    (Comparison.beside clients .handlerSlot start start').Writes
      (scope.cell Objects.handlerCell) (scope.cell Objects.handlerCell) ⟨some k⟩ := by
  intro w w' hw
  refine ⟨⟨?_, hw.same.2⟩, ?_, fun d hd => ?_, fun d hd => ?_⟩
  · simp [Objects.handlerCell]
  · intro k' hk'
    rw [Scope.objects_cell_set] at hk'
    obtain rfl := Option.some.inj hk'
    exact hquiet
  · exact (hw.frame d hd).trans (.set_handlerSlot w hd _)
  · exact (hw.frame' d hd).trans (.set_handlerSlot w' hd _)

theorem sharesContexts :
    (Comparison.beside clients .handlerSlot start start').SharesContexts where
  same hw := hw.same.2
  overwritten {w w'} hw contexts :=
    ⟨⟨hw.same.1, rfl⟩, hw.tame, fun d hd => (hw.frame d hd).trans (.set_contexts w hd contexts),
      fun d hd => (hw.frame' d hd).trans (.set_contexts w' hd contexts)⟩

theorem quiet_of_finds_handler {k : HandlerId}
    (hfinds : (Comparison.beside clients .handlerSlot start start').Finds
      (scope.cell Objects.handlerCell) ⟨some k⟩) (fault : Fault) :
    (clients.handler k fault).program.Quiet := by
  obtain ⟨w, w', hw, hget⟩ := hfinds
  rw [Scope.cell_get] at hget
  exact hw.tame k (congrArg HandlerSlot.handler hget) fault

end HandlerSlot

section ExitSlot

theorem reads_exitSlot : (Comparison.beside clients .exitSlot start start').Reads
    (scope.cell Objects.exitCell) (scope.cell Objects.exitCell) := by
  intro w w' hw
  rw [Scope.cell_get, Scope.cell_get]
  exact hw.same

theorem writes_exitSlot {slot : ExitSlot}
    (hquiet : ∀ k, slot.callback = some k → (clients.callback k).Quiet) :
    (Comparison.beside clients .exitSlot start start').Writes
      (scope.cell Objects.exitCell) (scope.cell Objects.exitCell) slot := by
  intro w w' hw
  refine ⟨?_, ?_, fun d hd => ?_, fun d hd => ?_⟩
  · simp [SameIn, Objects.exitCell]
  · intro k hk
    rw [Scope.objects_cell_set] at hk
    exact hquiet k hk
  · exact (hw.frame d hd).trans (.set_exitSlot w hd slot)
  · exact (hw.frame' d hd).trans (.set_exitSlot w' hd slot)

theorem quiet_of_finds_callback {k : CallbackId}
    (hfinds : (Comparison.beside clients .exitSlot start start').Finds
      (scope.cell Objects.exitCell) ⟨some k⟩) : (clients.callback k).Quiet := by
  obtain ⟨w, w', hw, hget⟩ := hfinds
  rw [Scope.cell_get] at hget
  exact hw.tame k (congrArg ExitSlot.callback hget)

end ExitSlot

end Beside

/-- Compares code with itself, in worlds of one kind. -/
def Comparison.within (kept : World scope.State → Prop) (stops : Stop → Prop) :
    Comparison scope.State scope.State where
  worlds w w' := w = w' ∧ kept w
  states _ _ := True
  threads := Eq
  admits _ := True
  stops := stops
  states_of_worlds _ := trivial

end Components

namespace Script

variable {scope : Scope} {clients : Clients} {host : Capability → Bool} {depth : Nat}

namespace Step

def call : Step → Call
  | operation op => .operation op
  | init _ _ => .init

def perform (S : Setting scope.State) (inner : Option (Runner scope.State)) :
    Step → Action scope.State Reply
  | operation op => S.perform inner mainThread op
  | init ask skipped => do
    let s ← S.interface.init (Setting.askClient inner mainThread ask skipped)
    pure (.capabilities s)

theorem make_eq (S : Setting scope.State) (step : Step) :
    make S depth step.move
      = Setting.making mainThread step.call (step.perform S (S.innerAt depth)) >>= fun r =>
          pure ([r], ()) := by
  rw [make, Setting.runThread_eq_exec]
  cases step <;> rfl

variable {step : Step} {c : Component}

theorem matches_make {K : Comparison scope.State scope.State} (hthreads : K.threads = Eq)
    (hperform : K.Matches
      (step.perform (scope.setting clients host) ((scope.setting clients host).innerAt depth))
      (step.perform (scope.setting clients host) ((scope.setting clients host).innerAt depth))) :
    K.Matches (make (scope.setting clients host) depth step.move)
      (make (scope.setting clients host) depth step.move) := by
  rw [make_eq]
  refine .bind (Setting.matches_making ?_ step.call hperform) fun r => .ret _
  rw [hthreads]

/-- A step on one component does not depend on the others. -/
theorem matches_beside (hconcerns : step.concerns? = some c) (hquiet : step.Quiet clients)
    (start start' : World scope.State) :
    (Comparison.beside clients c start start').Matches
      (make (scope.setting clients host) depth step.move)
      (make (scope.setting clients host) depth step.move) := by
  apply matches_make rfl
  cases step with
  | init ask skipped =>
      cases hconcerns
      refine Setting.matches_init Beside.reads_registry Beside.writes_registry rfl fun c => ?_
      exact Setting.matches_askClient
        ((hquiet c).runsAlike Beside.ignoresThreads _ _ depth _ _) skipped
  | operation op =>
      cases c with
      | registry =>
          exact Setting.matches_perform_registry (fun _ => rfl) hconcerns Beside.reads_registry
            (fun _ => ⟨rfl, Beside.writes_registry⟩) fun _ => rfl
      | handlerSlot =>
          refine Setting.matches_perform_handlerSlot (fun _ => rfl) hconcerns
            Beside.reads_handlerSlot ?_ ?_ Beside.sharesContexts
          · rintro k rfl
            exact Beside.writes_handlerSlot hquiet
          · intro k hfinds fault
            exact (Beside.quiet_of_finds_handler hfinds fault).runsAlike Beside.ignoresThreads _ _
              depth _ _
      | exitSlot =>
          refine Setting.matches_perform_exitSlot (fun _ => rfl) hconcerns Beside.reads_exitSlot
            ?_ (Beside.writes_exitSlot nofun) rfl ?_
          · rintro k rfl
            exact Beside.writes_exitSlot fun k' hk' => Option.some.inj hk' ▸ hquiet
          · intro k hfinds
            exact (Beside.quiet_of_finds_callback hfinds).runsAlike Beside.ignoresThreads _ _
              depth _ _

/-! At the top level no start-up is under way: a step on the registry never waits. -/

section Settles

variable {w : World scope.State}
  (hphase : (Scope.objects w.state).registry.phase ≠ .probing)
include hphase

/-- A round of probing that leaves the registry alone comes to its end. -/
theorem init_settles {ask : Capability → Action scope.State Answer}
    (hask : ∀ r c, (Comparison.within (fun v => (Scope.objects v.state).registry = r)
      fun _ => False).Matches (ask c) (ask c)) :
    ∃ s v h, scope.interface.init ask w = ⟨.returned s, v, h⟩ ∧
      (Scope.objects v.state).registry.phase = .ready s := by
  have hget := congrArg Registry.phase (Scope.cell_get Objects.registryCell w.state)
  rw [Scope.interface_init]
  cases hfound : (Scope.objects w.state).registry.phase with
  | probing => exact absurd hfound hphase
  | ready s => exact ⟨s, w, _, Registry.init_of_ready (hget.trans hfound) ask, hfound⟩
  | idle =>
      -- the probes find the registry probing and leave it so, which lets the call publish
      let begun := Registry.begin (scope.cell Objects.registryCell) w
      have hasked := Registry.matches_askAll (hask _) Capability.all .empty begun begun ⟨rfl, rfl⟩
        fun _ _ => trivial
      obtain ⟨s, v, h, hreport⟩ | ⟨stop, v, h, hreport⟩ :=
        (Registry.askAll ask Capability.all .empty begun).returned_or_stopped
      · rw [hreport] at hasked
        rw [Registry.init_of_idle (hget.trans hfound), Action.bind_of_returned hreport,
          Registry.settle_apply]
        refine ⟨s, _, _, rfl, ?_⟩
        have hleft : (Scope.objects v.state).registry = (Scope.objects begun.state).registry :=
          hasked.worlds.2
        simp only [Scope.objects_cell_set, Scope.cell_get, Objects.registryCell, hleft]
        simp [begun, Registry.begin, Registry.publish, Objects.registryCell]
      · rw [hreport] at hasked
        cases stop <;> exact hasked.permitted.elim

theorem settles_of_init {ask : Capability → Action scope.State Answer}
    (hask : ∀ r c, (Comparison.within (fun v => (Scope.objects v.state).registry = r)
      fun _ => False).Matches (ask c) (ask c))
    (hperform : step.perform (scope.setting clients host)
        ((scope.setting clients host).innerAt depth)
      = scope.interface.init ask >>= fun s => pure (.capabilities s)) :
    let report := make (scope.setting clients host) depth step.move w
    report.outcome ≠ .hung ∧ (Scope.objects report.world.state).registry.phase ≠ .probing := by
  obtain ⟨s, v, h, hinit, hready⟩ := init_settles hphase hask
  rw [make_eq, hperform, Action.bind_pure_of_returned
    (making_of_returned (Action.bind_pure_of_returned hinit _))]
  refine ⟨nofun, ?_⟩
  rw [hready]
  exact nofun

theorem settles (hconcerns : step.concerns? = some .registry) (hquiet : step.Quiet clients) :
    let report := make (scope.setting clients host) depth step.move w
    report.outcome ≠ .hung ∧ (Scope.objects report.world.state).registry.phase ≠ .probing := by
  cases step with
  | init ask skipped =>
      refine settles_of_init hphase (fun r c => ?_) rfl
      refine Setting.matches_askClient ((hquiet c).runsAlike ?_ _ _ depth _ _) skipped
      rintro v _ ⟨rfl, hkept⟩
      exact ⟨rfl, hkept⟩
  | operation op =>
      by_cases hinit : op = .initFromHost
      · subst hinit
        exact settles_of_init hphase (fun r c => .ret _) rfl
      · -- a query leaves the world as it is
        have hreads : (Comparison.within (· = w) (· ≠ .hung)).Reads
            (scope.cell Objects.registryCell) (scope.cell Objects.registryCell) := by
          rintro v _ ⟨rfl, -⟩
          rfl
        have hquery : (Comparison.within (· = w) (· ≠ .hung)).Matches
            (make (scope.setting clients host) depth (Step.operation op).move)
            (make (scope.setting clients host) depth (Step.operation op).move) :=
          matches_make rfl (Setting.matches_perform_registry (fun _ => rfl) hconcerns hreads
            (absurd · hinit) fun _ => nofun)
        have hagree := hquery w w ⟨rfl, rfl⟩ fun _ _ => trivial
        refine ⟨fun hhung => ?_, ?_⟩
        · have hpermitted := hagree.permitted
          rw [hhung] at hpermitted
          exact hpermitted rfl
        · rw [hagree.worlds.2]
          exact hphase

end Settles

end Step

/-! ### Interleavings -/

/-- The steps of several sequences, one for each component, in some order that keeps the order of
each. -/
inductive Interleaves : (Component → List Step) → List Step → Prop where
  | done {sequences : Component → List Step} (hdone : ∀ c, sequences c = []) :
      Interleaves sequences []
  | next {sequences : Component → List Step} {c : Component} {step : Step} {rest steps : List Step}
      (hnext : sequences c = step :: rest)
      (hrest : Interleaves (Function.update sequences c rest) steps) :
      Interleaves sequences (step :: steps)

/-- What the steps on one component gave, among all that were made. -/
def resultsOf (c : Component) (steps : List Step) (played : List Played) : List Played :=
  ((steps.zip played).filter fun p => p.1.concerns? = some c).map (·.2)

def Played.halts : Played → Bool
  | halted _ _ => true
  | _ => false

def Played.replies : Played → Bool
  | replied _ _ => true
  | _ => false

/-- A world in which all steps were made, and for each component one in which only its own were. -/
structure InStep (clients : Clients) (w : World scope.State)
    (alone : Component → World scope.State) : Prop where
  same : ∀ c, SameIn c w (alone c)
  tame : ∀ c, Tame clients c w
  settled : (Scope.objects w.state).registry.phase ≠ .probing

/-- **One step**: it gives the same with and without the steps on other components. -/
theorem InStep.step {w : World scope.State} {alone : Component → World scope.State}
    (hinStep : InStep clients w alone) {c : Component} {step : Step}
    (hconcerns : step.concerns? = some c) (hquiet : step.Quiet clients) :
    let report := make (scope.setting clients host) depth step.move w
    let report' := make (scope.setting clients host) depth step.move (alone c)
    report.outcome = report'.outcome ∧ report.history.events = report'.history.events ∧
      (report.outcome ≠ .hung ∧ ∀ halt, report.outcome = .halted halt → c = .registry) ∧
      InStep clients report.world (Function.update alone c report'.world) := by
  intro report report'
  have hagree : (Comparison.beside clients c w (alone c)).Agree report report' :=
    Step.matches_beside hconcerns hquiet w (alone c) w (alone c)
      ⟨hinStep.same c, hinStep.tame c, fun d _ => .refl d w, fun d _ => .refl d _⟩
      fun _ _ => trivial
  obtain ⟨houtcome, hpermitted, hworlds, hmoments⟩ := hagree
  -- only the registry can stop a step, and between steps it is not probing
  have hsettles : c = .registry → report.outcome ≠ .hung ∧
      (Scope.objects report.world.state).registry.phase ≠ .probing := by
    rintro rfl
    exact Step.settles hinStep.settled hconcerns hquiet
  refine ⟨houtcome, Comparison.events_eq_of_moments _ (fun _ _ => id) hmoments, ⟨?_, ?_⟩,
    fun d => ?_, fun d => ?_, ?_⟩
  · intro hhung
    have hregistry : c = .registry := by
      rw [hhung] at hpermitted
      exact hpermitted
    exact (hsettles hregistry).1 hhung
  · intro halt hhalted
    rw [hhalted] at hpermitted
    exact hpermitted
  · by_cases hd : d = c
    · subst hd
      rw [Function.update_self]
      exact hworlds.same
    · rw [Function.update_of_ne hd]
      exact (hworlds.frame d hd).symm.trans (hinStep.same d)
  · by_cases hd : d = c
    · subst hd
      exact hworlds.tame
    · exact (hinStep.tame d).of_sameIn (hworlds.frame d hd)
  · by_cases hc : c = .registry
    · exact (hsettles hc).2
    · have hframe : (Scope.objects w.state).registry
          = (Scope.objects report.world.state).registry :=
        hworlds.frame .registry (Ne.symm hc)
      rw [← hframe]
      exact hinStep.settled

section Runs

variable {sequences : Component → List Step} {steps : List Step} {w : World scope.State}
  {alone : Component → World scope.State}

def moves (steps : List Step) : List (Move .thread) := steps.map Step.move

theorem resultsOf_cons (c : Component) (step : Step) (steps : List Step) (p : Played)
    (played : List Played) :
    resultsOf c (step :: steps) (p :: played)
      = if step.concerns? = some c then p :: resultsOf c steps played
        else resultsOf c steps played := by
  rw [resultsOf, List.zip_cons_cons, List.filter_cons]
  by_cases hconcerns : step.concerns? = some c
  · simp [resultsOf, hconcerns]
  · simp [resultsOf, hconcerns]

/-- Where the registry alone does not halt, a step that is due returns, together with the others or
alone. -/
theorem InStep.returns (hinStep : InStep clients w alone) {c : Component} {step : Step}
    {rest : List Step} (hconcerns : step.concerns? = some c) (hquiet : step.Quiet clients)
    (hnext : sequences c = step :: rest)
    (hhalts : ∀ p ∈ play (scope.setting clients host) depth (moves (sequences .registry))
      (alone .registry), p.halts = false) :
    ∃ r v v' h h', make (scope.setting clients host) depth step.move w = ⟨.returned r, v, h⟩ ∧
      make (scope.setting clients host) depth step.move (alone c) = ⟨.returned r, v', h'⟩ ∧
      h.events = h'.events ∧ InStep clients v (Function.update alone c v') := by
  obtain ⟨houtcome, hevents, ⟨hhung, hhalted⟩, hafter⟩ := hinStep.step hconcerns hquiet
  generalize hreport : make (scope.setting clients host) depth step.move w = report at *
  generalize hreport' : make (scope.setting clients host) depth step.move (alone c) = report' at *
  obtain ⟨outcome, v, h⟩ := report
  obtain ⟨_, v', h'⟩ := report'
  cases houtcome
  cases outcome with
  | returned r => exact ⟨r, v, v', h, h', rfl, rfl, hevents, hafter⟩
  | hung => exact absurd rfl hhung
  | halted halt =>
      obtain rfl := hhalted halt rfl
      have hfirst := hhalts (.halted halt h'.events) (by
        rw [hnext, play_eq_map_reports, moves, List.map_cons, reports, hreport']
        exact List.mem_cons_self)
      exact absurd hfirst.symm Bool.false_ne_true

/-! A step that is made leaves the rest of its own sequence, and the other sequences as they are. -/

section Alone

variable {c : Component} {step : Step} {rest : List Step} (hnext : sequences c = step :: rest)
include hnext

theorem mem_of_mem_rest {d : Component} {later : Step}
    (hlater : later ∈ Function.update sequences c rest d) : later ∈ sequences d := by
  by_cases hd : d = c
  · subst hd
    rw [Function.update_self] at hlater
    rw [hnext]
    exact List.mem_cons_of_mem _ hlater
  · rwa [Function.update_of_ne hd] at hlater

variable {r : List Reply × Unit} {v : World scope.State} {h : History scope.State}
  (hmake : make (scope.setting clients host) depth step.move (alone c) = ⟨.returned r, v, h⟩)
include hmake

theorem play_alone (hconcerns : step.concerns? = some c) (d : Component) :
    play (scope.setting clients host) depth (moves (sequences d)) (alone d)
      = (if step.concerns? = some d then [.replied (r.1.headD .done) h.events] else [])
        ++ play (scope.setting clients host) depth (moves (Function.update sequences c rest d))
          (Function.update alone c v d) := by
  by_cases hd : d = c
  · subst hd
    rw [hnext, Function.update_self, Function.update_self, if_pos hconcerns]
    exact play_cons_of_returned hmake (moves rest)
  · have hother : step.concerns? ≠ some d := by
      rw [hconcerns]
      exact fun heq => hd (Option.some.inj heq).symm
    rw [Function.update_of_ne hd, Function.update_of_ne hd, if_neg hother, List.nil_append]

theorem leaves_alone (d : Component) :
    leaves (scope.setting clients host) depth (moves (sequences d)) (alone d)
      = leaves (scope.setting clients host) depth (moves (Function.update sequences c rest d))
          (Function.update alone c v d) := by
  by_cases hd : d = c
  · subst hd
    rw [hnext, Function.update_self, Function.update_self]
    exact leaves_cons_of_returned hmake (moves rest)
  · rw [Function.update_of_ne hd, Function.update_of_ne hd]

end Alone

/-- **Every interleaving** gives each component what it gets alone. -/
theorem InStep.run (hinStep : InStep clients w alone) (hinterleaves : Interleaves sequences steps)
    (hconcerns : ∀ c, ∀ step ∈ sequences c, step.concerns? = some c)
    (hquiet : ∀ c, ∀ step ∈ sequences c, step.Quiet clients)
    (hhalts : ∀ p ∈ play (scope.setting clients host) depth (moves (sequences .registry))
      (alone .registry), p.halts = false) :
    (play (scope.setting clients host) depth (moves steps) w).length = steps.length ∧
      (∀ p ∈ play (scope.setting clients host) depth (moves steps) w, p.replies) ∧
      (∀ c, resultsOf c steps (play (scope.setting clients host) depth (moves steps) w)
        = play (scope.setting clients host) depth (moves (sequences c)) (alone c)) ∧
      ∀ c, SameIn c (leaves (scope.setting clients host) depth (moves steps) w)
        (leaves (scope.setting clients host) depth (moves (sequences c)) (alone c)) := by
  -- of the worlds in which one component is alone, only the one whose turn it is moves on
  induction hinterleaves generalizing w alone with
  | done hdone =>
      refine ⟨rfl, nofun, fun c => ?_, fun c => ?_⟩
      · rw [hdone c]
        rfl
      · rw [hdone c]
        exact hinStep.same c
  | @next sequences c step rest steps hnext _ ih =>
      have hmem : step ∈ sequences c := by simp [hnext]
      have hstep := hconcerns c step hmem
      obtain ⟨r, v, v', h, h', hmake, hmake', hevents, hafter⟩ :=
        hinStep.returns hstep (hquiet c step hmem) hnext hhalts
      obtain ⟨hlength, hreplies, hresults, hsame⟩ := ih hafter
        (fun d s hs => hconcerns d s (mem_of_mem_rest hnext hs))
        (fun d s hs => hquiet d s (mem_of_mem_rest hnext hs))
        (fun p hp => hhalts p (by
          rw [play_alone hnext hmake' hstep]
          exact List.mem_append_right _ hp))
      have hjoint : play (scope.setting clients host) depth (moves (step :: steps)) w
          = .replied (r.1.headD .done) h.events
            :: play (scope.setting clients host) depth (moves steps) v :=
        play_cons_of_returned hmake (moves steps)
      have hleft : leaves (scope.setting clients host) depth (moves (step :: steps)) w
          = leaves (scope.setting clients host) depth (moves steps) v :=
        leaves_cons_of_returned hmake (moves steps)
      refine ⟨?_, ?_, fun d => ?_, fun d => ?_⟩
      · rw [hjoint, List.length_cons, List.length_cons, hlength]
      · rw [hjoint]
        exact List.forall_mem_cons.mpr ⟨rfl, hreplies⟩
      · rw [hjoint, resultsOf_cons, hresults d, play_alone hnext hmake' hstep, hevents]
        by_cases hd : step.concerns? = some d
        · rw [if_pos hd, if_pos hd]
          rfl
        · rw [if_neg hd, if_neg hd, List.nil_append]
      · rw [hleft, leaves_alone hnext hmake']
        exact hsame d

end Runs

/-- **The components do not interfere.** Whatever the order in which steps on the registry, on the
handler slot with the contexts and on the exit slot are interleaved, if the client code they involve
makes no calls and the registry alone would not halt, then every step replies, with the reply and
the events that it gives when the steps on its own component are made alone; and each component is
left as it is left then, which does not depend on the order. -/
theorem Stage.components_do_not_interfere (stage : Stage) (scope : Scope)
    (sequences : Component → List Step)
    (hconcerns : ∀ c, ∀ step ∈ sequences c, step.concerns? = some c)
    (hquiet : ∀ c, ∀ step ∈ sequences c, step.Quiet stage.clients)
    (hhalts : ∀ p ∈ stage.play scope (moves (sequences .registry)), p.halts = false)
    (steps : List Step) (hinterleaves : Interleaves sequences steps) :
    ((stage.play scope (moves steps)).length = steps.length ∧
        ∀ p ∈ stage.play scope (moves steps), p.replies) ∧
      (∀ c, resultsOf c steps (stage.play scope (moves steps))
        = stage.play scope (moves (sequences c))) ∧
      (stage.leaves scope (moves steps)).state.registry
        = (stage.leaves scope (moves (sequences .registry))).state.registry ∧
      (stage.leaves scope (moves steps)).state.handlerSlot
        = (stage.leaves scope (moves (sequences .handlerSlot))).state.handlerSlot ∧
      (stage.leaves scope (moves steps)).contexts
        = (stage.leaves scope (moves (sequences .handlerSlot))).contexts ∧
      (stage.leaves scope (moves steps)).state.exitSlot
        = (stage.leaves scope (moves (sequences .exitSlot))).state.exitSlot := by
  have hnew : Scope.objects (stage.start scope).state = .new := Scope.objects_initial scope
  have hstart : InStep stage.clients (stage.start scope) fun _ => stage.start scope := by
    refine ⟨fun c => .refl c _, fun c => ?_, ?_⟩
    · cases c with
      | registry => trivial
      | handlerSlot =>
          intro k hk
          rw [hnew] at hk
          exact absurd hk nofun
      | exitSlot =>
          intro k hk
          rw [hnew] at hk
          exact absurd hk nofun
    · rw [hnew]
      exact nofun
  obtain ⟨hlength, hreplies, hresults, hsame⟩ := hstart.run hinterleaves hconcerns hquiet hhalts
  exact ⟨⟨hlength, hreplies⟩, hresults, hsame .registry, (hsame .handlerSlot).1,
    (hsame .handlerSlot).2, hsame .exitSlot⟩

/-- A handler that moves the interrupted code on, and a callback that starts a thread. -/
def Stage.undemanding : Stage where
  clients :=
    { handler := fun _ fault =>
        ⟨.store (.register Architecture.native.instruction) fault.address
          (.note .done (.ret .continueExecution)), .continueSearch⟩
      callback := fun _ => .spawn 1 (.ret []) fun r => .note r (.ret ()) }
  host := fun _ => true
  contexts := [.resumeAt 0x1000 0x2000]
  threads := 0
  depth := 1

def separateSteps : Component → List Step
  | .registry =>
    [.init (fun _ => .note .done (.ret (.ok true))) fun _ => .ok true,
      .operation (.has .writeWatch)]
  | .handlerSlot =>
    [.operation (.register 3), .operation (.newContext 0 1 2),
      .operation (.dispatch ⟨0xC0000005, 0x10⟩ 0)]
  | .exitSlot => [.operation (.setExit 5), .operation .notify]

def interleavedSteps : List Step :=
  [.operation (.setExit 5), .operation (.register 3),
    .init (fun _ => .note .done (.ret (.ok true))) fun _ => .ok true,
    .operation (.newContext 0 1 2), .operation .notify, .operation (.has .writeWatch),
    .operation (.dispatch ⟨0xC0000005, 0x10⟩ 0)]

theorem Stage.components_do_not_interfere_undemanding :
    Interleaves separateSteps interleavedSteps ∧
      (Stage.undemanding.play .shared (moves interleavedSteps)).length = 7 ∧
      resultsOf .handlerSlot interleavedSteps
          (Stage.undemanding.play .shared (moves interleavedSteps))
        = Stage.undemanding.play .shared (moves (separateSteps .handlerSlot)) ∧
      (Stage.undemanding.leaves .shared (moves interleavedSteps)).contexts
        = (Stage.undemanding.leaves .shared (moves (separateSteps .handlerSlot))).contexts := by
  have hinterleaves : Interleaves separateSteps interleavedSteps := by
    refine .next (c := .exitSlot) rfl (.next (c := .handlerSlot) rfl (.next (c := .registry) rfl
      (.next (c := .handlerSlot) rfl (.next (c := .exitSlot) rfl (.next (c := .registry) rfl
        (.next (c := .handlerSlot) rfl (.done fun c => ?_)))))))
    cases c <;> rfl
  have hconcerns : ∀ c, ∀ step ∈ separateSteps c, step.concerns? = some c := by
    intro c
    cases c <;> simp [separateSteps, Step.concerns?, Operation.concerns?]
  have hquiet : ∀ c, ∀ step ∈ separateSteps c, step.Quiet Stage.undemanding.clients := by
    intro c
    cases c <;> simp [separateSteps, Step.Quiet, Stage.undemanding, Program.Quiet]
  have hhalts : ∀ p ∈ Stage.undemanding.play .shared (moves (separateSteps .registry)),
      p.halts = false := by decide
  obtain ⟨⟨hlength, -⟩, hresults, -, -, hcontexts, -⟩ :=
    Stage.components_do_not_interfere Stage.undemanding .shared separateSteps hconcerns hquiet
      hhalts interleavedSteps hinterleaves
  exact ⟨hinterleaves, hlength, hresults .handlerSlot, hcontexts⟩

end Script

end PlatformLayer
