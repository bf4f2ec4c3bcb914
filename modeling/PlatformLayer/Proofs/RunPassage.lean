import PlatformLayer.Proofs.ClientCalls

/-!
# Every run is a passage

Client code reaches the layer through the interface only. Its own steps are calls, notes, loads and
stores, and each of them is a passage, so code of any shape makes one; and since the code that the
layer calls is client code too, one level further in, so does every run.
-/

namespace PlatformLayer

open History

variable {scope : Scope} {α : Type}

section Programs

variable (clients : Clients) (host : Capability → Bool) {inner : Option (Runner scope.State)}
  (hinner : ∀ run ∈ inner, run.Sound)
include hinner

theorem traced_operation (t : Nat) (frame : Option Frame) (op : Operation)
    (w : World scope.State) : op.Traced clients host inner t frame w := by
  cases op with
  | initFromHost => exact traces_init (c := .operation .initFromHost) rfl (asks_host host) t frame w
  | has c => exact traced_has clients host inner t frame w c
  | hasBits bits => exact traced_hasBits clients host inner t frame w bits
  | isReady => exact traced_isReady clients host inner t frame w
  | snapshot => exact traced_snapshot clients host inner t frame w
  | register k => exact traced_register clients host inner t frame w k
  | getHandler => exact traced_getHandler clients host inner t frame w
  | isRegistered => exact traced_isRegistered clients host inner t frame w
  | dispatch fault context =>
      exact traced_dispatch clients host inner t fault hinner context frame w
  | setExit k => exact traced_setExit clients host inner t frame w k
  | clearExit => exact traced_clearExit clients host inner t frame w
  | getExit => exact traced_getExit clients host inner t frame w
  | notify => exact traced_notify clients host inner t hinner frame w
  | newContext context ip sp => exact traced_newContext clients host inner t frame w context ip sp
  | writeContext context slot v =>
      exact traced_writeContext clients host inner t frame w context slot v
  | replace component => exact traced_replace clients host inner t frame w component

end Programs

/-- Threads have no part in the frame of the code that starts them. -/
theorem Follows.elsewhere {x : Action scope.State α} (hx : Follows x none fun _ => none)
    (frame : Option Frame) : Follows x frame fun _ => frame := by
  intro w
  have hleaving : (x w).outcome.leaving frame (fun _ => frame) = frame := by
    cases (x w).outcome <;> rfl
  rw [hleaving]
  exact .elsewhere (hx.passage w)

/-- A call passes a frame by. -/
theorem Follows.of_call {t : Nat} {c : Call} {x : Action scope.State Reply}
    {frame : Option Frame}
    (hx : ∀ w, (x w).Traces (.call t c frame frame) (Scope.objects w.state)) :
    Follows x frame fun _ => frame := by
  intro w
  have hleaving : (x w).outcome.leaving frame (fun _ => frame) = frame := by
    cases (x w).outcome <;> rfl
  rw [hleaving]
  exact .made (hx w)

theorem follows_startThreads {body : Nat → Action scope.State α}
    (hbody : ∀ t, Follows (body t) none fun _ => none) (n : Nat) :
    Follows (Setting.startThreads body n) none fun _ => none := by
  induction n with
  | zero => exact Follows.ret (fun _ => none) []
  | succ n ih =>
      rw [Setting.startThreads]
      refine Follows.bind Follows.get fun w => ?_
      refine Follows.bind (Follows.modify fun _ => rfl) fun _ => ?_
      refine Follows.bind (hbody _) fun first => ?_
      refine Follows.bind ih fun rest => ?_
      exact Follows.ret (fun _ => none) _

theorem follows_exec (clients : Clients) (host : Capability → Bool)
    {inner : Option (Runner scope.State)} (hinner : ∀ run ∈ inner, run.Sound) {ρ : Role}
    (program : Program ρ) (t : Nat) (own : ρ.Local) :
    Follows ((scope.setting clients host).exec inner t program own) (Role.frame? own)
      fun r => Role.frame? r.2 := by
  induction program generalizing t with
  | ret v => exact Follows.ret (fun r => Role.frame? r.2) (v, own)
  | call op next ih =>
      rw [Setting.exec]
      refine Follows.bind (Follows.of_call fun w =>
        traced_operation clients host hinner t (Role.frame? own) op w) fun r => ?_
      exact ih r t own
  | init ask skipped next _ ih =>
      rw [Setting.exec]
      refine Follows.bind (Follows.of_call fun w => traces_init (c := .init) rfl
        (asks_client hinner t ask skipped) t (Role.frame? own) w) fun r => ?_
      exact ih r t own
  | spawn n body next ihbody ih =>
      rw [Setting.exec]
      have hthreads : Follows (Setting.startThreads (fun t =>
          (scope.setting clients host).exec inner t body () >>= fun r => pure r.1) n)
          none fun _ => none :=
        follows_startThreads (fun t =>
          Follows.bind (ihbody t ()) fun r => Follows.ret (fun _ => none) r.1) n
      refine Follows.bind (hthreads.elsewhere (Role.frame? own)) fun results => ?_
      exact ih (.threads results) t own
  | note r next ih =>
      rw [Setting.exec]
      have hnoted : Follows (Action.emit (.noted r) : Action scope.State Unit)
          (Role.frame? own) fun _ => Role.frame? own := fun _ => .noted
      exact Follows.bind hnoted fun _ => ih t own
  | load place next ih =>
      rw [Setting.exec]
      exact ih (Frame.load own place) t own
  | store place v next ih =>
      rw [Setting.exec]
      have hstored : Follows (Action.mark (.stored place v) : Action scope.State Unit)
          (some own) fun _ => some (Frame.store own place v) := fun _ => .stored
      exact Follows.bind hstored fun _ => ih t (Frame.store own place v)
  | forward fault next ih =>
      rw [Setting.exec]
      refine Follows.bind (follows_forwardOwn clients host inner t fault hinner own) fun r => ?_
      exact ih r.1 t r.2

theorem sound_runAt (scope : Scope) (clients : Clients) (host : Capability → Bool) (depth : Nat) :
    ((scope.setting clients host).runAt depth).Sound := by
  induction depth with
  | zero =>
      intro ρ t program own
      exact follows_exec clients host (by simp) program t own
  | succ depth ih =>
      intro ρ t program own
      refine follows_exec clients host ?_ program t own
      rintro run ⟨⟩
      exact ih

/-- **Every run is a passage of client code**, from new objects to the objects it leaves. -/
theorem Run.passage (run : Run) :
    Passage run.scope (.code none none) Objects.new run.outcome run.final run.history := by
  have hrun := sound_runAt run.scope run.clients run.host run.depth .thread run.thread
    run.program ()
  have hstart := Follows.passage hrun ⟨run.scope.initial, run.contexts, run.threads⟩
  rw [Report.Traces, Scope.objects_initial] at hstart
  exact hstart

end PlatformLayer
