import PlatformLayer.Proofs.Comparison
import PlatformLayer.Proofs.ClientCalls

/-!
# Comparing calls

The same call, made by the same client on two layers, matches itself as soon as the object that it
works on corresponds and the client code that it runs matches itself. Nothing is asked of the other
two objects.
-/

namespace PlatformLayer

/-- The object that an operation works on. The numbered contexts go with the handler slot. To put a
new object in the place of another is no call on either. -/
def Operation.concerns? : Operation → Option Component
  | initFromHost | has _ | hasBits _ | isReady | snapshot => some .registry
  | register _ | getHandler | isRegistered | dispatch _ _ => some .handlerSlot
  | newContext _ _ _ | writeContext _ _ _ => some .handlerSlot
  | setExit _ | clearExit | getExit | notify => some .exitSlot
  | replace _ => none

namespace Comparison

variable {σ τ : Type} (K : Comparison σ τ)

/-- A piece of client code matches itself, run further in. -/
def RunsAlike (inner : Option (Runner σ)) (inner' : Option (Runner τ)) (t t' : Nat) {ρ : Role}
    (program : Program ρ) : Prop :=
  Option.Rel (fun run run' => ∀ own, K.Matches (run ρ t program own) (run' ρ t' program own))
    inner inner'

/-- Worlds that correspond have the same contexts, and still do once these are overwritten. -/
structure SharesContexts : Prop where
  same : ∀ {w w'}, K.worlds w w' → w.contexts = w'.contexts
  overwritten : ∀ {w w'}, K.worlds w w' → ∀ contexts,
    K.worlds { w with contexts := contexts } { w' with contexts := contexts }

end Comparison

open Comparison (Matches)

namespace Setting

section ClientCode

variable {scope scope' : Scope} {K : Comparison scope.State scope'.State} {clients : Clients}
  {host : Capability → Bool} {inner : Option (Runner scope.State)}
  {inner' : Option (Runner scope'.State)} {t t' : Nat}

theorem matches_askClient {ask : Capability → Program .probe} {c : Capability}
    (hprobe : K.RunsAlike inner inner' t t' (ask c)) (skipped : Capability → Answer) :
    K.Matches (askClient inner t ask skipped c) (askClient inner' t' ask skipped c) := by
  apply Matches.bind (.mark (.same rfl))
  intro _
  cases hprobe with
  | none => exact .ret (skipped c)
  | some hrun => exact .bind (hrun ()) fun left => .ret left.1

theorem matches_enterHandler {k : HandlerId} {fault : Fault}
    (hcode : K.RunsAlike inner inner' t t' (clients.handler k fault).program) (frame : Frame) :
    K.Matches ((scope.setting clients host).enterHandler inner t k fault frame)
      ((scope'.setting clients host).enterHandler inner' t' k fault frame) := by
  rw [enterHandler_eq, enterHandler_eq]
  apply Matches.bind (.mark (.same rfl))
  intro _
  apply Matches.bind
  · cases hcode with
    | none => exact .ret _
    | some hrun => exact hrun frame
  · intro left
    exact .bind (.mark (.same rfl)) fun _ => .ret left

theorem matches_runCallback (ht : K.threads t t') {k : CallbackId}
    (hcode : K.RunsAlike inner inner' t t' (clients.callback k)) :
    K.Matches ((scope.setting clients host).runCallback inner t k)
      ((scope'.setting clients host).runCallback inner' t' k) := by
  rw [runCallback_eq, runCallback_eq]
  apply Matches.bind (.mark (.callbackEntered ht k))
  intro _
  refine .bind ?_ fun _ => .mark (.same rfl)
  cases hcode with
  | none => exact .ret ()
  | some hrun => exact .bind (hrun ()) fun _ => .ret ()

end ClientCode

section Bookkeeping

variable {σ τ α : Type} {K : Comparison σ τ}

theorem matches_making {t t' : Nat} (ht : K.threads t t') (c : Call) {act : Action σ Reply}
    {act' : Action τ Reply} (hact : K.Matches act act') :
    K.Matches (making t c act) (making t' c act') := by
  apply Matches.bind (.mark (.called ht c))
  intro _
  apply Matches.bind hact
  intro r
  exact .bind (.mark (.same rfl)) fun _ => .ret r

theorem matches_putContext (hcontexts : K.SharesContexts) (context : Nat)
    (f : Registers → Registers) :
    K.Matches (putContext context f) (putContext context f) := by
  refine .bind (.modify fun w w' hw => ?_) fun _ => .ret _
  rw [hcontexts.same hw]
  exact hcontexts.overwritten hw _

/-- Each thread may find worlds that correspond in another way: its number comes from there. -/
theorem matches_startThreads {body : Nat → Action σ α} {body' : Nat → Action τ α}
    (hstarted : ∀ w w', K.worlds w w' →
      K.worlds { w with threads := w.threads + 1 } { w' with threads := w'.threads + 1 })
    (hbody : ∀ w w', K.worlds w w' → K.Matches (body (w.threads + 1)) (body' (w'.threads + 1)))
    (n : Nat) : K.Matches (startThreads body n) (startThreads body' n) := by
  induction n with
  | zero => exact .ret []
  | succ n ih =>
      refine .get_bind fun w w' hw => ?_
      apply Matches.bind (.modify hstarted)
      intro _
      apply Matches.bind (hbody w w' hw)
      intro first
      exact .bind ih fun rest => .ret (first :: rest)

end Bookkeeping

section Calls

variable {scope scope' : Scope} {K : Comparison scope.State scope'.State} {clients : Clients}
  {host : Capability → Bool} {inner : Option (Runner scope.State)}
  {inner' : Option (Runner scope'.State)} {t t' : Nat}

/-- The owner's calls are there on both sides or on neither. -/
theorem matches_asOwner (hscope : scope = scope') {use : OwnerInterface scope.State →
      Action scope.State Reply} {use' : OwnerInterface scope'.State → Action scope'.State Reply}
    (huse : ∀ owner ∈ scope.interface.owner, ∀ owner' ∈ scope'.interface.owner,
      K.Matches (use owner) (use' owner')) :
    K.Matches ((scope.setting clients host).asOwner use)
      ((scope'.setting clients host).asOwner use') := by
  subst hscope
  cases scope with
  | own => exact huse _ rfl _ rfl
  | shared => exact .ret _

/-- What a dispatch or a forwarded fault asks of the two layers. -/
def HandlesAlike (K : Comparison scope.State scope'.State) (clients : Clients)
    (inner : Option (Runner scope.State)) (inner' : Option (Runner scope'.State)) (t t' : Nat) :
    Prop :=
  ∀ k, K.Finds (scope.cell Objects.handlerCell) ⟨some k⟩ → ∀ fault,
    K.RunsAlike inner inner' t t' (clients.handler k fault).program

section HandlerCalls

variable (hreads : K.Reads (scope.cell Objects.handlerCell) (scope'.cell Objects.handlerCell))
  (hcode : HandlesAlike K clients inner inner' t t')
include hreads hcode

theorem matches_dispatch (fault : Fault) (registers : Registers) :
    K.Matches ((scope.setting clients host).dispatch inner t fault registers)
      ((scope'.setting clients host).dispatch inner' t' fault registers) := by
  rw [dispatch_eq, dispatch_eq]
  exact HandlerSlot.matches_dispatch hreads (fun k hk => matches_enterHandler (hcode k hk fault))
    registers

theorem matches_dispatchOn (hcontexts : K.SharesContexts) (fault : Fault) (context : Nat) :
    K.Matches ((scope.setting clients host).dispatchOn inner t fault context)
      ((scope'.setting clients host).dispatchOn inner' t' fault context) := by
  refine .get_bind fun w w' hw => ?_
  rw [hcontexts.same hw]
  apply Matches.bind (matches_dispatch hreads hcode fault _)
  intro settled
  refine .bind (.modify fun v v' hv => ?_) fun _ => .ret _
  rw [hcontexts.same hv]
  exact hcontexts.overwritten hv _

theorem matches_forwardOwn (ht : K.threads t t') (fault : Fault) (frame : Frame) :
    K.Matches ((scope.setting clients host).forwardOwn inner t fault frame)
      ((scope'.setting clients host).forwardOwn inner' t' fault frame) := by
  apply Matches.bind (.mark (.called ht _))
  intro _
  apply Matches.bind (matches_dispatch hreads hcode fault frame.registers)
  intro settled
  exact .bind (.mark (.same rfl)) fun _ => .ret _

end HandlerCalls

theorem matches_init (hreads : K.Reads (scope.cell Objects.registryCell)
      (scope'.cell Objects.registryCell))
    (hwrites : ∀ r, K.Writes (scope.cell Objects.registryCell) (scope'.cell Objects.registryCell) r)
    (hstops : K.stops .hung) {ask : Capability → Action scope.State Answer}
    {ask' : Capability → Action scope'.State Answer} (hask : ∀ c, K.Matches (ask c) (ask' c)) :
    K.Matches (do
        let s ← scope.interface.init ask
        pure (Reply.capabilities s))
      (do
        let s ← scope'.interface.init ask'
        pure (Reply.capabilities s)) := by
  rw [Scope.interface_init, Scope.interface_init]
  exact .bind (Registry.matches_init hreads hask hwrites hstops) fun s => .ret _

section Perform

variable {op : Operation} (hscope : op.ownerOnly → scope = scope')
include hscope

theorem matches_perform_registry (hop : op.concerns? = some .registry)
    (hreads : K.Reads (scope.cell Objects.registryCell) (scope'.cell Objects.registryCell))
    (hinit : op = .initFromHost → K.stops .hung ∧
      ∀ r, K.Writes (scope.cell Objects.registryCell) (scope'.cell Objects.registryCell) r)
    (hhalts : ∀ halt, K.stops (.halted halt)) :
    K.Matches ((scope.setting clients host).perform inner t op)
      ((scope'.setting clients host).perform inner' t' op) := by
  cases op <;> cases hop
  case initFromHost =>
      obtain ⟨hhangs, hwrites⟩ := hinit rfl
      exact matches_init hreads hwrites hhangs fun c => .ret _
  case has c =>
      have hhas := Registry.matches_has hreads hhalts c
      rw [← Scope.interface_has, ← Scope.interface_has] at hhas
      exact .bind hhas fun b => .ret _
  case hasBits bits =>
      refine matches_asOwner (hscope rfl) fun owner howner owner' howner' => ?_
      rw [Scope.owner_hasBits howner, Scope.owner_hasBits howner']
      exact .bind (Registry.matches_hasBits hreads hhalts bits) fun b => .ret _
  case isReady =>
      refine matches_asOwner (hscope rfl) fun owner howner owner' howner' => ?_
      rw [Scope.owner_isReady howner, Scope.owner_isReady howner']
      exact .bind (Registry.matches_isReady hreads) fun b => .ret _
  case snapshot =>
      have hsnapshot := Registry.matches_snapshot hreads
      rw [← Scope.interface_snapshot, ← Scope.interface_snapshot] at hsnapshot
      exact .bind hsnapshot fun s => .ret _

theorem matches_perform_handlerSlot (hop : op.concerns? = some .handlerSlot)
    (hreads : K.Reads (scope.cell Objects.handlerCell) (scope'.cell Objects.handlerCell))
    (hwrites : ∀ k, op = .register k →
      K.Writes (scope.cell Objects.handlerCell) (scope'.cell Objects.handlerCell) ⟨some k⟩)
    (hcode : HandlesAlike K clients inner inner' t t') (hcontexts : K.SharesContexts) :
    K.Matches ((scope.setting clients host).perform inner t op)
      ((scope'.setting clients host).perform inner' t' op) := by
  cases op <;> cases hop
  case register k =>
      have hregister := HandlerSlot.matches_register hreads (hwrites k rfl)
      rw [← Scope.interface_register, ← Scope.interface_register] at hregister
      exact .bind hregister fun r => .ret _
  case getHandler =>
      have hget := HandlerSlot.matches_getHandler hreads
      rw [← Scope.interface_getHandler, ← Scope.interface_getHandler] at hget
      exact .bind hget fun k => .ret _
  case isRegistered =>
      refine matches_asOwner (hscope rfl) fun owner howner owner' howner' => ?_
      rw [Scope.owner_isRegistered howner, Scope.owner_isRegistered howner']
      exact .bind (HandlerSlot.matches_isRegistered hreads) fun b => .ret _
  case dispatch fault context => exact matches_dispatchOn hreads hcode hcontexts fault context
  case newContext context ip sp => exact matches_putContext hcontexts context _
  case writeContext context slot v => exact matches_putContext hcontexts context _

theorem matches_perform_exitSlot (hop : op.concerns? = some .exitSlot)
    (hreads : K.Reads (scope.cell Objects.exitCell) (scope'.cell Objects.exitCell))
    (hwrites : ∀ k, op = .setExit k →
      K.Writes (scope.cell Objects.exitCell) (scope'.cell Objects.exitCell) ⟨some k⟩)
    (hclears : K.Writes (scope.cell Objects.exitCell) (scope'.cell Objects.exitCell) ⟨none⟩)
    (ht : K.threads t t') (hcode : ∀ k, K.Finds (scope.cell Objects.exitCell) ⟨some k⟩ →
      K.RunsAlike inner inner' t t' (clients.callback k)) :
    K.Matches ((scope.setting clients host).perform inner t op)
      ((scope'.setting clients host).perform inner' t' op) := by
  cases op <;> cases hop
  case setExit k =>
      have hset := ExitSlot.matches_setCallback hreads (hwrites k rfl)
      rw [← Scope.interface_setExit, ← Scope.interface_setExit] at hset
      exact .bind hset fun old => .ret _
  case clearExit =>
      refine matches_asOwner (hscope rfl) fun owner howner owner' howner' => ?_
      rw [Scope.owner_clearExit howner, Scope.owner_clearExit howner']
      exact .bind (ExitSlot.matches_clear hreads hclears) fun old => .ret _
  case getExit =>
      refine matches_asOwner (hscope rfl) fun owner howner owner' howner' => ?_
      rw [Scope.owner_getExit howner, Scope.owner_getExit howner']
      exact .bind (ExitSlot.matches_getCallback hreads) fun k => .ret _
  case notify =>
      have hnotify : K.Matches
          (scope.interface.notify ((scope.setting clients host).runCallback inner t))
          (scope'.interface.notify ((scope'.setting clients host).runCallback inner' t')) := by
        rw [Scope.interface_notify, Scope.interface_notify]
        exact ExitSlot.matches_notify hreads fun k hk => matches_runCallback ht (hcode k hk)
      exact .bind hnotify fun b => .ret _

end Perform

end Calls

end Setting

end PlatformLayer
