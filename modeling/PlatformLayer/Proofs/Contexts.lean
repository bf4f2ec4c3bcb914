import PlatformLayer.Proofs.Replies

/-!
# The numbered contexts

The contexts of a run lie outside the layer. Three calls write to them, each at its return, so what
they hold at any point can be read off the history up to there. Every other call leaves them alone.
-/

namespace PlatformLayer

/-- Calls that write to a numbered context. -/
def Operation.puts : Operation → Bool
  | dispatch _ _ => true
  | newContext _ _ _ => true
  | writeContext _ _ _ => true
  | _ => false

@[simp] def Happening.put (contexts : List Registers) : Happening → List Registers
  | returned (.operation (.dispatch _ i)) (.dispatched _ left) => contexts.set i left
  | returned (.operation (.newContext i ip sp)) _ =>
      contexts.modify i fun _ => Registers.resumeAt ip sp
  | returned (.operation (.writeContext i s v)) _ => contexts.modify i fun c => c.write s v.toNat
  | _ => contexts

namespace History

variable {σ : Type} (contexts : List Registers)

/-- What the contexts hold after a stretch of history. -/
def contextsAfter (h : History σ) : List Registers :=
  h.foldl (fun contexts m => m.what.put contexts) contexts

@[simp] theorem contextsAfter_nil : contextsAfter contexts ([] : History σ) = contexts := rfl

@[simp] theorem contextsAfter_cons (m : Moment σ) (h : History σ) :
    contextsAfter contexts (m :: h) = contextsAfter (m.what.put contexts) h := rfl

@[simp] theorem contextsAfter_append (h h' : History σ) :
    contextsAfter contexts (h ++ h') = contextsAfter (contextsAfter contexts h) h' :=
  List.foldl_append

end History

/-- However it is run, the action leaves the contexts as they are. -/
def LeavesContexts {σ α : Type} (x : Action σ α) : Prop := ∀ w, (x w).world.contexts = w.contexts

namespace LeavesContexts

variable {σ α β : Type}

theorem ret (a : α) : LeavesContexts (pure a : Action σ α) := fun _ => rfl

theorem log (n : Notice) : LeavesContexts (Action.log n : Action σ Unit) := fun _ => rfl

theorem halt (h : Halt) : LeavesContexts (Action.halt h : Action σ α) := fun _ => rfl

theorem read (cell : Cell σ α) : LeavesContexts cell.read := fun _ => rfl

theorem write (cell : Cell σ α) (a : α) : LeavesContexts (cell.write a) := fun _ => rfl

theorem bind {x : Action σ α} {f : α → Action σ β} (hx : LeavesContexts x)
    (hf : ∀ a, LeavesContexts (f a)) : LeavesContexts (x >>= f) := by
  intro w
  have hfirst := hx w
  obtain ⟨a, w', first, hreport⟩ | ⟨stop, w', first, hreport⟩ := (x w).returned_or_stopped
  · rw [hreport] at hfirst
    rw [Action.bind_of_returned hreport]
    exact (hf a w').trans hfirst
  · rw [hreport] at hfirst
    rw [Action.bind_of_stopped hreport]
    exact hfirst

theorem has (cell : Cell σ Registry) (c : Capability) : LeavesContexts (Registry.has cell c) := by
  refine .bind (.read cell) fun r => ?_
  cases r.published with
  | none => exact .halt _
  | some s => exact .ret _

theorem hasBits (cell : Cell σ Registry) (bits : UInt32) :
    LeavesContexts (Registry.hasBits cell bits) := by
  unfold Registry.hasBits
  cases Capability.ofBits? bits with
  | none => exact .halt _
  | some c => exact .has cell c

theorem register (cell : Cell σ HandlerSlot) (k : HandlerId) :
    LeavesContexts (HandlerSlot.register cell k) := by
  refine .bind (.read cell) fun slot => ?_
  cases slot.handler with
  | none => exact .bind (.write cell _) fun _ => .bind (.log _) fun _ => .ret _
  | some _ => exact .bind (.log _) fun _ => .ret _

theorem setCallback (cell : Cell σ ExitSlot) (k : CallbackId) :
    LeavesContexts (ExitSlot.setCallback cell k) := by
  refine .bind (.read cell) fun slot => .bind (.write cell _) fun _ => ?_
  cases slot.callback with
  | none => exact .ret _
  | some old => exact .bind (.log _) fun _ => .ret _

variable {scope : Scope} (clients : Clients) (host : Capability → Bool)

theorem asOwner {use : OwnerInterface scope.State → Action scope.State Reply}
    (huse : ∀ owner ∈ scope.interface.owner, LeavesContexts (use owner)) :
    LeavesContexts ((scope.setting clients host).asOwner use) := by
  unfold Setting.asOwner Scope.setting
  cases howner : scope.interface.owner with
  | none => exact .ret _
  | some owner => exact huse owner howner

theorem replace (inner : Option (Runner scope.State)) (t : Nat) (component : Component) :
    LeavesContexts ((scope.setting clients host).perform inner t (.replace component)) := by
  cases scope with
  | own => exact .bind (fun _ => rfl) fun _ => .ret _
  | shared => exact .ret _

/-- Calls that run no client code write to the contexts only where they are made for it. -/
theorem perform (inner : Option (Runner scope.State)) (t : Nat) {op : Operation}
    (hinit : (Call.operation op).isInit = false)
    (hclient : (Call.operation op).entersClient = false) (hputs : op.puts = false) :
    LeavesContexts ((scope.setting clients host).perform inner t op) := by
  -- the calls that enter client code, and the three that write a context, are ruled out
  cases op with
  | initFromHost => cases hinit
  | has c => exact .bind (scope.interface_has c ▸ .has _ c) fun b => .ret _
  | hasBits bits =>
      refine .asOwner clients host fun owner howner => .bind ?_ fun b => .ret _
      exact Scope.owner_hasBits howner bits ▸ .hasBits _ bits
  | isReady =>
      refine .asOwner clients host fun owner howner => .bind ?_ fun b => .ret _
      exact Scope.owner_isReady howner ▸ .bind (.read _) fun r => .ret _
  | snapshot =>
      refine .bind ?_ fun s => .ret _
      exact scope.interface_snapshot ▸ .bind (.read _) fun r => .ret _
  | register k => exact .bind (scope.interface_register k ▸ .register _ k) fun r => .ret _
  | getHandler =>
      refine .bind ?_ fun h => .ret _
      exact scope.interface_getHandler ▸ .bind (.read _) fun slot => .ret _
  | isRegistered =>
      refine .asOwner clients host fun owner howner => .bind ?_ fun b => .ret _
      exact Scope.owner_isRegistered howner ▸ .bind (.read _) fun slot => .ret _
  | dispatch f i => cases hputs
  | setExit k => exact .bind (scope.interface_setExit k ▸ .setCallback _ k) fun old => .ret _
  | clearExit =>
      refine .asOwner clients host fun owner howner => .bind ?_ fun old => .ret _
      exact Scope.owner_clearExit howner ▸ .bind (.read _) fun slot => .bind (.write _ _) fun _ =>
        .ret _
  | getExit =>
      refine .asOwner clients host fun owner howner => .bind ?_ fun old => .ret _
      exact Scope.owner_getExit howner ▸ .bind (.read _) fun slot => .ret _
  | notify => cases hclient
  | newContext i ip sp => cases hputs
  | writeContext i s v => cases hputs
  | replace component => exact .replace clients host inner t component

end LeavesContexts

end PlatformLayer
