import PlatformLayer.Proofs.Passage

/-!
# Calls without client code

Making a call that runs no client code is a passage of that call: the state it is made in decides
between a prompt reply and a halt.
-/

namespace PlatformLayer

open History

namespace History

variable {scope : Scope}

@[simp] theorem seen_nil : seen ([] : History scope.State) = [] := rfl

@[simp] theorem seen_cons (m : Moment scope.State) (h : History scope.State) :
    seen (m :: h) = ⟨m.what, Scope.objects m.state⟩ :: seen h := rfl

@[simp] theorem seen_append (h h' : History scope.State) : seen (h ++ h') = seen h ++ seen h' :=
  List.map_append

theorem seen_logging (notices : List Notice) (x : scope.State) :
    seen (notices.map fun n => ⟨.event (.logged n), x⟩) = logging notices (Scope.objects x) := by
  simp only [seen, logging, List.map_map]
  rfl

end History

variable {scope : Scope} {α : Type}

/-- A report is a passage that starts from the given objects. -/
def Report.Traces (report : Report scope.State α) (part : Part) (start : Objects) : Prop :=
  Passage scope part start report.outcome.fate (Scope.objects report.world.state)
    report.history.seen

section Prompt

variable {t : Nat} {c : Call} {act : Action scope.State Reply} {w w' : World scope.State}
  {h : History scope.State}

theorem making_of_returned {r : Reply} (hact : act w = ⟨.returned r, w', h⟩) :
    Setting.making t c act w
      = ⟨.returned r, w', ⟨.called t c, w.state⟩ :: (h ++ [⟨.returned c r, w'.state⟩])⟩ := by
  rw [Setting.making, Action.mark_bind_apply, Action.bind_of_returned hact]
  rfl

theorem making_of_stopped {stop : Stop} (hact : act w = ⟨stop.outcome, w', h⟩) :
    Setting.making t c act w = ⟨stop.outcome, w', ⟨.called t c, w.state⟩ :: h⟩ := by
  rw [Setting.making, Action.mark_bind_apply, Action.bind_of_stopped hact]

theorem traces_prompt {r : Reply} {notices : List Notice} (frame : Option Frame)
    (hact : act w = ⟨.returned r, w', h⟩)
    (hlog : h.seen = logging notices (Scope.objects w'.state))
    (hprompt : Prompt scope (Scope.objects w.state) c r (Scope.objects w'.state) notices) :
    (Setting.making t c act w).Traces (.call t c frame frame) (Scope.objects w.state) := by
  rw [making_of_returned hact, Report.Traces]
  simp only [seen_cons, seen_append, hlog]
  exact .prompt hprompt

theorem traces_fatal {halt : Halt} (frame : Option Frame)
    (hact : act w = ⟨(Stop.halted halt).outcome, w,
      [⟨.event (.logged (.halting halt)), w.state⟩]⟩)
    (hfatal : Fatal scope (Scope.objects w.state) c halt) :
    (Setting.making t c act w).Traces (.call t c frame frame) (Scope.objects w.state) := by
  rw [making_of_stopped hact, Report.Traces]
  exact .fatal hfatal

end Prompt

section Perform

variable (clients : Clients) (host : Capability → Bool) (inner : Option (Runner scope.State))
  (t : Nat) (frame : Option Frame) (w : World scope.State)

/-- Making this operation, in this world, is a passage of the call. -/
def Operation.Traced (op : Operation) : Prop :=
  (Setting.making t (.operation op) ((scope.setting clients host).perform inner t op) w).Traces
    (.call t (.operation op) frame frame) (Scope.objects w.state)

theorem traced_of_absent {op : Operation} (hshared : scope = .shared) (howner : op.ownerOnly) :
    op.Traced clients host inner t frame w := by
  subst hshared
  have hperform : (Scope.shared.setting clients host).perform inner t op w
      = ⟨.returned .absent, w, []⟩ := by
    cases op with
    | hasBits _ | isReady | isRegistered | clearExit | getExit | replace _ => rfl
    | _ => exact Bool.noConfusion howner
  exact traces_prompt frame hperform rfl (.absent rfl howner)

theorem traced_has (c : Capability) : (Operation.has c).Traced clients host inner t frame w := by
  have hperform : (scope.setting clients host).perform inner t (.has c)
      = (Registry.has (scope.cell Objects.registryCell) c >>= fun b => pure (.flag b)) := by
    cases scope <;> rfl
  rw [Operation.Traced, hperform]
  cases hpublished : (Scope.objects w.state).registry.published with
  | some s =>
      refine traces_prompt frame (Action.bind_pure_of_returned
        (Registry.has_of_published ?_ c) _) rfl (.has hpublished)
      rw [Scope.cell_get]
      exact hpublished
  | none =>
      refine traces_fatal frame (Action.bind_of_stopped
        (Registry.has_of_unpublished ?_ c) _) (.early hpublished)
      rw [Scope.cell_get]
      exact hpublished

theorem traced_hasBits (bits : UInt32) :
    (Operation.hasBits bits).Traced clients host inner t frame w := by
  cases scope with
  | shared => exact traced_of_absent clients host inner t frame w rfl rfl
  | own =>
      have hperform : (Scope.own.setting clients host).perform inner t (.hasBits bits)
          = (Registry.hasBits Objects.registryCell bits >>= fun b => pure (.flag b)) := rfl
      rw [Operation.Traced, hperform]
      cases hbits : Capability.ofBits? bits with
      | none =>
          exact traces_fatal frame (Action.bind_of_stopped
            (Registry.hasBits_of_unknown hbits w) _) (.unknown rfl hbits)
      | some c =>
          rw [Registry.hasBits_of_known hbits]
          cases hpublished : w.state.registry.published with
          | some s =>
              exact traces_prompt frame (Action.bind_pure_of_returned
                (Registry.has_of_published hpublished c) _) rfl (.hasBits rfl hbits hpublished)
          | none =>
              exact traces_fatal frame (Action.bind_of_stopped
                (Registry.has_of_unpublished hpublished c) _) (.earlyBits rfl hbits hpublished)

theorem traced_snapshot : Operation.snapshot.Traced clients host inner t frame w := by
  have hperform : (scope.setting clients host).perform inner t .snapshot
      = (Registry.snapshot (scope.cell Objects.registryCell) >>= fun s => pure (.snapshot s)) := by
    cases scope <;> rfl
  rw [Operation.Traced, hperform]
  refine traces_prompt frame (Action.bind_pure_of_returned (Registry.snapshot_apply w) _)
    (seen_logging [] _) ?_
  rw [Scope.cell_get]
  exact .snapshot

theorem traced_isReady : Operation.isReady.Traced clients host inner t frame w := by
  cases scope with
  | shared => exact traced_of_absent clients host inner t frame w rfl rfl
  | own =>
      exact traces_prompt frame (Action.bind_pure_of_returned (Registry.isReady_apply w) _) rfl
        (.isReady rfl)

theorem traced_register (k : HandlerId) :
    (Operation.register k).Traced clients host inner t frame w := by
  have hperform : (scope.setting clients host).perform inner t (.register k)
      = (HandlerSlot.register (scope.cell Objects.handlerCell) k >>=
          fun r => pure (.registration r)) := by
    cases scope <;> rfl
  rw [Operation.Traced, hperform]
  have hget := Scope.cell_get Objects.handlerCell w.state
  cases hslot : (Scope.objects w.state).handlerSlot.handler with
  | none =>
      refine traces_prompt frame (Action.bind_pure_of_returned
        (HandlerSlot.register_of_empty ((congrArg _ hget).trans hslot) k) _)
        (seen_logging [.handlerRegistered] _) ?_
      rw [Scope.objects_cell_set]
      exact .registered hslot
  | some old =>
      exact traces_prompt frame (Action.bind_pure_of_returned
        (HandlerSlot.register_of_occupied ((congrArg _ hget).trans hslot) k) _)
        (seen_logging [.handlerRefused] _) (.refused hslot)

theorem traced_getHandler : Operation.getHandler.Traced clients host inner t frame w := by
  have hperform : (scope.setting clients host).perform inner t .getHandler
      = (HandlerSlot.getHandler (scope.cell Objects.handlerCell) >>=
          fun h => pure (.handler h)) := by
    cases scope <;> rfl
  rw [Operation.Traced, hperform]
  refine traces_prompt frame (Action.bind_pure_of_returned (HandlerSlot.getHandler_apply w) _)
    (seen_logging [] _) ?_
  rw [Scope.cell_get]
  exact .getHandler

theorem traced_isRegistered : Operation.isRegistered.Traced clients host inner t frame w := by
  cases scope with
  | shared => exact traced_of_absent clients host inner t frame w rfl rfl
  | own =>
      exact traces_prompt frame
        (Action.bind_pure_of_returned (HandlerSlot.isRegistered_apply w) _) rfl (.isRegistered rfl)

theorem traced_setExit (k : CallbackId) :
    (Operation.setExit k).Traced clients host inner t frame w := by
  have hperform : (scope.setting clients host).perform inner t (.setExit k)
      = (ExitSlot.setCallback (scope.cell Objects.exitCell) k >>=
          fun old => pure (.callback old)) := by
    cases scope <;> rfl
  rw [Operation.Traced, hperform]
  refine traces_prompt frame (Action.bind_pure_of_returned (ExitSlot.setCallback_apply k w) _)
    (seen_logging _ _) ?_
  rw [Scope.objects_cell_set, Scope.cell_get]
  exact .setExit

theorem traced_clearExit : Operation.clearExit.Traced clients host inner t frame w := by
  cases scope with
  | shared => exact traced_of_absent clients host inner t frame w rfl rfl
  | own =>
      exact traces_prompt frame (Action.bind_pure_of_returned (ExitSlot.clear_apply w) _) rfl
        (.clearExit rfl)

theorem traced_getExit : Operation.getExit.Traced clients host inner t frame w := by
  cases scope with
  | shared => exact traced_of_absent clients host inner t frame w rfl rfl
  | own =>
      exact traces_prompt frame
        (Action.bind_pure_of_returned (ExitSlot.getCallback_apply w) _) rfl (.getExit rfl)

theorem traced_newContext (context : Nat) (ip sp : UInt64) :
    (Operation.newContext context ip sp).Traced clients host inner t frame w :=
  traces_prompt frame (w := w) rfl rfl .newContext

theorem traced_writeContext (context : Nat) (slot : Architecture.native.layout.Slot)
    (v : UInt64) : (Operation.writeContext context slot v).Traced clients host inner t frame w :=
  traces_prompt frame (w := w) rfl rfl .writeContext

theorem traced_replace (component : Component) :
    (Operation.replace component).Traced clients host inner t frame w := by
  cases scope with
  | shared => exact traced_of_absent clients host inner t frame w rfl rfl
  | own => exact traces_prompt frame (w := w) rfl rfl (.replace rfl)

end Perform

end PlatformLayer
