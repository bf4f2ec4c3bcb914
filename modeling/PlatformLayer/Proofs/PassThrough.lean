import PlatformLayer.Proofs.FaultBrackets
import PlatformLayer.Proofs.FrameStores

/-!
# Dispatch passes faults through

A fault goes to the handler that is registered when it is raised, with the registers it was raised
on and two argument words that are zero, and the status that the handler returns decides what
becomes of it. The layer adds nothing of its own: the registers come back as the handler left them,
and the three objects are what the handler's code made of them.
-/

namespace PlatformLayer

open History

theorem Disposition.ofStatus_eq_resume_iff {status : Status} {arg0 arg1 : UInt64} :
    ofStatus status arg0 arg1 = .resume arg0 arg1 ↔ status = -1 := by
  by_cases hstatus : status = Status.continueExecution
  · rw [ofStatus, if_pos hstatus]
    exact iff_of_true rfl hstatus
  · rw [ofStatus, if_neg hstatus]
    exact iff_of_false nofun hstatus

theorem Disposition.ofStatus_eq_unhandled_iff {status : Status} {arg0 arg1 : UInt64} :
    ofStatus status arg0 arg1 = .unhandled ↔ status ≠ -1 := by
  by_cases hstatus : status = Status.continueExecution
  · rw [ofStatus, if_pos hstatus]
    exact iff_of_false nofun (not_not_intro hstatus)
  · rw [ofStatus, if_neg hstatus]
    exact iff_of_true rfl hstatus

/-- A register that no store reaches holds what it held. -/
theorem Nesting.read_eq {start final : Frame} {h : History Objects}
    (hnesting : Nesting (some start) (some final) (.returned ()) h)
    {s : Architecture.native.layout.Slot} (hnone : storedIn (.register s) 0 h = []) :
    final.registers.read s = start.registers.read s := by
  obtain ⟨_, ⟨⟩, hload⟩ := hnesting.load_eq
  have hsame : final.load (.register s) = start.load (.register s) := by
    rw [hload, hnone, List.getLast?_nil, Option.getD_none]
  rw [← Frame.toNat_load, hsame, Frame.toNat_load]

theorem Program.Step.raises_on_own {scope : Scope} {f : Fault} {next : Reply → Program .handler}
    {frame left : Frame} {program : Program .handler} {o o' : Objects} {h : History Objects}
    (hstep : (Program.forward f next).Step scope frame o h program left o') :
    ∃ t rest, h = ⟨.called t (.forward f), o⟩ :: ⟨.faultRaised f frame.registers, o⟩ :: rest := by
  cases hstep with
  | made hmakes call =>
      cases hmakes with
      | forward =>
          rcases call.of_forward with ⟨-, -, -, -, rfl⟩ | ⟨k, status, left, body, -, -, -, -, rfl⟩
          · exact ⟨_, _, rfl⟩
          · exact ⟨_, _, rfl⟩

/-- **Dispatch is a transparent pass-through.** A fault is raised on the context that the numbered
contexts hold by then, or on the own registers of the handler that hands them on. Where no handler
is registered it is unhandled, and nothing is called. Otherwise the handler is entered, once and
with zero arguments; unless the run stops within it, the status alone decides, the registers are
those that it left, and the objects are as its code left them. -/
theorem Run.dispatch_transparent (run : Run) :
    run.report.world.contexts = contextsAfter run.contexts run.history ∧
    (∀ f next frame o h program own o',
      (Program.forward f next).Step run.scope frame o h program own o' →
      ∃ t rest, h = ⟨.called t (.forward f), o⟩ ::
        ⟨.faultRaised f (Frame.registers frame), o⟩ :: rest) ∧
    ∀ before t c f o after, c.raises? = some f →
      run.history = before ++ ⟨.called t c, o⟩ :: after →
      ∃ registers, c.Draws (contextsAfter run.contexts before) registers ∧
        (o.handlerSlot.handler = none → ∃ rest, after =
          passedBy f registers o ++ ⟨.returned c (.dispatched .unhandled registers), o⟩ :: rest) ∧
        ∀ k, o.handlerSlot.handler = some k → ∃ body tail,
          after = entering f registers k o ++ (body ++ tail) ∧ found body = raised body ∧
          ((∃ stop o', run.outcome = Stop.outcome stop ∧ tail = [] ∧
              (run.clients.handler k f).Conduct run.scope (underWay 0 before = run.depth)
                ⟨registers, 0, 0⟩ o stop.outcome o' body) ∨
            ∃ status left o' d rest,
              (run.clients.handler k f).Conduct run.scope (underWay 0 before = run.depth)
                ⟨registers, 0, 0⟩ o (.returned (status, left)) o' body ∧
              tail = leaving k f status left o' ++
                ⟨.returned c (.dispatched d left.registers), o'⟩ :: rest ∧
              (d = .resume left.arg0 left.arg1 ↔ status = -1) ∧ (d = .unhandled ↔ status ≠ -1) ∧
              ∀ s, storedIn (.register s) 0 body = [] →
                left.registers.read s = registers.read s) := by
  refine ⟨run.handles.kept, ?_, ?_⟩
  · exact fun f next frame o h program own o' hstep => hstep.raises_on_own
  · intro before t c f o after hraises hsplit
    obtain ⟨registers, hdraws, hhandling⟩ := run.handles.site before t c f o after hraises hsplit
    refine ⟨registers, hdraws, ?_⟩
    cases hhandling with
    | unclaimed hslot =>
        exact ⟨fun _ => ⟨_, rfl⟩, fun k hslot' => absurd (hslot.symm.trans hslot') nofun⟩
    | @claimed k _ after hslot hactivation =>
        refine ⟨fun hslot' => absurd (hslot'.symm.trans hslot) nofun, fun k' hslot' => ?_⟩
        obtain rfl := Option.some.inj (hslot.symm.trans hslot')
        -- either the handler is left, or the run stops within it and nothing follows
        generalize run.outcome = e at hactivation
        cases hactivation with
        | @finished status left o' _ body rest hcode =>
            refine ⟨body, _, rfl, hcode.nests.found_eq_raised, Or.inr ?_⟩
            exact ⟨status, left, o', _, rest, hcode, rfl, Disposition.ofStatus_eq_resume_iff,
              Disposition.ofStatus_eq_unhandled_iff, fun s => hcode.nests.read_eq⟩
        | @cut stop o' _ hcode =>
            refine ⟨after, [], by rw [List.append_nil], hcode.nests.found_eq_raised, Or.inl ?_⟩
            exact ⟨stop, o', rfl, rfl, hcode⟩

def Happening.disposition? : Happening → Option Disposition
  | returned _ (.dispatched d _) => some d
  | _ => none

/-- A handler that stores both arguments and resumes. -/
def Run.resuming : Run :=
  { Run.alone ⟨fun _ _ => ⟨.store .arg0 7 (.store .arg1 8 (.ret .continueExecution)),
        .continueSearch⟩, fun _ => .ret ()⟩ 1
      (.call (.register 4) fun _ => .call (.newContext 0 0x100 0x200) fun _ =>
        .call (.dispatch ⟨1, 0x10⟩ 0) fun r => .ret [r]) with
    contexts := [default] }

theorem Run.dispatch_transparent_resuming :
    ∃ registers body status left o' rest,
      registers
        = (contextsAfter Run.resuming.contexts (Run.resuming.history.take 5)).getD 0 default ∧
      Run.resuming.history.drop 6 = entering ⟨1, 0x10⟩ registers 4 ⟨.new, ⟨some 4⟩, .new⟩ ++
        (body ++ (leaving 4 ⟨1, 0x10⟩ status left o' ++
          ⟨.returned (.operation (.dispatch ⟨1, 0x10⟩ 0))
            (.dispatched (.resume 7 8) left.registers), o'⟩ :: rest)) ∧
      status = -1 ∧ left.arg0 = 7 ∧ left.arg1 = 8 := by
  obtain ⟨-, -, hsites⟩ := Run.dispatch_transparent Run.resuming
  obtain ⟨registers, hdraws, -, hclaimed⟩ := hsites (Run.resuming.history.take 5) 0
    (.operation (.dispatch ⟨1, 0x10⟩ 0)) ⟨1, 0x10⟩ ⟨.new, ⟨some 4⟩, .new⟩
    (Run.resuming.history.drop 6) rfl rfl
  have hreturned : Run.resuming.outcome = .returned () := rfl
  have hreplies : (Run.resuming.history.drop 6).filterMap (·.what.disposition?)
      = [.resume 7 8] := rfl
  obtain ⟨body, tail, hafter, -, ⟨stop, o', hstopped, -⟩ |
    ⟨status, left, o', d, rest, -, rfl, hresume, hunhandled, -⟩⟩ := hclaimed 4 rfl
  · exact absurd (hstopped.symm.trans hreturned) (stop.outcome_ne ())
  · have hreply : ⟨.returned (.operation (.dispatch ⟨1, 0x10⟩ 0))
        (.dispatched d left.registers), o'⟩ ∈ Run.resuming.history.drop 6 := by
      rw [hafter]
      simp
    have hd : d ∈ [.resume 7 8] := by
      rw [← hreplies]
      exact List.mem_filterMap.mpr ⟨_, hreply, rfl⟩
    obtain rfl := List.mem_singleton.mp hd
    have hstatus : status = -1 := Decidable.not_not.mp fun hother =>
      nomatch hunhandled.mpr hother
    obtain ⟨harg0, harg1⟩ := Disposition.resume.inj (hresume.mpr hstatus)
    exact ⟨registers, body, status, left, o', rest, hdraws, hafter, hstatus, harg0.symm, harg1.symm⟩

end PlatformLayer
