import PlatformLayer.Proofs.CallSites

/-!
# Faults within faults

A call that raises a fault runs the registered handler, and the handler's code may raise faults of
its own, make notifications and start threads in which faults are raised. Of a passage only this
nesting is kept here: which call raised which fault on which registers, what the handler's frame was
on the way in and on the way out, and what was stored in it. All else is a quiet stretch.
-/

namespace PlatformLayer

open History

/-- The fault that a call raises. -/
def Call.raises? : Call → Option Fault
  | operation (.dispatch f _) => some f
  | forward f => some f
  | _ => none

/-- Has to do with faults: calls that raise them, the records of their handling, and stores to a
handler's frame. -/
@[simp] def Happening.ofFault : Happening → Bool
  | event (.handlerEntered _ _ _) => true
  | event (.logged (.faultUnclaimed _)) => true
  | event (.logged (.faultHandled _ _)) => true
  | event _ => false
  | called _ c => c.raises?.isSome
  | returned c _ => c.raises?.isSome
  | asked _ => false
  | answered _ _ => false
  | faultRaised _ _ => true
  | faultSettled _ _ _ => true
  | stored _ _ => true
  | handlerLeft _ _ _ _ => true
  | callbackLeft _ => false

/-- What a call that raises a fault has to do with the frame of the code that makes it. A handler
may hand its own registers on, and finds them as the fault left them; other registers are not in its
frame. -/
def Call.Passes (registers left : Registers) (frame frame' : Option Frame) : Call → Prop
  | forward _ => ∃ own, frame = some own ∧ registers = own.registers ∧
      frame' = some { own with registers := left }
  | _ => frame' = frame

namespace History

/-- A fault is raised and nobody claims it. -/
def passedBy (f : Fault) (registers : Registers) (o : Objects) : History Objects :=
  [⟨.faultRaised f registers, o⟩, ⟨.event (.logged (.faultUnclaimed f.code)), o⟩,
    ⟨.faultSettled f .unhandled registers, o⟩]

/-- A fault is raised and a handler entered. -/
def entering (f : Fault) (registers : Registers) (k : HandlerId) (o : Objects) :
    History Objects :=
  [⟨.faultRaised f registers, o⟩, ⟨.event (.handlerEntered k f (Frame.enter registers)), o⟩]

/-- A handler is left and the fault is settled. -/
def leaving (k : HandlerId) (f : Fault) (status : Status) (left : Frame) (o : Objects) :
    History Objects :=
  [⟨.handlerLeft k f status left, o⟩, ⟨.event (.logged (.faultHandled f status)), o⟩,
    ⟨.faultSettled f (Disposition.ofStatus status left.arg0 left.arg1) left.registers, o⟩]

end History

inductive Nesting : Option Frame → Option Frame → Outcome Unit → History Objects → Prop where
  | quiet {frame : Option Frame} {e : Outcome Unit} {h : History Objects}
      (hquiet : Lacks Happening.ofFault h) : Nesting frame frame e h
  | stored {frame : Frame} {place : Place} {v : UInt64} {o : Objects} :
      Nesting (some frame) (some (frame.store place v)) (.returned ()) [⟨.stored place v, o⟩]
  | append {frame mid left : Option Frame} {e : Outcome Unit} {h h' : History Objects}
      (first : Nesting frame mid (.returned ()) h) (rest : Nesting mid left e h') :
      Nesting frame left e (h ++ h')
  | stuck {frame mid left : Option Frame} {e : Outcome Unit} {h : History Objects}
      (hstuck : e ≠ .returned ()) (body : Nesting frame mid e h) : Nesting frame left e h
  /-- Code without a frame leaves that of the code around it alone. -/
  | elsewhere {frame : Option Frame} {e : Outcome Unit} {h : History Objects}
      (body : Nesting none none e h) : Nesting frame frame e h
  | unclaimed {t : Nat} {c : Call} {f : Fault} {registers : Registers}
      {frame frame' : Option Frame} {o : Objects} (hraises : c.raises? = some f)
      (hslot : o.handlerSlot.handler = none)
      (hpasses : c.Passes registers registers frame frame') :
      Nesting frame frame' (.returned ())
        (⟨.called t c, o⟩ :: (passedBy f registers o ++
          [⟨.returned c (.dispatched .unhandled registers), o⟩]))
  | handled {t : Nat} {c : Call} {f : Fault} {registers : Registers} {k : HandlerId}
      {status : Status} {left : Frame} {r : Reply} {frame frame' : Option Frame}
      {o o' : Objects} {e : Outcome Unit} {h : History Objects} (hraises : c.raises? = some f)
      (hslot : o.handlerSlot.handler = some k)
      (hpasses : c.Passes registers left.registers frame frame')
      (body : Nesting (some (Frame.enter registers)) (some left) e h) :
      Nesting frame frame' e
        (⟨.called t c, o⟩ :: (entering f registers k o ++
          (h ++ closing e (leaving k f status left o' ++ [⟨.returned c r, o'⟩]))))

namespace Nesting

variable {frame left : Option Frame} {e : Outcome Unit} {h quiet : History Objects}

theorem prepend (opening : History Objects) (hquiet : Lacks Happening.ofFault opening)
    (hnesting : Nesting frame left e h) : Nesting frame left e (opening ++ h) :=
  .append (.quiet hquiet) hnesting

theorem cons {m : Moment Objects} (hquiet : m.what.ofFault = false)
    (hnesting : Nesting frame left e h) : Nesting frame left e (m :: h) :=
  hnesting.prepend [m] (lacks_cons.mpr ⟨hquiet, lacks_nil⟩)

theorem append_closing {records : History Objects} (hquiet : Lacks Happening.ofFault records)
    (hnesting : Nesting frame left e h) : Nesting frame left e (h ++ closing e records) := by
  by_cases hreturned : e = .returned ()
  · subst hreturned
    exact .append hnesting (.quiet hquiet)
  · rw [closing_of_stuck hreturned, List.append_nil]
    exact hnesting

end Nesting

variable {scope : Scope} {part : Part} {o o' : Objects} {e : Outcome Unit} {h : History Objects}

/-- What the nesting of a stretch is, by what the stretch is about. A fault is nested in whatever
call raises it. -/
def Part.Nests (o o' : Objects) (e : Outcome Unit) (h : History Objects) : Part → Prop
  | code frame left => Nesting frame left e h
  | call _ _ frame left => Nesting frame left e h
  | asking _ _ _ _ => Nesting none none e h
  | fault f registers d left => ∀ {t : Nat} {c : Call} {frame frame' : Option Frame},
      c.raises? = some f → c.Passes registers left frame frame' →
      Nesting frame frame' e (⟨.called t c, o⟩ ::
        (h ++ closing e [⟨.returned c (.dispatched d left), o'⟩]))

theorem Call.quiet_of_isInit {c : Call} (hinit : c.isInit) : c.raises? = none := by
  match c, hinit with
  | .init, _ => rfl
  | .operation .initFromHost, _ => rfl

theorem Prompt.quiet {c : Call} {r : Reply} {notices : List Notice}
    (hprompt : Prompt scope o c r o' notices) :
    c.raises? = none ∧ ∀ n ∈ notices, Happening.ofFault (.event (.logged n)) = false := by
  cases hprompt with
  | kept hinit hpublished => exact ⟨Call.quiet_of_isInit hinit, by simp⟩
  | registered hempty => exact ⟨rfl, by simp⟩
  | refused hfull => exact ⟨rfl, by simp⟩
  | setExit =>
      unfold ExitSlot.replacing
      exact ⟨rfl, by split <;> simp⟩
  | @absent op hshared howner =>
      refine ⟨?_, by simp⟩
      cases op with
      | dispatch fault context => exact absurd howner Bool.false_ne_true
      | _ => rfl
  | _ => exact ⟨rfl, by simp⟩

theorem Fatal.quiet {c : Call} {halt : Halt} (hfatal : Fatal scope o c halt) :
    c.raises? = none := by
  cases hfatal <;> rfl

theorem Capability.complaint_quiet (c : Capability) (a : Answer) :
    ∀ n ∈ c.complaint a, Happening.ofFault (.event (.logged n)) = false := by
  cases a <;> simp [complaint]

theorem History.closing_append (e : Outcome Unit) (h h' : History Objects) :
    closing e h ++ closing e h' = closing e (h ++ h') := by
  cases e <;> rfl

/-- **Every passage nests its faults.** -/
theorem Passage.nests (hpassage : Passage scope part o e o' h) : part.Nests o o' e h := by
  induction hpassage with
  | stop => exact .quiet lacks_nil
  | append _ _ ihfirst ihrest => exact .append ihfirst ihrest
  | stuck hstuck _ ih => exact .stuck hstuck ih
  | elsewhere _ ih => exact .elsewhere ih
  | noted => exact .quiet (by simp)
  | stored => exact .stored
  | made _ ih => exact ih
  | prompt hprompt =>
      obtain ⟨hraises, hlog⟩ := hprompt.quiet
      have hlogging := lacks_logging hlog
      exact .quiet (by simp [hraises, hlogging])
  | fatal hfatal => exact .quiet (by simp [hfatal.quiet])
  | waiting hinit _ => exact .quiet (by simp [Call.quiet_of_isInit hinit])
  | init hinit _ _ ih =>
      -- a probe is no handler: faults within it are nested in no frame
      have hraises := Call.quiet_of_isInit hinit
      exact .cons (by simp [hraises]) (.elsewhere (ih.append (.quiet (by simp [hraises]))))
  | initStuck hinit _ _ _ ih =>
      exact .cons (by simp [Call.quiet_of_isInit hinit]) (.elsewhere ih)
  | notify _ _ ih =>
      exact .prepend [_, _, _] (by simp [Call.raises?])
        (.append_closing (by simp [Call.raises?]) (.elsewhere ih))
  | dispatch _ ih => exact ih rfl rfl
  | @forward _ _ _ _ frame _ _ _ _ _ ih => exact ih rfl ⟨frame, rfl, rfl, rfl⟩
  | unclaimed hslot => exact fun hraises hpasses => .unclaimed hraises hslot hpasses
  | handled hslot _ ih =>
      -- the call that raises the fault closes after the handler does, so the two endings are one
      intro t c frame frame' hraises hpasses
      rw [List.cons_append, List.cons_append, List.append_assoc, closing_append]
      exact .handled hraises hslot hpasses ih
  | askedAll => exact .quiet lacks_nil
  | asks _ _ ihprobe ihrest =>
      exact .cons rfl (.prepend _ (lacks_heralding rfl _ _) (.append ihprobe
        (.cons rfl (.prepend _ (lacks_logging (Capability.complaint_quiet _ _) _) ihrest))))
  | askStuck _ _ ih => exact .cons rfl (.prepend _ (lacks_heralding rfl _ _) ih)

/-- A handler that hands its registers on raises the fault on them, and finds them as the handler
left them that was entered for it. -/
theorem Passage.of_forward {t : Nat} {f : Fault} {frame : Frame} {frame' : Option Frame} {r : Reply}
    (hcall : Passage scope (.call t (.forward f) (some frame) frame') o (.returned ()) o'
      (h ++ [⟨.returned (.forward f) r, o'⟩])) :
    (o.handlerSlot.handler = none ∧ o' = o ∧ frame' = some frame ∧
      r = .dispatched .unhandled frame.registers ∧
      h = ⟨.called t (.forward f), o⟩ :: passedBy f frame.registers o) ∨
    ∃ k status left body, o.handlerSlot.handler = some k ∧
      frame' = some { frame with registers := left.registers } ∧
      r = .dispatched (Disposition.ofStatus status left.arg0 left.arg1) left.registers ∧
      Passage scope (.code (some (Frame.enter frame.registers)) (some left)) o (.returned ()) o'
        body ∧
      h = ⟨.called t (.forward f), o⟩ ::
        (entering f frame.registers k o ++ (body ++ leaving k f status left o')) := by
  generalize hall : h ++ [⟨.returned (.forward f) r, o'⟩] = all at hcall
  cases hcall with
  | prompt hprompt => cases hprompt with | kept hinit _ => cases hinit
  | init hinit _ _ => cases hinit
  | initStuck hinit _ _ _ => cases hinit
  | forward body =>
      rw [closing_returned, ← List.cons_append] at hall
      obtain ⟨rfl, hlast⟩ := List.append_inj' hall rfl
      cases hlast
      cases body with
      | unclaimed hslot => exact Or.inl ⟨hslot, rfl, rfl, rfl, rfl⟩
      | @handled _ _ k status left _ _ _ body hslot hbody =>
          exact Or.inr ⟨k, status, left, body, hslot, rfl, rfl, hbody, rfl⟩

end PlatformLayer
