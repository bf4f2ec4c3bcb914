import PlatformLayer.Proofs.Methods
import PlatformLayer.Proofs.Run

/-!
# The shape of a history

The history of a run is not any list of moments: a call is made and then returns, a probe is asked
and then answers, a fault is raised and then settled, and whatever client code does in between lies
in between. `Passage` says exactly which stretches of history there are, from which objects to which
objects, and how they can end. A stretch that does not return is cut off where it stopped, and so is
everything around it.

What holds of every run is proved by induction on passages.
-/

namespace PlatformLayer

namespace Objects

/-- The objects once a first start-up has begun. -/
def probing (o : Objects) : Objects :=
  { o with registry := { o.registry with phase := .probing } }

def publish (o : Objects) (serial : Nat) (s : CapabilitySet) : Objects :=
  { o with registry := o.registry.publish serial s }

end Objects

/-- Only a client's own probe is entered; the host is asked without a trace. -/
def Call.heralds : Call → Bool
  | init => true
  | _ => false

def Operation.ownerOnly : Operation → Bool
  | hasBits _ => true
  | isReady => true
  | isRegistered => true
  | clearExit => true
  | getExit => true
  | replace _ => true
  | _ => false

namespace History

def logging (notices : List Notice) (o : Objects) : History Objects :=
  notices.map fun n => ⟨.event (.logged n), o⟩

def heralding (heralded : Bool) (c : Capability) (o : Objects) : History Objects :=
  if heralded then [⟨.event (.probeAsked c), o⟩] else []

/-- What is recorded only if the stretch before it returned. -/
def closing (fate : Outcome Unit) (history : History Objects) : History Objects :=
  match fate with
  | .returned _ => history
  | _ => []

@[simp] theorem closing_returned (h : History Objects) : closing (.returned ()) h = h := rfl

theorem closing_of_stuck {e : Outcome Unit} (hstuck : e ≠ .returned ())
    (h : History Objects) : closing e h = [] := by
  cases e with
  | returned => exact absurd rfl hstuck
  | halted => rfl
  | hung => rfl

end History

open History

/-- A call that runs no client code: its reply, the objects it leaves and what it logs. -/
inductive Prompt (scope : Scope) (o : Objects) :
    Call → Reply → Objects → List Notice → Prop where
  | kept {c : Call} {s : CapabilitySet} (hinit : c.isInit)
      (hpublished : o.registry.published = some s) :
      Prompt scope o c (.capabilities s) o [.capabilitiesKept s]
  | has {c : Capability} {s : CapabilitySet} (hpublished : o.registry.published = some s) :
      Prompt scope o (.operation (.has c)) (.flag (s.contains c)) o []
  | hasBits {bits : UInt32} {c : Capability} {s : CapabilitySet} (howner : scope = .own)
      (hbits : Capability.ofBits? bits = some c) (hpublished : o.registry.published = some s) :
      Prompt scope o (.operation (.hasBits bits)) (.flag (s.contains c)) o []
  | isReady (howner : scope = .own) :
      Prompt scope o (.operation .isReady) (.flag o.registry.published.isSome) o []
  | snapshot : Prompt scope o (.operation .snapshot) (.snapshot o.registry.published) o []
  | registered {k : HandlerId} (hempty : o.handlerSlot.handler = none) :
      Prompt scope o (.operation (.register k)) (.registration (.ok ()))
        { o with handlerSlot := ⟨some k⟩ } [.handlerRegistered]
  | refused {k old : HandlerId} (hfull : o.handlerSlot.handler = some old) :
      Prompt scope o (.operation (.register k))
        (.registration (.error .handlerAlreadyRegistered)) o [.handlerRefused]
  | getHandler : Prompt scope o (.operation .getHandler) (.handler o.handlerSlot.handler) o []
  | isRegistered (howner : scope = .own) :
      Prompt scope o (.operation .isRegistered) (.flag o.handlerSlot.handler.isSome) o []
  | setExit {k : CallbackId} :
      Prompt scope o (.operation (.setExit k)) (.callback o.exitSlot.callback)
        { o with exitSlot := ⟨some k⟩ } o.exitSlot.replacing
  | clearExit (howner : scope = .own) :
      Prompt scope o (.operation .clearExit) (.callback o.exitSlot.callback)
        { o with exitSlot := ⟨none⟩ } []
  | getExit (howner : scope = .own) :
      Prompt scope o (.operation .getExit) (.callback o.exitSlot.callback) o []
  | unnotified (hempty : o.exitSlot.callback = none) :
      Prompt scope o (.operation .notify) (.flag false) o []
  | newContext {context : Nat} {ip sp : UInt64} :
      Prompt scope o (.operation (.newContext context ip sp)) .done o []
  | writeContext {context : Nat} {slot : Architecture.native.layout.Slot} {v : UInt64} :
      Prompt scope o (.operation (.writeContext context slot v)) .done o []
  | replace {component : Component} (howner : scope = .own) :
      Prompt scope o (.operation (.replace component)) .done (o.replace component) []
  | absent {op : Operation} (hshared : scope = .shared) (howner : op.ownerOnly) :
      Prompt scope o (.operation op) .absent o []

/-- A call that halts. -/
inductive Fatal (scope : Scope) (o : Objects) : Call → Halt → Prop where
  | early {c : Capability} (hpublished : o.registry.published = none) :
      Fatal scope o (.operation (.has c)) (.queriedTooEarly c)
  | earlyBits {bits : UInt32} {c : Capability} (howner : scope = .own)
      (hbits : Capability.ofBits? bits = some c) (hpublished : o.registry.published = none) :
      Fatal scope o (.operation (.hasBits bits)) (.queriedTooEarly c)
  | unknown {bits : UInt32} (howner : scope = .own) (hbits : Capability.ofBits? bits = none) :
      Fatal scope o (.operation (.hasBits bits)) (.unknownCapability bits)

/-- What a stretch of history is about. A handler's code works on a frame and leaves another; other
code has none. Where a stretch is cut off, what it would have left is anything. -/
inductive Part where
  | code (frame left : Option Frame)
  | call (thread : Nat) (c : Call) (frame left : Option Frame)
  | asking (heralded : Bool) (cs : List Capability) (s found : CapabilitySet)
  | fault (f : Fault) (registers : Registers) (d : Disposition) (left : Registers)

inductive Passage (scope : Scope) :
    Part → Objects → Outcome Unit → Objects → History Objects → Prop where
  | stop {frame : Option Frame} {o : Objects} :
      Passage scope (.code frame frame) o (.returned ()) o []
  | append {frame mid left : Option Frame} {o o' o'' : Objects} {e : Outcome Unit}
      {h h' : History Objects} (first : Passage scope (.code frame mid) o (.returned ()) o' h)
      (rest : Passage scope (.code mid left) o' e o'' h') :
      Passage scope (.code frame left) o e o'' (h ++ h')
  | stuck {frame mid left : Option Frame} {o o' : Objects} {e : Outcome Unit}
      {h : History Objects} (hstuck : e ≠ .returned ())
      (body : Passage scope (.code frame mid) o e o' h) :
      Passage scope (.code frame left) o e o' h
  /-- Threads started by a handler have no part in its frame. -/
  | elsewhere {frame : Option Frame} {o o' : Objects} {e : Outcome Unit} {h : History Objects}
      (body : Passage scope (.code none none) o e o' h) :
      Passage scope (.code frame frame) o e o' h
  | noted {frame : Option Frame} {o : Objects} {r : Reply} :
      Passage scope (.code frame frame) o (.returned ()) o [⟨.event (.noted r), o⟩]
  | stored {frame : Frame} {place : Place} {v : UInt64} {o : Objects} :
      Passage scope (.code (some frame) (some (frame.store place v))) o (.returned ()) o
        [⟨.stored place v, o⟩]
  | made {t : Nat} {c : Call} {frame left : Option Frame} {o o' : Objects} {e : Outcome Unit}
      {h : History Objects} (call : Passage scope (.call t c frame left) o e o' h) :
      Passage scope (.code frame left) o e o' h
  | prompt {t : Nat} {c : Call} {r : Reply} {frame : Option Frame} {o o' : Objects}
      {notices : List Notice} (hprompt : Prompt scope o c r o' notices) :
      Passage scope (.call t c frame frame) o (.returned ()) o'
        (⟨.called t c, o⟩ :: (logging notices o' ++ [⟨.returned c r, o'⟩]))
  | fatal {t : Nat} {c : Call} {frame : Option Frame} {o : Objects} {halt : Halt}
      (hfatal : Fatal scope o c halt) :
      Passage scope (.call t c frame frame) o (.halted halt) o
        [⟨.called t c, o⟩, ⟨.event (.logged (.halting halt)), o⟩]
  /-- A start-up within a start-up waits for ever. -/
  | waiting {t : Nat} {c : Call} {frame : Option Frame} {o : Objects} (hinit : c.isInit)
      (hprobing : o.registry.phase = .probing) :
      Passage scope (.call t c frame frame) o .hung o [⟨.called t c, o⟩]
  | init {t : Nat} {c : Call} {frame : Option Frame} {o o' : Objects} {s : CapabilitySet}
      {h : History Objects} (hinit : c.isInit) (hidle : o.registry.phase = .idle)
      (body : Passage scope (.asking c.heralds Capability.all .empty s) o.probing
        (.returned ()) o' h) :
      Passage scope (.call t c frame frame) o (.returned ()) (o'.publish o.registry.serial s)
        (⟨.called t c, o⟩ ::
          (h ++ [⟨.event (.logged (.capabilitiesPublished s)), o'.publish o.registry.serial s⟩,
            ⟨.returned c (.capabilities s), o'.publish o.registry.serial s⟩]))
  | initStuck {t : Nat} {c : Call} {frame : Option Frame} {o o' : Objects} {s : CapabilitySet}
      {e : Outcome Unit} {h : History Objects} (hinit : c.isInit)
      (hidle : o.registry.phase = .idle) (hstuck : e ≠ .returned ())
      (body : Passage scope (.asking c.heralds Capability.all .empty s) o.probing e o' h) :
      Passage scope (.call t c frame frame) o e o' (⟨.called t c, o⟩ :: h)
  | notify {t : Nat} {k : CallbackId} {frame : Option Frame} {o o' : Objects}
      {e : Outcome Unit} {h : History Objects} (hslot : o.exitSlot.callback = some k)
      (body : Passage scope (.code none none) o e o' h) :
      Passage scope (.call t (.operation .notify) frame frame) o e o'
        (⟨.called t (.operation .notify), o⟩ :: ⟨.event (.logged .exitCallbackRunning), o⟩ ::
          ⟨.event (.callbackEntered k t), o⟩ ::
          (h ++ closing e [⟨.callbackLeft k, o'⟩,
            ⟨.returned (.operation .notify) (.flag true), o'⟩]))
  | dispatch {t context : Nat} {f : Fault} {registers left : Registers} {d : Disposition}
      {frame : Option Frame} {o o' : Objects} {e : Outcome Unit} {h : History Objects}
      (body : Passage scope (.fault f registers d left) o e o' h) :
      Passage scope (.call t (.operation (.dispatch f context)) frame frame) o e o'
        (⟨.called t (.operation (.dispatch f context)), o⟩ ::
          (h ++ closing e
            [⟨.returned (.operation (.dispatch f context)) (.dispatched d left), o'⟩]))
  | forward {t : Nat} {f : Fault} {left : Registers} {d : Disposition} {frame : Frame}
      {o o' : Objects} {e : Outcome Unit} {h : History Objects}
      (body : Passage scope (.fault f frame.registers d left) o e o' h) :
      Passage scope (.call t (.forward f) (some frame) (some { frame with registers := left }))
        o e o'
        (⟨.called t (.forward f), o⟩ ::
          (h ++ closing e [⟨.returned (.forward f) (.dispatched d left), o'⟩]))
  | unclaimed {f : Fault} {registers : Registers} {o : Objects}
      (hslot : o.handlerSlot.handler = none) :
      Passage scope (.fault f registers .unhandled registers) o (.returned ()) o
        [⟨.faultRaised f registers, o⟩, ⟨.event (.logged (.faultUnclaimed f.code)), o⟩,
          ⟨.faultSettled f .unhandled registers, o⟩]
  | handled {f : Fault} {registers : Registers} {k : HandlerId} {status : Status}
      {frame : Frame} {o o' : Objects} {e : Outcome Unit} {h : History Objects}
      (hslot : o.handlerSlot.handler = some k)
      (body : Passage scope (.code (some (Frame.enter registers)) (some frame)) o e o' h) :
      Passage scope
        (.fault f registers (Disposition.ofStatus status frame.arg0 frame.arg1) frame.registers)
        o e o'
        (⟨.faultRaised f registers, o⟩ ::
          ⟨.event (.handlerEntered k f (Frame.enter registers)), o⟩ ::
          (h ++ closing e [⟨.handlerLeft k f status frame, o'⟩,
            ⟨.event (.logged (.faultHandled f status)), o'⟩,
            ⟨.faultSettled f (Disposition.ofStatus status frame.arg0 frame.arg1)
              frame.registers, o'⟩]))
  | askedAll {heralded : Bool} {s : CapabilitySet} {o : Objects} :
      Passage scope (.asking heralded [] s s) o (.returned ()) o []
  | asks {heralded : Bool} {c : Capability} {cs : List Capability} {s found : CapabilitySet}
      {a : Answer} {o o' o'' : Objects} {e : Outcome Unit} {h h' : History Objects}
      (probe : Passage scope (.code none none) o (.returned ()) o' h)
      (rest : Passage scope (.asking heralded cs (s.tally c a) found) o' e o'' h') :
      Passage scope (.asking heralded (c :: cs) s found) o e o''
        (⟨.asked c, o⟩ :: (heralding heralded c o ++ (h ++
          (⟨.answered c a, o'⟩ :: (logging (c.complaint a) o' ++ h')))))
  | askStuck {heralded : Bool} {c : Capability} {cs : List Capability}
      {s found : CapabilitySet} {o o' : Objects} {e : Outcome Unit} {h : History Objects}
      (hstuck : e ≠ .returned ()) (probe : Passage scope (.code none none) o e o' h) :
      Passage scope (.asking heralded (c :: cs) s found) o e o'
        (⟨.asked c, o⟩ :: (heralding heralded c o ++ h))

end PlatformLayer
