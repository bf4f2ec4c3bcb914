import PlatformLayer.Proofs.CallbackRuns
import PlatformLayer.Proofs.Contexts
import PlatformLayer.Proofs.FaultNesting

/-!
# The handling of a fault

What follows a call that raises a fault is nothing but a line in the log where no handler is
registered, and otherwise one activation of the handler that is. The activation is the conduct of
that handler's own code, from a frame with the registers of the fault; its status and the frame it
leaves settle the fault.

Faults and notifications are raised in one another's code, so that both are answered wherever they
are made is one statement about a stretch of history.
-/

namespace PlatformLayer

open History

variable {scope : Scope} {clients : Clients}

@[simp] def Happening.raises : Happening → Bool
  | called _ c => c.raises?.isSome
  | _ => false

/-- A call that may enter a handler or a callback. -/
@[simp] def Happening.callsClient : Happening → Bool
  | called _ c => c.entersClient
  | _ => false

theorem Call.entersClient_of_raises {c : Call} {f : Fault} (hraises : c.raises? = some f) :
    c.entersClient = true := by
  match c, hraises with
  | .operation (.dispatch _ _), _ => rfl
  | .forward _, _ => rfl

/-- How much client code is under way once this has happened. -/
@[simp] def Happening.turn (n : Nat) : Happening → Nat
  | asked _ => n + 1
  | event (.handlerEntered _ _ _) => n + 1
  | event (.callbackEntered _ _) => n + 1
  | answered _ _ => n - 1
  | handlerLeft _ _ _ _ => n - 1
  | callbackLeft _ => n - 1
  | _ => n

namespace History

variable (n : Nat) (h h' : History Objects)

/-- How many probes, handlers and callbacks have been entered and not left after a stretch. -/
def underWay : Nat := h.foldl (fun n m => m.what.turn n) n

@[simp] theorem underWay_nil : underWay n [] = n := rfl

@[simp] theorem underWay_cons (m : Moment Objects) :
    underWay n (m :: h) = underWay (m.what.turn n) h := rfl

@[simp] theorem underWay_append : underWay n (h ++ h') = underWay (underWay n h) h' :=
  List.foldl_append

end History

/-- What an activation of a handler does. Where client code is nested as deep as it may be, the code
is passed over, and its value stands for it. -/
def Body.Conduct (scope : Scope) (deep : Prop) (body : Body .handler) (frame : Frame) (o : Objects)
    (e : Outcome (Status × Frame)) (o' : Objects) (h : History Objects) : Prop :=
  ¬ deep ∧ PlatformLayer.Conduct scope body.program frame o e o' h ∨
    deep ∧ e = .returned (body.skipped, frame) ∧ o' = o ∧ h = []

theorem Program.Cut.nests {ρ : Role} {program : Program ρ} {own : ρ.Local} {o o' : Objects}
    {stop : Stop} {h : History Objects} (hcut : program.Cut scope own o stop o' h) :
    Nesting (Role.frame? own) (Role.frame? own) stop.outcome h := by
  cases hcut with
  | made _ call => exact .stuck (stop.outcome_ne ()) call.nests
  | spawned threads => exact .elsewhere threads.nests

theorem Conduct.nests {ρ : Role} {program : Program ρ} {own : ρ.Local} {o o' : Objects}
    {e : Outcome (ρ.Value × ρ.Local)} {h : History Objects}
    (hconduct : Conduct scope program own o e o' h) :
    Nesting (Role.frame? own) (e.leaving (Role.frame? own) fun r => Role.frame? r.2) e.fate h := by
  cases hconduct with
  | finished hreaches => exact hreaches.passage.nests
  | @interrupted _ _ _ _ stop _ _ hreaches hcut =>
      rw [Stop.fate_outcome]
      exact .stuck (stop.outcome_ne ()) (.append hreaches.passage.nests hcut.nests)

theorem Body.Conduct.nests {deep : Prop} {body : Body .handler} {frame : Frame} {o o' : Objects}
    {e : Outcome (Status × Frame)} {h : History Objects}
    (hcode : body.Conduct scope deep frame o e o' h) :
    Nesting (some frame) (e.leaving (some frame) fun r => some r.2) e.fate h := by
  rcases hcode with ⟨-, hconduct⟩ | ⟨-, rfl, -, rfl⟩
  · exact hconduct.nests
  · exact .quiet lacks_nil

/-- What follows the entry into a handler for a fault that call `c` raised, in a stretch that ends
this way: the activation comes to its end and settles the fault, or the stretch stops in it. -/
inductive Activation (scope : Scope) (clients : Clients) (deep : Prop) (c : Call) (f : Fault)
    (registers : Registers) (k : HandlerId) (o : Objects) :
    Outcome Unit → History Objects → Prop where
  | finished {status : Status} {left : Frame} {o' : Objects} {e : Outcome Unit}
      {body rest : History Objects}
      (hcode : (clients.handler k f).Conduct scope deep (Frame.enter registers) o
        (.returned (status, left)) o' body) :
      Activation scope clients deep c f registers k o e (body ++ (leaving k f status left o' ++
        ⟨.returned c (.dispatched (Disposition.ofStatus status left.arg0 left.arg1)
          left.registers), o'⟩ :: rest))
  | cut {stop : Stop} {o' : Objects} {body : History Objects}
      (hcode : (clients.handler k f).Conduct scope deep (Frame.enter registers) o stop.outcome o'
        body) :
      Activation scope clients deep c f registers k o stop.outcome body

/-- What follows a call that raises a fault on these registers. -/
inductive Handling (scope : Scope) (clients : Clients) (deep : Prop) (c : Call) (f : Fault)
    (registers : Registers) (o : Objects) : Outcome Unit → History Objects → Prop where
  | unclaimed {e : Outcome Unit} {rest : History Objects} (hslot : o.handlerSlot.handler = none) :
      Handling scope clients deep c f registers o e
        (passedBy f registers o ++ ⟨.returned c (.dispatched .unhandled registers), o⟩ :: rest)
  | claimed {k : HandlerId} {e : Outcome Unit} {after : History Objects}
      (hslot : o.handlerSlot.handler = some k)
      (hactivation : Activation scope clients deep c f registers k o e after) :
      Handling scope clients deep c f registers o e (entering f registers k o ++ after)

section Handling

variable {deep : Prop} {c : Call} {f : Fault} {registers : Registers} {k : HandlerId} {o : Objects}
  {after : History Objects}

theorem Activation.append
    (hactivation : Activation scope clients deep c f registers k o (.returned ()) after)
    (e : Outcome Unit) (tail : History Objects) :
    Activation scope clients deep c f registers k o e (after ++ tail) := by
  generalize hreturned : Outcome.returned () = e' at hactivation
  cases hactivation with
  | finished hcode =>
      simp only [List.append_assoc, List.cons_append]
      exact .finished hcode
  | @cut stop => exact absurd hreturned.symm (stop.outcome_ne ())

theorem Activation.of_returned {e : Outcome Unit} (hreturned : e = .returned ())
    (hactivation : Activation scope clients deep c f registers k o e after) :
    ∃ status left o' body rest, (clients.handler k f).Conduct scope deep (Frame.enter registers) o
        (.returned (status, left)) o' body ∧
      after = body ++ (leaving k f status left o' ++
        ⟨.returned c (.dispatched (Disposition.ofStatus status left.arg0 left.arg1)
          left.registers), o'⟩ :: rest) := by
  cases hactivation with
  | finished hcode => exact ⟨_, _, _, _, _, hcode, rfl⟩
  | @cut stop => exact absurd hreturned (stop.outcome_ne ())

theorem Handling.append
    (hhandling : Handling scope clients deep c f registers o (.returned ()) after)
    (e : Outcome Unit) (tail : History Objects) :
    Handling scope clients deep c f registers o e (after ++ tail) := by
  cases hhandling with
  | unclaimed hslot =>
      rw [List.append_assoc, List.cons_append]
      exact .unclaimed hslot
  | claimed hslot hactivation =>
      rw [List.append_assoc]
      exact .claimed hslot (hactivation.append e tail)

theorem Handling.of_entered {registers' : Registers} {e : Outcome Unit}
    (hhandling : Handling scope clients deep c f registers' o e
      (entering f registers k o ++ after)) :
    registers' = registers ∧ Activation scope clients deep c f registers k o e after := by
  generalize hafter : entering f registers k o ++ after = after' at hhandling
  cases hhandling with
  | unclaimed hslot => cases hafter
  | claimed hslot hactivation =>
      cases hafter
      exact ⟨rfl, hactivation⟩

end Handling

/-- The registers that a call takes from a numbered context. -/
@[simp] def Call.Draws (contexts : List Registers) (registers : Registers) : Call → Prop
  | operation (.dispatch _ i) => registers = contexts.getD i default
  | _ => True

/-- Every call on record that raises a fault is followed by its handling, on the registers that the
numbered contexts held by then, and every notification by the run of the callback it finds. Client
code may nest up to `depth`, and `n` levels of it are under way. -/
structure Handles (scope : Scope) (clients : Clients) (depth n n' : Nat)
    (contexts contexts' : List Registers) (e : Outcome Unit) (h : History Objects) : Prop where
  kept : contexts' = contextsAfter contexts h
  level : e = .returned () → n' = underWay n h
  site : ∀ (before : History Objects) (t : Nat) (c : Call) (f : Fault) (o : Objects)
    (after : History Objects), c.raises? = some f → h = before ++ ⟨.called t c, o⟩ :: after →
    ∃ registers, c.Draws (contextsAfter contexts before) registers ∧
      Handling scope clients (underWay n before = depth) c f registers o e after
  notified : ∀ (before : History Objects) (t : Nat) (o : Objects) (after : History Objects),
    h = before ++ ⟨.called t (.operation .notify), o⟩ :: after →
    Notified scope clients (underWay n before = depth) t o e after

/-- Calls for client code, writes to a numbered context, or enters or leaves client code. -/
@[simp] def Happening.touches : Happening → Bool
  | called _ c => c.entersClient
  | returned (.operation op) _ => op.puts
  | event (.handlerEntered _ _ _) => true
  | event (.callbackEntered _ _) => true
  | asked _ => true
  | answered _ _ => true
  | handlerLeft _ _ _ _ => true
  | callbackLeft _ => true
  | _ => false

theorem Happening.untouched {what : Happening} (hquiet : what.touches = false) :
    what.callsClient = false ∧ (∀ n, what.turn n = n) ∧ ∀ contexts, what.put contexts = contexts := by
  cases what with
  | called t c => exact ⟨hquiet, fun _ => rfl, fun _ => rfl⟩
  | returned c r =>
      refine ⟨rfl, fun _ => rfl, fun contexts => ?_⟩
      cases c with
      | operation op =>
          cases op with
          | dispatch f i => exact absurd hquiet.symm Bool.false_ne_true
          | newContext i ip sp => exact absurd hquiet.symm Bool.false_ne_true
          | writeContext i s v => exact absurd hquiet.symm Bool.false_ne_true
          | _ => rfl
      | _ => rfl
  | event e =>
      cases e with
      | handlerEntered k f frame => exact absurd hquiet.symm Bool.false_ne_true
      | callbackEntered k t => exact absurd hquiet.symm Bool.false_ne_true
      | _ => exact ⟨rfl, fun _ => rfl, fun _ => rfl⟩
  | asked c => exact absurd hquiet.symm Bool.false_ne_true
  | answered c a => exact absurd hquiet.symm Bool.false_ne_true
  | handlerLeft k f status frame => exact absurd hquiet.symm Bool.false_ne_true
  | callbackLeft k => exact absurd hquiet.symm Bool.false_ne_true
  | _ => exact ⟨rfl, fun _ => rfl, fun _ => rfl⟩

namespace Handles

variable {depth n n' n'' : Nat} {contexts contexts' contexts'' : List Registers}
  {e : Outcome Unit} {h h' : History Objects}

theorem append (hfirst : Handles scope clients depth n n' contexts contexts' (.returned ()) h)
    (hrest : Handles scope clients depth n' n'' contexts' contexts'' e h') :
    Handles scope clients depth n n'' contexts contexts'' e (h ++ h') := by
  have hlevel := hfirst.level rfl
  constructor
  · rw [contextsAfter_append, ← hfirst.kept]
    exact hrest.kept
  · rw [underWay_append, ← hlevel]
    exact hrest.level
  · intro before t c f o after hraises hsplit
    -- a fault of the second stretch finds the contexts and the level that the first one left
    rcases split_append hsplit with ⟨front, rfl, hlater⟩ | ⟨rest, hearlier, rfl⟩
    · rw [contextsAfter_append, ← hfirst.kept, underWay_append, ← hlevel]
      exact hrest.site front t c f o after hraises hlater
    · obtain ⟨registers, hdraws, hhandling⟩ := hfirst.site before t c f o rest hraises hearlier
      exact ⟨registers, hdraws, hhandling.append e h'⟩
  · intro before t o after hsplit
    rcases split_append hsplit with ⟨front, rfl, hlater⟩ | ⟨rest, hearlier, rfl⟩
    · rw [underWay_append, ← hlevel]
      exact hrest.notified front t o after hlater
    · exact (hfirst.notified before t o rest hearlier).append e h'

/-- Where a stretch that stops would have come does not matter. -/
theorem stuck (hstuck : e ≠ .returned ())
    (hbody : Handles scope clients depth n n' contexts contexts' e h) :
    Handles scope clients depth n n'' contexts contexts' e h :=
  ⟨hbody.kept, fun hreturned => absurd hreturned hstuck, hbody.site, hbody.notified⟩

theorem nil : Handles scope clients depth n n contexts contexts e [] :=
  ⟨rfl, fun _ => rfl, fun before _ _ _ _ _ _ hsplit => absurd hsplit.symm (by simp),
    fun before _ _ _ hsplit => absurd hsplit.symm (by simp)⟩

theorem record {m : Moment Objects} (hquiet : m.what.callsClient = false)
    (hturn : m.what.turn n = n') (hput : m.what.put contexts = contexts') :
    Handles scope clients depth n n' contexts contexts' e [m] := by
  have hcalls : ∀ {before after : History Objects} {t : Nat} {c : Call} {o : Objects},
      [m] = before ++ ⟨.called t c, o⟩ :: after → c.entersClient = false := by
    intro before after t c o hsplit
    have hmem : (⟨.called t c, o⟩ : Moment Objects) ∈ [m] := by simp [hsplit]
    rw [← List.mem_singleton.mp hmem] at hquiet
    exact hquiet
  refine ⟨hput.symm, fun _ => hturn.symm, ?_, ?_⟩
  · intro before t c f o after hraises hsplit
    exact absurd (Call.entersClient_of_raises hraises) (by simp [hcalls hsplit])
  · intro before t o after hsplit
    exact absurd (hcalls hsplit).symm Bool.false_ne_true

theorem cons {m : Moment Objects} (hquiet : m.what.callsClient = false)
    (hrest : Handles scope clients depth (m.what.turn n) n' (m.what.put contexts) contexts' e h) :
    Handles scope clients depth n n' contexts contexts' e (m :: h) :=
  append (.record hquiet rfl rfl) hrest

theorem of_lacks (hlacks : Lacks Happening.touches h) :
    Handles scope clients depth n n contexts contexts e h := by
  induction h with
  | nil => exact .nil
  | cons m h ih =>
      obtain ⟨hm, hrest⟩ := lacks_cons.mp hlacks
      obtain ⟨hquiet, hturn, hput⟩ := Happening.untouched hm
      refine .cons hquiet ?_
      rw [hturn, hput]
      exact ih hrest

/-- A call in front, with what has to follow it; every later call is answered within that. -/
theorem called {t : Nat} {c : Call} {o : Objects}
    (hraised : ∀ f, c.raises? = some f → ∃ registers, c.Draws contexts registers ∧
      Handling scope clients (n = depth) c f registers o e h)
    (hnotified : c = .operation .notify → Notified scope clients (n = depth) t o e h)
    (hrest : Handles scope clients depth n n' contexts contexts' e h) :
    Handles scope clients depth n n' contexts contexts' e (⟨.called t c, o⟩ :: h) := by
  refine ⟨hrest.kept, hrest.level, ?_, ?_⟩
  · intro before t' c' f o' after hraises hsplit
    cases before with
    | nil =>
        cases hsplit
        exact hraised f hraises
    | cons m before =>
        obtain ⟨rfl, hlater⟩ := List.cons.inj hsplit
        exact hrest.site before t' c' f o' after hraises hlater
  · intro before t' o' after hsplit
    cases before with
    | nil =>
        cases hsplit
        exact hnotified rfl
    | cons m before =>
        obtain ⟨rfl, hlater⟩ := List.cons.inj hsplit
        exact hrest.notified before t' o' after hlater

theorem raised {t : Nat} {c : Call} {f : Fault} {registers : Registers} {o : Objects}
    (hraises : c.raises? = some f) (hdraws : c.Draws contexts registers)
    (hhandling : Handling scope clients (n = depth) c f registers o e h)
    (hrest : Handles scope clients depth n n' contexts contexts' e h) :
    Handles scope clients depth n n' contexts contexts' e (⟨.called t c, o⟩ :: h) := by
  refine .called ?_ ?_ hrest
  · intro f' hraises'
    obtain rfl := Option.some.inj (hraises.symm.trans hraises')
    exact ⟨registers, hdraws, hhandling⟩
  · rintro rfl
    cases hraises

theorem notifying {t : Nat} {o : Objects} (hnotified : Notified scope clients (n = depth) t o e h)
    (hrest : Handles scope clients depth n n' contexts contexts' e h) :
    Handles scope clients depth n n' contexts contexts' e
      (⟨.called t (.operation .notify), o⟩ :: h) :=
  .called nofun (fun _ => hnotified) hrest

end Handles

end PlatformLayer
