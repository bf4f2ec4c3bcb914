import PlatformLayer.Proofs.Conduct

/-!
# The run of a callback

What follows a notification is nothing but its reply where the exit slot is empty, and otherwise one
run of the callback that the slot holds. The run is the conduct of that callback's own code, whatever
becomes of the slot in the meantime.
-/

namespace PlatformLayer

open History

/-- What a run of a callback does. Where client code is nested as deep as it may be, the code is
passed over. -/
def Clients.RunsCallback (clients : Clients) (scope : Scope) (deep : Prop) (k : CallbackId)
    (o : Objects) (e : Outcome Unit) (o' : Objects) (h : History Objects) : Prop :=
  (¬ deep ∧ ∃ result, Conduct scope (clients.callback k) () o result o' h ∧ result.fate = e) ∨
    deep ∧ e = .returned () ∧ o' = o ∧ h = []

namespace History

/-- The callback is announced and entered. -/
def running (k : CallbackId) (t : Nat) (o : Objects) : History Objects :=
  [⟨.event (.logged .exitCallbackRunning), o⟩, ⟨.event (.callbackEntered k t), o⟩]

/-- The callback is left, and the notification says so. -/
def ran (k : CallbackId) (o : Objects) : History Objects :=
  [⟨.callbackLeft k, o⟩, ⟨.returned (.operation .notify) (.flag true), o⟩]

end History

/-- What follows a notification on thread `t`, in a stretch that ends this way. -/
inductive Notified (scope : Scope) (clients : Clients) (deep : Prop) (t : Nat) (o : Objects) :
    Outcome Unit → History Objects → Prop where
  | unheard {e : Outcome Unit} {rest : History Objects} (hslot : o.exitSlot.callback = none) :
      Notified scope clients deep t o e
        (⟨.returned (.operation .notify) (.flag false), o⟩ :: rest)
  | finished {k : CallbackId} {o' : Objects} {e : Outcome Unit} {body rest : History Objects}
      (hslot : o.exitSlot.callback = some k)
      (hcode : clients.RunsCallback scope deep k o (.returned ()) o' body) :
      Notified scope clients deep t o e (running k t o ++ (body ++ (ran k o' ++ rest)))
  | cut {k : CallbackId} {stop : Stop} {o' : Objects} {body : History Objects}
      (hslot : o.exitSlot.callback = some k)
      (hcode : clients.RunsCallback scope deep k o stop.outcome o' body) :
      Notified scope clients deep t o stop.outcome (running k t o ++ body)

theorem Notified.append {scope : Scope} {clients : Clients} {deep : Prop} {t : Nat} {o : Objects}
    {after : History Objects} (hnotified : Notified scope clients deep t o (.returned ()) after)
    (e : Outcome Unit) (tail : History Objects) :
    Notified scope clients deep t o e (after ++ tail) := by
  generalize hreturned : Outcome.returned () = e' at hnotified
  cases hnotified with
  | unheard hslot => exact .unheard hslot
  | finished hslot hcode =>
      rw [List.append_assoc, List.append_assoc, List.append_assoc]
      exact .finished hslot hcode
  | @cut _ stop => exact absurd hreturned.symm (stop.outcome_ne ())

end PlatformLayer
