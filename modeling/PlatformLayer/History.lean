import PlatformLayer.Call
import PlatformLayer.Notice

/-!
# Histories

Everything that happens in a run, in order, each moment with the state of the layer at that time.
Log notices, entries into client code and results that a client notes are *events* and can be seen
from outside. The other happenings bracket them: which call was made on which thread, what a probe
answered, which registers a fault found and left, what a running handler stored, with what status
it left.
-/

namespace PlatformLayer

inductive Event where
  | logged (n : Notice)
  | probeAsked (c : Capability)
  | handlerEntered (h : HandlerId) (fault : Fault) (frame : Frame)
  | callbackEntered (c : CallbackId) (thread : Nat)
  | noted (r : Reply)

inductive Happening where
  | event (e : Event)
  | called (thread : Nat) (c : Call)
  | returned (c : Call) (r : Reply)
  | asked (c : Capability)
  | answered (c : Capability) (a : Answer)
  | faultRaised (fault : Fault) (registers : Registers)
  | faultSettled (fault : Fault) (d : Disposition) (registers : Registers)
  | stored (place : Place) (v : UInt64)
  | handlerLeft (h : HandlerId) (fault : Fault) (status : Status) (frame : Frame)
  | callbackLeft (c : CallbackId)

def Happening.event? : Happening → Option Event
  | event e => some e
  | _ => none

/-- Something that happens, and the state of the layer then. -/
structure Moment (σ : Type) where
  what : Happening
  state : σ

abbrev History (σ : Type) := List (Moment σ)

namespace History

variable {σ : Type}

/-- What can be seen of a history from outside. -/
def events (history : History σ) : List Event :=
  history.filterMap fun m => m.what.event?

@[simp] theorem events_nil : events ([] : History σ) = [] := rfl

@[simp] theorem events_append (first second : History σ) :
    events (first ++ second) = events first ++ events second :=
  List.filterMap_append

end History

end PlatformLayer
