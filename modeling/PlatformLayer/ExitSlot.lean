import PlatformLayer.Action

/-!
# The thread exit callback

One callback at a time is installed to run when a thread ends. Installing another hands the old one
back. A notification runs the callback that is installed at that moment, on the thread that makes
it.
-/

namespace PlatformLayer

structure ExitSlot where
  callback : Option CallbackId
  deriving DecidableEq

namespace ExitSlot

def new : ExitSlot := ⟨none⟩

variable {σ : Type} (cell : Cell σ ExitSlot)

def setCallback (c : CallbackId) : Action σ (Option CallbackId) := do
  let slot ← cell.read
  cell.write ⟨some c⟩
  match slot.callback with
  | none => pure none
  | some old => do
    Action.log .exitCallbackReplaced
    pure (some old)

def clear : Action σ (Option CallbackId) := do
  let slot ← cell.read
  cell.write ⟨none⟩
  pure slot.callback

def getCallback : Action σ (Option CallbackId) := do
  let slot ← cell.read
  pure slot.callback

/-- Runs the installed callback, if there is one, and says whether there was. -/
def notify (run : CallbackId → Action σ Unit) : Action σ Bool := do
  let slot ← cell.read
  match slot.callback with
  | none => pure false
  | some c => do
    Action.log .exitCallbackRunning
    run c
    pure true

end ExitSlot

end PlatformLayer
