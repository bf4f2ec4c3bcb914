import Mathlib.Data.List.Forall2
import PlatformLayer.Proofs.Methods

/-!
# Comparing actions

Two actions are run from worlds that correspond. They match if they end alike, in worlds that
correspond again, and if what they put on record corresponds moment by moment. Which worlds, states
and thread numbers correspond is up to the comparison.

Matching goes through sequencing, so it has to be shown of single steps only. A method of one of the
objects matches itself as soon as its object reads the same on both sides and is written alike.
-/

namespace PlatformLayer

@[simp] def Happening.thread? : Happening → Option Nat
  | called t _ => some t
  | event (.callbackEntered _ t) => some t
  | _ => none

/-- The same happening, on threads that correspond. -/
inductive Happening.Alike (threads : Nat → Nat → Prop) : Happening → Happening → Prop where
  | same {what : Happening} (hwhat : what.thread? = none) : Alike threads what what
  | called {t t' : Nat} (ht : threads t t') (c : Call) : Alike threads (.called t c) (.called t' c)
  | callbackEntered {t t' : Nat} (ht : threads t t') (k : CallbackId) :
      Alike threads (.event (.callbackEntered k t)) (.event (.callbackEntered k t'))

theorem Happening.Alike.eq {threads : Nat → Nat → Prop} (hthreads : ∀ t t', threads t t' → t = t')
    {what what' : Happening} (halike : what.Alike threads what') : what = what' := by
  cases halike with
  | same => rfl
  | called ht c => rw [hthreads _ _ ht]
  | callbackEntered ht k => rw [hthreads _ _ ht]

structure Comparison (σ τ : Type) where
  worlds : World σ → World τ → Prop
  states : σ → τ → Prop
  threads : Nat → Nat → Prop
  /-- What may happen in the first of two actions for them to be compared at all. -/
  admits : Happening → Prop
  /-- The ways in which the first of two actions may stop. -/
  stops : Stop → Prop
  states_of_worlds : ∀ {w w'}, worlds w w' → states w.state w'.state

namespace Comparison

variable {σ τ α β : Type} (K : Comparison σ τ)

def Moments (m : Moment σ) (m' : Moment τ) : Prop :=
  m.what.Alike K.threads m'.what ∧ K.states m.state m'.state

def Permits : Outcome α → Prop
  | .returned _ => True
  | .halted h => K.stops (.halted h)
  | .hung => K.stops .hung

structure Agree (r : Report σ α) (r' : Report τ α) : Prop where
  outcome : r.outcome = r'.outcome
  permitted : K.Permits r.outcome
  worlds : K.worlds r.world r'.world
  moments : List.Forall₂ K.Moments r.history r'.history

theorem events_eq_of_moments {h : History σ} {h' : History τ}
    (hthreads : ∀ t t', K.threads t t' → t = t') (hmoments : List.Forall₂ K.Moments h h') :
    h.events = h'.events := by
  induction hmoments with
  | nil => rfl
  | cons hm _ ih =>
      simp only [History.events, List.filterMap_cons, hm.1.eq hthreads] at ih ⊢
      rw [ih]

def Matches (x : Action σ α) (y : Action τ α) : Prop :=
  ∀ w w', K.worlds w w' → (∀ m ∈ (x w).history, K.admits m.what) → K.Agree (x w) (y w')

def Reads (cell : Cell σ α) (cell' : Cell τ α) : Prop :=
  ∀ w w', K.worlds w w' → cell.get w.state = cell'.get w'.state

def Writes (cell : Cell σ α) (cell' : Cell τ α) (a : α) : Prop :=
  ∀ w w', K.worlds w w' →
    K.worlds { w with state := cell.set a w.state } { w' with state := cell'.set a w'.state }

/-- This can be found in the cell. -/
def Finds (cell : Cell σ α) (a : α) : Prop := ∃ w w', K.worlds w w' ∧ cell.get w.state = a

namespace Matches

variable {K} {x : Action σ α} {y : Action τ α} {f : α → Action σ β} {g : α → Action τ β}

theorem ret (a : α) : K.Matches (pure a) (pure a) := by
  intro w w' hw _
  exact ⟨rfl, trivial, hw, .nil⟩

theorem bind (hx : K.Matches x y) (hf : ∀ a, K.Matches (f a) (g a)) :
    K.Matches (x >>= f) (y >>= g) := by
  intro w w' hw hadmits
  obtain ⟨a, v, first, hreport⟩ | ⟨stop, v, first, hreport⟩ := (x w).returned_or_stopped
  · rw [Action.bind_of_returned hreport] at hadmits ⊢
    obtain ⟨hfirst, hrest⟩ := List.forall_mem_append.mp hadmits
    have hsame := hx w w' hw
    rw [hreport] at hsame
    obtain ⟨houtcome, -, hworlds, hmoments⟩ := hsame hfirst
    have hreport' : y w' = ⟨.returned a, (y w').world, (y w').history⟩ := by
      rw [show Outcome.returned a = (y w').outcome from houtcome]
    rw [Action.bind_of_returned hreport']
    obtain ⟨houtcome, hpermitted, hworlds, hmoments'⟩ := hf a v (y w').world hworlds hrest
    exact ⟨houtcome, hpermitted, hworlds, List.rel_append hmoments hmoments'⟩
  · rw [Action.bind_of_stopped hreport] at hadmits ⊢
    have hsame := hx w w' hw
    rw [hreport] at hsame
    obtain ⟨houtcome, hpermitted, hworlds, hmoments⟩ := hsame hadmits
    have hreport' : y w' = ⟨stop.outcome, (y w').world, (y w').history⟩ := by
      rw [show stop.outcome = (y w').outcome from houtcome]
    rw [Action.bind_of_stopped hreport']
    refine ⟨rfl, ?_, hworlds, hmoments⟩
    cases stop <;> exact hpermitted

theorem mark {what what' : Happening} (halike : what.Alike K.threads what') :
    K.Matches (Action.mark what) (Action.mark what') := by
  intro w w' hw _
  exact ⟨rfl, trivial, hw, .cons ⟨halike, K.states_of_worlds hw⟩ .nil⟩

theorem log (n : Notice) : K.Matches (Action.log n) (Action.log n) := mark (.same rfl)

theorem halt (halt : Halt) (hstops : K.stops (.halted halt)) :
    K.Matches (Action.halt halt : Action σ α) (Action.halt halt) := by
  apply bind (log (.halting halt))
  intro _ w w' hw _
  exact ⟨rfl, hstops, hw, .nil⟩

theorem hang (hstops : K.stops .hung) : K.Matches (Action.hang : Action σ α) Action.hang := by
  intro w w' hw _
  exact ⟨rfl, hstops, hw, .nil⟩

theorem get_bind {f : World σ → Action σ β} {g : World τ → Action τ β}
    (hf : ∀ w w', K.worlds w w' → K.Matches (f w) (g w')) :
    K.Matches (Action.get >>= f) (Action.get >>= g) :=
  fun w w' hw => hf w w' hw w w' hw

theorem modify {f : World σ → World σ} {g : World τ → World τ}
    (hf : ∀ w w', K.worlds w w' → K.worlds (f w) (g w')) :
    K.Matches (Action.modify f) (Action.modify g) := by
  intro w w' hw _
  exact ⟨rfl, trivial, hf w w' hw, .nil⟩

theorem read_bind {cell : Cell σ α} {cell' : Cell τ α} (hreads : K.Reads cell cell')
    (hf : ∀ a, K.Finds cell a → K.Matches (f a) (g a)) :
    K.Matches (cell.read >>= f) (cell'.read >>= g) := by
  intro w w' hw hadmits
  have hread : (cell'.read >>= g) w' = g (cell.get w.state) w' := by
    rw [hreads w w' hw]
    rfl
  rw [hread]
  exact hf _ ⟨w, w', hw, rfl⟩ w w' hw hadmits

theorem write {cell : Cell σ α} {cell' : Cell τ α} {a : α} (hwrites : K.Writes cell cell' a) :
    K.Matches (cell.write a) (cell'.write a) :=
  modify hwrites

/-- Actions that do what is not admitted need not be alike. -/
theorem of_barred (hbarred : ∀ w, ∃ m ∈ (x w).history, ¬ K.admits m.what) : K.Matches x y := by
  intro w w' _ hadmits
  obtain ⟨m, hm, hnot⟩ := hbarred w
  exact absurd (hadmits m hm) hnot

end Matches

end Comparison

variable {σ τ : Type} {K : Comparison σ τ}

namespace Registry

variable {cell : Cell σ Registry} {cell' : Cell τ Registry} (hreads : K.Reads cell cell')

section Asking

variable {ask : Capability → Action σ Answer} {ask' : Capability → Action τ Answer}
  (hask : ∀ c, K.Matches (ask c) (ask' c))
include hask

theorem matches_askOne (c : Capability) : K.Matches (askOne ask c) (askOne ask' c) := by
  apply Comparison.Matches.bind (.mark (.same rfl))
  intro _
  apply Comparison.Matches.bind (hask c)
  intro answer
  apply Comparison.Matches.bind (.mark (.same rfl))
  intro _
  cases answer with
  | ok present => exact .ret present
  | error failure => exact .bind (.log _) fun _ => .ret false

theorem matches_askAll (cs : List Capability) (s : CapabilitySet) :
    K.Matches (askAll ask cs s) (askAll ask' cs s) := by
  induction cs generalizing s with
  | nil => exact .ret s
  | cons c cs ih => exact .bind (matches_askOne hask c) fun present => ih _

include hreads in
theorem matches_init (hwrites : ∀ r, K.Writes cell cell' r) (hstops : K.stops .hung) :
    K.Matches (init cell ask) (init cell' ask') := by
  refine .read_bind hreads fun r _ => ?_
  obtain ⟨serial, phase⟩ := r
  cases phase with
  | ready s => exact .bind (.log _) fun _ => .ret s
  | probing => exact .hang hstops
  | idle =>
      apply Comparison.Matches.bind (.write (hwrites _))
      intro _
      apply Comparison.Matches.bind (matches_askAll hask Capability.all .empty)
      intro s
      refine .read_bind hreads fun now _ => ?_
      apply Comparison.Matches.bind (.write (hwrites _))
      intro _
      exact .bind (.log _) fun _ => .ret s

end Asking

include hreads

theorem matches_snapshot : K.Matches (snapshot cell) (snapshot cell') :=
  .read_bind hreads fun r _ => .ret r.published

theorem matches_isReady : K.Matches (isReady cell) (isReady cell') :=
  .read_bind hreads fun r _ => .ret r.published.isSome

section Queries

variable (hstops : ∀ halt, K.stops (.halted halt))
include hstops

theorem matches_has (c : Capability) : K.Matches (has cell c) (has cell' c) := by
  refine .read_bind hreads fun r _ => ?_
  cases r.published with
  | some s => exact .ret (s.contains c)
  | none => exact .halt _ (hstops _)

theorem matches_hasBits (bits : UInt32) : K.Matches (hasBits cell bits) (hasBits cell' bits) := by
  unfold hasBits
  cases Capability.ofBits? bits with
  | some c => exact matches_has hreads hstops c
  | none => exact .halt _ (hstops _)

end Queries

end Registry

namespace HandlerSlot

variable {cell : Cell σ HandlerSlot} {cell' : Cell τ HandlerSlot} (hreads : K.Reads cell cell')
include hreads

theorem matches_register {k : HandlerId} (hwrites : K.Writes cell cell' ⟨some k⟩) :
    K.Matches (register cell k) (register cell' k) := by
  refine .read_bind hreads fun slot _ => ?_
  cases slot.handler with
  | none =>
      apply Comparison.Matches.bind (.write hwrites)
      intro _
      exact .bind (.log _) fun _ => .ret _
  | some old => exact .bind (.log _) fun _ => .ret _

theorem matches_getHandler : K.Matches (getHandler cell) (getHandler cell') :=
  .read_bind hreads fun slot _ => .ret slot.handler

theorem matches_isRegistered : K.Matches (isRegistered cell) (isRegistered cell') :=
  .read_bind hreads fun slot _ => .ret slot.handler.isSome

/-- Only a handler that can be in the slot is ever entered. -/
theorem matches_dispatch {enter : HandlerId → Fault → Frame → Action σ (Status × Frame)}
    {enter' : HandlerId → Fault → Frame → Action τ (Status × Frame)} {fault : Fault}
    (henter : ∀ k, K.Finds cell ⟨some k⟩ → ∀ frame,
      K.Matches (enter k fault frame) (enter' k fault frame)) (registers : Registers) :
    K.Matches (dispatch cell enter fault registers) (dispatch cell' enter' fault registers) := by
  have hoffer : K.Matches (offer cell enter fault registers)
      (offer cell' enter' fault registers) := by
    refine .read_bind hreads fun slot hslot => ?_
    obtain ⟨handler⟩ := slot
    cases handler with
    | none => exact .bind (.log _) fun _ => .ret _
    | some k =>
        apply Comparison.Matches.bind (henter k hslot _)
        intro left
        exact .bind (.log _) fun _ => .ret _
  apply Comparison.Matches.bind (.mark (.same rfl))
  intro _
  apply Comparison.Matches.bind hoffer
  intro settled
  exact .bind (.mark (.same rfl)) fun _ => .ret _

end HandlerSlot

namespace ExitSlot

variable {cell : Cell σ ExitSlot} {cell' : Cell τ ExitSlot} (hreads : K.Reads cell cell')
include hreads

theorem matches_setCallback {k : CallbackId} (hwrites : K.Writes cell cell' ⟨some k⟩) :
    K.Matches (setCallback cell k) (setCallback cell' k) := by
  refine .read_bind hreads fun slot _ => ?_
  apply Comparison.Matches.bind (.write hwrites)
  intro _
  cases slot.callback with
  | none => exact .ret none
  | some old => exact .bind (.log _) fun _ => .ret (some old)

theorem matches_clear (hwrites : K.Writes cell cell' ⟨none⟩) :
    K.Matches (clear cell) (clear cell') :=
  .read_bind hreads fun slot _ => .bind (.write hwrites) fun _ => .ret slot.callback

theorem matches_getCallback : K.Matches (getCallback cell) (getCallback cell') :=
  .read_bind hreads fun slot _ => .ret slot.callback

theorem matches_notify {run : CallbackId → Action σ Unit} {run' : CallbackId → Action τ Unit}
    (hrun : ∀ k, K.Finds cell ⟨some k⟩ → K.Matches (run k) (run' k)) :
    K.Matches (notify cell run) (notify cell' run') := by
  refine .read_bind hreads fun slot hslot => ?_
  obtain ⟨callback⟩ := slot
  cases callback with
  | none => exact .ret false
  | some k =>
      apply Comparison.Matches.bind (.log _)
      intro _
      exact .bind (hrun k hslot) fun _ => .ret true

end ExitSlot

end PlatformLayer
