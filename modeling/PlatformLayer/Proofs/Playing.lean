import PlatformLayer.Proofs.ComparedRuns
import PlatformLayer.Script.Scenario

/-!
# Moves made in turn

What is played is a list of replies and events. Behind it there is a report for every move, with the
world that the move leaves and its whole history, and reports can be compared move by move. A stage
is what is settled before the first move.
-/

namespace PlatformLayer

/-- A world as its three objects. -/
def World.seen {scope : Scope} (w : World scope.State) : World Objects :=
  ⟨Scope.objects w.state, w.contexts, w.threads⟩

/-- A report as the three objects go through it. -/
def Report.seen {scope : Scope} {α : Type} (report : Report scope.State α) : Report Objects α :=
  ⟨report.outcome, report.world.seen, report.history.seen⟩

theorem History.events_seen {scope : Scope} (h : History scope.State) :
    h.seen.events = h.events := by
  rw [seen, events, events, List.filterMap_map]
  rfl

namespace Script

variable {σ τ : Type}

def make (S : Setting σ) (depth : Nat) (move : Move .thread) : Action σ (List Reply × Unit) :=
  S.runThread depth mainThread (move fun r => .ret [r])

/-- The reports of moves made in turn, up to the first that does not return. -/
def reports (S : Setting σ) (depth : Nat) :
    List (Move .thread) → World σ → List (Report σ (List Reply × Unit))
  | [], _ => []
  | move :: rest, w =>
    make S depth move w :: match (make S depth move w).outcome with
      | .returned _ => reports S depth rest (make S depth move w).world
      | _ => []

def Played.ofReport (report : Report σ (List Reply × Unit)) : Played :=
  match report.outcome with
  | .returned (replies, _) => .replied (replies.headD .done) report.history.events
  | .halted h => .halted h report.history.events
  | .hung => .hung report.history.events

theorem play_eq_map_reports (S : Setting σ) (depth : Nat) (moves : List (Move .thread))
    (w : World σ) : play S depth moves w = (reports S depth moves w).map Played.ofReport := by
  induction moves generalizing w with
  | nil => rfl
  | cons move rest ih =>
      rw [reports, List.map_cons, Played.ofReport]
      obtain ⟨r, v, h, hreport⟩ | ⟨stop, v, h, hreport⟩ := (make S depth move w).returned_or_stopped
      · rw [hreport]
        change _ = _ :: List.map Played.ofReport (reports S depth rest v)
        rw [← ih v]
        unfold make Setting.runThread at hreport
        rw [play, hreport]
      · unfold make Setting.runThread at hreport
        rw [play]
        cases stop <;> rw [make, Setting.runThread, hreport] <;> rfl

/-- The world that is left when moves have been made in turn. -/
def leaves (S : Setting σ) (depth : Nat) : List (Move .thread) → World σ → World σ
  | [], w => w
  | move :: rest, w =>
    match (make S depth move w).outcome with
    | .returned _ => leaves S depth rest (make S depth move w).world
    | _ => (make S depth move w).world

section Returned

variable {S : Setting σ} {depth : Nat} {move : Move .thread} {w v : World σ} {h : History σ}
  {r : List Reply × Unit} (hmake : make S depth move w = ⟨.returned r, v, h⟩)
include hmake

theorem play_cons_of_returned (rest : List (Move .thread)) :
    play S depth (move :: rest) w
      = .replied (r.1.headD .done) h.events :: play S depth rest v := by
  rw [play_eq_map_reports, play_eq_map_reports, reports, hmake]
  rfl

theorem leaves_cons_of_returned (rest : List (Move .thread)) :
    leaves S depth (move :: rest) w = leaves S depth rest v := by
  rw [leaves, hmake]

end Returned

/-- Moves that match one by one are reported alike in turn. -/
theorem agree_reports {K : Comparison σ τ} {S : Setting σ} {S' : Setting τ} {depth : Nat}
    {moves : List (Move .thread)}
    (hmoves : ∀ move ∈ moves, K.Matches (make S depth move) (make S' depth move))
    {w : World σ} {w' : World τ} (hw : K.worlds w w')
    (hadmits : ∀ report ∈ reports S depth moves w, ∀ m ∈ report.history, K.admits m.what) :
    List.Forall₂ K.Agree (reports S depth moves w) (reports S' depth moves w') := by
  induction moves generalizing w w' with
  | nil => exact .nil
  | cons move rest ih =>
      obtain ⟨hmove, hrest⟩ := List.forall_mem_cons.mp hmoves
      rw [reports] at hadmits
      obtain ⟨hfirst, hlater⟩ := List.forall_mem_cons.mp hadmits
      have hagree := hmove w w' hw hfirst
      refine .cons hagree ?_
      rw [← hagree.outcome]
      cases houtcome : (make S depth move w).outcome with
      | returned r =>
          rw [houtcome] at hlater
          exact ih hrest hagree.worlds hlater
      | halted h => exact .nil
      | hung => exact .nil

/-- What is settled before the first move on a new layer. -/
structure Stage where
  clients : Clients
  host : Capability → Bool
  contexts : List Registers
  threads : Nat
  depth : Nat

namespace Stage

variable (stage : Stage) (scope : Scope) (moves : List (Move .thread))

def setting : Setting scope.State := scope.setting stage.clients stage.host

def start : World scope.State := ⟨scope.initial, stage.contexts, stage.threads⟩

def reports : List (Report Objects (List Reply × Unit)) :=
  (Script.reports (stage.setting scope) stage.depth moves (stage.start scope)).map Report.seen

def play : List Played := Script.play (stage.setting scope) stage.depth moves (stage.start scope)

def leaves : World Objects :=
  (Script.leaves (stage.setting scope) stage.depth moves (stage.start scope)).seen

theorem play_eq : stage.play scope moves = (stage.reports scope moves).map Played.ofReport := by
  rw [play, play_eq_map_reports, reports, List.map_map]
  refine List.map_congr_left fun report _ => ?_
  rw [Function.comp_apply, Played.ofReport, Played.ofReport, Report.seen, History.events_seen]

end Stage

end Script

end PlatformLayer
