import PlatformLayer.Host
import PlatformLayer.Program.Exec
import PlatformLayer.Script.Basic

/-!
# Scenarios

A scenario sets up contexts, scripted handlers and callbacks, and makes moves on the main thread
one after another. Each move is answered with its reply and the events it caused. A move that does
not return is the last one answered.
-/

namespace PlatformLayer.Script

structure Scenario where
  host : Host
  contexts : List Registers
  handlers : List (List Rule)
  callbacks : List (List (Move .callback))
  moves : List (Move .thread)

/-- How a move went, with the events of that move. -/
inductive Played where
  | replied (r : Reply) (events : List Event)
  | halted (h : Halt) (events : List Event)
  | hung (events : List Event)

/-- The main thread has the number zero. -/
def mainThread : Nat := 0

/-- Makes moves in turn until one does not return. -/
def play {σ : Type} (S : Setting σ) (depth : Nat) : List (Move .thread) → World σ → List Played
  | [], _ => []
  | move :: rest, w =>
    let report := S.runAt depth .thread mainThread (move fun r => .ret [r]) () w
    let events := report.history.events
    match report.outcome with
    | .returned (replies, _) =>
      .replied (replies.headD .done) events :: play S depth rest report.world
    | .halted h => [.halted h events]
    | .hung => [.hung events]

namespace Scenario

/-- Probes, handlers and callbacks nest this deep; any further in they are passed over. -/
def nesting : Nat := 4

variable {σ : Type}

def setting (scenario : Scenario) (interface : Interface σ) : Setting σ where
  interface := interface
  clients := clients scenario.handlers scenario.callbacks
  host := scenario.host.offers

def start (scenario : Scenario) (state : σ) : World σ := ⟨state, scenario.contexts, 0⟩

/-- Plays the scenario on three new objects. -/
def playOwned (scenario : Scenario) : List Played :=
  play (scenario.setting Interface.objects) nesting scenario.moves (scenario.start .new)

/-- Plays the scenario on the entry points of a new process. -/
def playShared (scenario : Scenario) : List Played :=
  play (scenario.setting Interface.process) nesting scenario.moves (scenario.start .initial)

end Scenario

end PlatformLayer.Script
