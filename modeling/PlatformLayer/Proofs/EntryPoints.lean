import PlatformLayer.Proofs.CallSites
import PlatformLayer.Proofs.Playing

/-!
# The entry points of a process

The objects of a process come into being at the first use, and clients reach them through eight
entry points. A client that keeps to these cannot tell them from three objects of its own: every
move gives the same reply, the same history and the same contexts, and halts in the same place. What
a move sets off, probes, handlers, callbacks and threads that call back, is covered with it.
-/

namespace PlatformLayer

variable {scope scope' : Scope} {α : Type}

/-- A call that only an owner's objects answer. -/
def Happening.byOwner : Happening → Bool
  | called _ (.operation op) => op.ownerOnly
  | _ => false

namespace Comparison

/-- Only calls that both kinds of client can make are admitted. -/
def common (scope scope' : Scope) : Comparison scope.State scope'.State :=
  renumbering scope scope' .same fun what => what.byOwner = false

theorem sharesCalls_common (scope scope' : Scope) :
    Renumbering.SharesCalls scope scope' fun what => what.byOwner = false := by
  refine Or.inr fun t op howner hadmitted => ?_
  exact Bool.noConfusion (howner.symm.trans hadmitted)

theorem seen_eq_of_moments {h : History scope.State} {h' : History scope'.State}
    (hmoments : List.Forall₂ (common scope scope').Moments h h') : h.seen = h'.seen := by
  induction hmoments with
  | nil => rfl
  | cons hm _ ih =>
      have hwhat := hm.1.eq fun _ _ => id
      have hstate : Scope.objects _ = Scope.objects _ := hm.2
      rw [History.seen_cons, History.seen_cons, ih, hwhat, hstate]

theorem seen_eq_of_agree {r : Report scope.State α} {r' : Report scope'.State α}
    (hagree : (common scope scope').Agree r r') : r.seen = r'.seen := by
  obtain ⟨houtcome, -, hworlds, hmoments⟩ := hagree
  have hthreads : r.world.threads = r'.world.threads := hworlds.counts
  rw [Report.seen, Report.seen, World.seen, World.seen, houtcome, hworlds.objects,
    hworlds.contexts, hthreads, seen_eq_of_moments hmoments]

end Comparison

namespace Script

def Scenario.stage (scenario : Scenario) : Stage :=
  ⟨clients scenario.handlers scenario.callbacks, scenario.host.offers, scenario.contexts, 0,
    nesting⟩

example (scenario : Scenario) :
    scenario.playShared = scenario.stage.play .shared scenario.moves ∧
      scenario.playOwned = scenario.stage.play .own scenario.moves := ⟨rfl, rfl⟩

/-- **The entry points refine the three objects.** As long as a client on one side makes only calls
that both sides offer, it gets on the other side, move by move, the same results or the same halt,
the same history of events, calls and replies through the same states, and the same contexts. -/
theorem Stage.entry_points_refine_objects (stage : Stage) (scope scope' : Scope)
    (moves : List (Move .thread))
    (hcommon : ∀ report ∈ stage.reports scope moves,
      History.Lacks Happening.byOwner report.history) :
    stage.reports scope' moves = stage.reports scope moves ∧
      stage.play scope' moves = stage.play scope moves := by
  have hadmits : ∀ report ∈ Script.reports (stage.setting scope) stage.depth moves
      (stage.start scope), ∀ m ∈ report.history, m.what.byOwner = false := by
    intro report hreport m hm
    exact hcommon report.seen (List.mem_map_of_mem hreport) _ (List.mem_map_of_mem hm)
  have hmoves : ∀ move ∈ moves, (Comparison.common scope scope').Matches
      (make (stage.setting scope) stage.depth move)
      (make (stage.setting scope') stage.depth move) :=
    fun move _ => matches_runAt (Comparison.sharesCalls_common scope scope') stage.clients
      stage.host stage.depth (move fun r => .ret [r]) rfl ()
  have hstart : World.Like Eq (stage.start scope) (stage.start scope') :=
    ⟨(Scope.objects_initial scope).trans (Scope.objects_initial scope').symm, rfl, rfl⟩
  have hreports : stage.reports scope' moves = stage.reports scope moves := by
    symm
    rw [← List.forall₂_eq_eq_eq, Stage.reports, Stage.reports, List.forall₂_map_left_iff,
      List.forall₂_map_right_iff]
    exact (agree_reports hmoves hstart hadmits).imp fun _ _ => Comparison.seen_eq_of_agree
  exact ⟨hreports, by rw [Stage.play_eq, Stage.play_eq, hreports]⟩

/-- Client code that calls back: handlers install a callback and hand the fault on, callbacks
install the next one and start a thread that ends as well. -/
def Stage.recursive : Stage where
  clients :=
    { handler := fun k fault =>
        ⟨.call (.setExit k) fun _ => .forward ⟨fault.code, 0⟩ fun _ => .ret .continueExecution,
          .continueSearch⟩
      callback := fun k =>
        .call (.setExit (k + 1)) fun _ => .spawn 1 (.call .notify fun r => .ret [r]) fun _ =>
          .ret () }
  host := fun _ => true
  contexts := [.resumeAt 0x1000 0x2000]
  threads := 0
  depth := 2

/-- Start-up with a probe that calls back, a fault, the end of a thread and a query. -/
def recursiveMoves : List (Move .thread) :=
  [.init (fun _ => .call (.register 4) fun _ => .call .snapshot fun _ => .ret (.ok true))
      (fun _ => .ok false),
    .call (.dispatch ⟨0xC0000005, 0x10⟩ 0), .call .notify, .call (.has .writeWatch)]

theorem Stage.entry_points_refine_objects_recursive :
    (∀ report ∈ Stage.recursive.reports .shared recursiveMoves,
        History.Lacks Happening.byOwner report.history) ∧
      Stage.recursive.reports .own recursiveMoves = Stage.recursive.reports .shared recursiveMoves ∧
      Stage.recursive.play .own recursiveMoves = Stage.recursive.play .shared recursiveMoves ∧
      (Stage.recursive.play .shared recursiveMoves).length = 4 := by
  have hcommon : ∀ report ∈ Stage.recursive.reports .shared recursiveMoves,
      History.Lacks Happening.byOwner report.history := by
    unfold History.Lacks
    decide
  obtain ⟨hreports, hplay⟩ := Stage.entry_points_refine_objects Stage.recursive .shared .own
    recursiveMoves hcommon
  exact ⟨hcommon, hreports, hplay, rfl⟩

end Script

end PlatformLayer
