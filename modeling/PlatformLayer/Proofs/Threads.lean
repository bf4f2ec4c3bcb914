import PlatformLayer.Proofs.Pieces
import PlatformLayer.Proofs.Playing
import PlatformLayer.Proofs.RunPassage

/-!
# Which thread makes a call

It does not matter to the layer on which thread a call is made. Code that is run on new threads, one
after another, does what the same code does when the calling thread runs it as many times in a row:
the results, the objects, the contexts and the whole history are the same but for the numbers of
threads. The one place where a thread shows is the callback at its end, and that is entered on the
thread that notified.
-/

namespace PlatformLayer

open History
open Comparison (renumbering Matches)

/-! ### Running code in turn -/

namespace Program

/-- Goes on with `next` where the code would return. -/
def followedBy {ρ : Role} : Program ρ → (ρ.Value → Program ρ) → Program ρ
  | .ret v, next => next v
  | .call op rest, next => .call op fun r => (rest r).followedBy next
  | .init ask skipped rest, next => .init ask skipped fun r => (rest r).followedBy next
  | .spawn n body rest, next => .spawn n body fun r => (rest r).followedBy next
  | .note r rest, next => .note r (rest.followedBy next)
  | .load place rest, next => .load place fun v => (rest v).followedBy next
  | .store place v rest, next => .store place v (rest.followedBy next)
  | .forward fault rest, next => .forward fault fun r => (rest r).followedBy next

/-- Runs `body` so many times in a row and gathers what it returns each time. -/
def inTurn (body : Program .thread) :
    Nat → (List (List Reply) → Program .thread) → Program .thread
  | 0, next => next []
  | n + 1, next =>
    body.followedBy fun replies => inTurn body n fun rest => next (replies :: rest)

/-- Starts `n` threads, one after another, that each run `body` to its end. -/
def onThreads (n : Nat) (body : Program .thread) : Program .thread :=
  .spawn n body fun r => .ret [r]

example (n : Nat) (moves : List (Script.Move .thread)) :
    onThreads n (Script.gathering [] moves)
      = (Script.threads n moves : Script.Move .thread) fun r => .ret [r] := rfl

/-- Runs `body` `n` times on the calling thread, and replies in the same form. -/
def onCaller (n : Nat) (body : Program .thread) : Program .thread :=
  body.inTurn n fun results => .ret [.threads results]

end Program

namespace Setting

variable {σ : Type} (S : Setting σ) (inner : Option (Runner σ)) (t : Nat)

theorem exec_followedBy {ρ : Role} (program : Program ρ) (next : ρ.Value → Program ρ)
    (own : ρ.Local) :
    S.exec inner t (program.followedBy next) own
      = S.exec inner t program own >>= fun r => S.exec inner t (next r.1) r.2 := by
  induction program with
  | ret v => rfl
  | call op rest ih =>
      simp only [Program.followedBy, exec, bind_assoc]
      exact bind_congr fun r => ih r next own
  | init ask skipped rest _ ih =>
      simp only [Program.followedBy, exec, bind_assoc]
      exact bind_congr fun r => ih r next own
  | spawn n body rest _ ih =>
      simp only [Program.followedBy, exec, bind_assoc]
      exact bind_congr fun results => ih _ next own
  | note r rest ih =>
      simp only [Program.followedBy, exec, bind_assoc]
      exact bind_congr fun _ => ih next own
  | load place rest ih =>
      simp only [Program.followedBy, exec]
      exact ih _ next own
  | store place v rest ih =>
      simp only [Program.followedBy, exec, bind_assoc]
      exact bind_congr fun _ => ih next _
  | forward fault rest ih =>
      simp only [Program.followedBy, exec, bind_assoc]
      exact bind_congr fun r => ih r.1 next r.2

def repeatBody (body : Program .thread) : Nat → Action σ (List (List Reply))
  | 0 => pure []
  | n + 1 => do
    let first ← S.execBody inner t body
    let rest ← repeatBody body n
    pure (first :: rest)

theorem exec_inTurn (body : Program .thread) (n : Nat)
    (next : List (List Reply) → Program .thread) :
    S.exec inner t (body.inTurn n next) ()
      = S.repeatBody inner t body n >>= fun results => S.exec inner t (next results) () := by
  induction n generalizing next with
  | zero => rfl
  | succ n ih =>
      refine (S.exec_followedBy inner t body _ ()).trans ?_
      rw [repeatBody, execBody]
      simp only [bind_assoc, pure_bind]
      exact bind_congr fun r => ih _

end Setting

/-! ### The same code on other threads -/

section OtherThreads

variable {scope : Scope} {clients : Clients} {host : Capability → Bool}
  {inner : Option (Runner scope.State)}
  (hinner : Renumbering.RunsAll scope scope .any (fun _ => True) inner inner)
include hinner

theorem matches_startBodies (t : Nat) (body : Program .thread) (n : Nat) :
    (renumbering scope scope .any fun _ => True).Matches
      ((scope.setting clients host).startBodies inner body n)
      ((scope.setting clients host).repeatBody inner t body n) := by
  have hbody : ∀ u, (renumbering scope scope .any fun _ => True).Matches
      ((scope.setting clients host).execBody inner u body)
      ((scope.setting clients host).execBody inner t body) := fun u =>
    .bind (Renumbering.matches_exec (Or.inl rfl) hinner body trivial ()) fun r => .ret r.1
  induction n with
  | zero => exact .ret []
  | succ n ih =>
      intro w w' hw hadmits
      -- only the thread that is started counts it
      have hcounted : World.Like (fun _ _ => True) { w with threads := w.threads + 1 } w' :=
        ⟨hw.objects, hw.contexts, trivial⟩
      have hrest := fun first => Matches.bind ih fun rest => .ret (first :: rest)
      exact (hbody (w.threads + 1)).bind hrest _ w' hcounted hadmits

theorem matches_onThreads (t : Nat) (body : Program .thread) (n : Nat) :
    (renumbering scope scope .any fun _ => True).Matches
      ((scope.setting clients host).exec inner t (.onThreads n body) ())
      ((scope.setting clients host).exec inner t (.onCaller n body) ()) := by
  rw [Program.onCaller, Setting.exec_inTurn]
  exact .bind (matches_startBodies hinner t body n) fun results => .ret _

end OtherThreads

def Happening.unnumbered : Happening → Happening
  | called _ c => called 0 c
  | event (.callbackEntered k _) => event (.callbackEntered k 0)
  | what => what

theorem Happening.Alike.unnumbered {threads : Nat → Nat → Prop} {what what' : Happening}
    (halike : what.Alike threads what') : what.unnumbered = what'.unnumbered := by
  cases halike <;> rfl

namespace History

variable {scope : Scope}

def unnumbered (h : History Objects) : History Objects :=
  h.map fun m => ⟨m.what.unnumbered, m.state⟩

def threads {σ : Type} (h : History σ) : List Nat := h.filterMap fun m => m.what.thread?

theorem unnumbered_eq_of_moments {N : Numbering} {admits : Happening → Prop}
    {h h' : History scope.State}
    (hmoments : List.Forall₂ (renumbering scope scope N admits).Moments h h') :
    h.seen.unnumbered = h'.seen.unnumbered := by
  induction hmoments with
  | nil => rfl
  | cons hm _ ih =>
      have hstate : Scope.objects _ = Scope.objects _ := hm.2
      rw [seen_cons, seen_cons, unnumbered, unnumbered, List.map_cons, List.map_cons,
        hm.1.unnumbered, hstate]
      exact congrArg _ ih

/-- Callbacks are entered on the thread that notified: each of them right after the call, and each
call enters the callback that it finds. -/
structure EntersOnCaller (h : History Objects) : Prop where
  entered : ∀ before k u x after, h = before ++ ⟨.event (.callbackEntered k u), x⟩ :: after →
    x.exitSlot.callback = some k ∧ ∃ front, before = front ++
      [⟨.called u (.operation .notify), x⟩, ⟨.event (.logged .exitCallbackRunning), x⟩]
  enters : ∀ u k x after, ⟨.called u (.operation .notify), x⟩ :: after <:+ h →
    x.exitSlot.callback = some k → ∃ rest, after =
      ⟨.event (.logged .exitCallbackRunning), x⟩ :: ⟨.event (.callbackEntered k u), x⟩ :: rest

end History

section Callbacks

variable {scope : Scope} {part : Part} {o o' : Objects} {e : Outcome Unit} {h : History Objects}
  {k : CallbackId} {u : Nat} {x : Objects}

theorem Piece.of_callbackEntered {before after : History Objects}
    (piece : Piece scope (before ++ ⟨.event (.callbackEntered k u), x⟩ :: after)) :
    x.exitSlot.callback = some k ∧ before =
      [⟨.called u (.operation .notify), x⟩, ⟨.event (.logged .exitCallbackRunning), x⟩] := by
  generalize hp : before ++ ⟨.event (.callbackEntered k u), x⟩ :: after = p at piece
  have hmem : ⟨.event (.callbackEntered k u), x⟩ ∈ p := by simp [← hp]
  cases piece with
  | alone halone =>
      rw [← List.mem_singleton.mp hmem] at halone
      exact absurd halone Bool.false_ne_true
  | prompt hprompt => simp [logging] at hmem
  | fatal hfatal => simp at hmem
  | published hinit => simp at hmem
  | answered => simp [logging] at hmem
  | entered hslot =>
      rcases site_in_three hp with ⟨-, hfirst, -⟩ | ⟨-, hsecond, -⟩ | ⟨rfl, hthird, -⟩
      · cases hfirst
      · cases hsecond
      · cases hthird
        exact ⟨hslot, rfl⟩

theorem Passage.notify_site (hpassage : Passage scope part o e o' h) {after : History Objects}
    (hsite : ⟨.called u (.operation .notify), x⟩ :: after <:+ h)
    (hslot : x.exitSlot.callback = some k) :
    ∃ rest, after = ⟨.event (.logged .exitCallbackRunning), x⟩ ::
      ⟨.event (.callbackEntered k u), x⟩ :: rest := by
  obtain ⟨frame, left, e', x', body, rest, hcall, rfl, -⟩ := hpassage.call_site hsite
  cases hcall with
  | prompt hprompt =>
      cases hprompt with
      | kept hinit => exact absurd hinit Bool.false_ne_true
      | unnotified hempty => exact absurd (hempty.symm.trans hslot) nofun
      | absent _ howner => exact absurd howner Bool.false_ne_true
  | fatal hfatal => cases hfatal
  | waiting hinit => exact absurd hinit Bool.false_ne_true
  | init hinit => exact absurd hinit Bool.false_ne_true
  | initStuck hinit => exact absurd hinit Bool.false_ne_true
  | notify hfull body =>
      obtain rfl := Option.some.inj (hfull.symm.trans hslot)
      exact ⟨_, rfl⟩

theorem Passage.entersOnCaller (hpassage : Passage scope part o e o' h) : h.EntersOnCaller where
  entered before k u x after hsplit := by
    obtain ⟨front, left, right, back, piece, rfl, rfl⟩ := hpassage.pieced.site hsplit
    obtain ⟨hslot, rfl⟩ := piece.of_callbackEntered
    exact ⟨hslot, front, rfl⟩
  enters u k x after hsite hslot := hpassage.notify_site hsite hslot

end Callbacks

/-! ### The threads that are named -/

/-- Threads have the same numbers on both sides, and only `allowed` threads are named. -/
def Numbering.among (allowed : Nat → Prop) (base : Nat) (hnew : ∀ n, base ≤ n → allowed (n + 1)) :
    Numbering where
  threads t t' := t = t' ∧ allowed t
  counts n n' := n = n' ∧ base ≤ n
  threads_next h := ⟨congrArg (· + 1) h.1, hnew _ h.2⟩
  counts_next h := ⟨congrArg (· + 1) h.1, Nat.le_succ_of_le h.2⟩

theorem Happening.Alike.named {threads : Nat → Nat → Prop} {what what' : Happening}
    (halike : what.Alike threads what') {u : Nat} (hu : what.thread? = some u) :
    ∃ u', threads u u' := by
  cases halike with
  | same hnone => exact absurd (hnone.symm.trans hu) nofun
  | called ht => exact ⟨_, Option.some.inj hu ▸ ht⟩
  | callbackEntered ht => exact ⟨_, Option.some.inj hu ▸ ht⟩

section Named

variable {scope : Scope} {allowed : Nat → Prop} {w : World scope.State}
  (hnew : ∀ n, w.threads ≤ n → allowed (n + 1))

/-- Code that matches itself in this way names only threads that are allowed. -/
theorem threads_of_matches {α : Type} {x : Action scope.State α}
    (hx : (renumbering scope scope (.among allowed w.threads hnew) fun _ => True).Matches x x) :
    ∀ u ∈ (x w).history.seen.threads, allowed u := by
  have hmoments := (hx w w ⟨rfl, rfl, rfl, Nat.le_refl _⟩ fun _ _ => trivial).moments
  intro u hu
  obtain ⟨_, hseen, hthread⟩ := List.mem_filterMap.mp hu
  obtain ⟨m, hm, rfl⟩ := List.mem_map.mp hseen
  obtain ⟨u', -, hallowed⟩ := (List.forall₂_same.mp hmoments m hm).1.named hthread
  exact hallowed

variable (clients : Clients) (host : Capability → Bool) (depth t n : Nat) (body : Program .thread)
  (w : World scope.State)

theorem threads_onThreads :
    let report := (scope.setting clients host).runThread depth t (.onThreads n body) w
    ∀ u ∈ report.history.seen.threads, w.threads < u := by
  intro report
  have hnew : ∀ n, w.threads ≤ n → w.threads < n + 1 := fun n hn => Nat.lt_succ_of_le hn
  unfold report
  rw [Setting.runThread_eq_exec]
  refine threads_of_matches hnew (.bind ?_ fun results => .ret _)
  refine Renumbering.matches_threads (fun ht => ?_) n
  exact Renumbering.matches_exec (Or.inl rfl)
    (runsAll_innerAt (Or.inl rfl) clients host depth) body ht ()

theorem threads_onCaller :
    let report := (scope.setting clients host).runThread depth t (.onCaller n body) w
    ∀ u ∈ report.history.seen.threads, u = t ∨ w.threads < u := by
  intro report
  have hnew : ∀ n, w.threads ≤ n → n + 1 = t ∨ w.threads < n + 1 :=
    fun n hn => Or.inr (Nat.lt_succ_of_le hn)
  have hcaller : (Numbering.among (fun u => u = t ∨ w.threads < u) w.threads hnew).threads t t :=
    ⟨rfl, Or.inl rfl⟩
  exact threads_of_matches hnew
    (matches_runAt (Or.inl rfl) clients host depth (.onCaller n body) hcaller ())

end Named

/-- **It does not matter which thread makes a call.** From any state, code that is run to its end on
`n` new threads, one after another, gives what it gives when the calling thread runs it `n` times in
a row: the same replies, or the same halt, the same objects and contexts, and the same history but
for the numbers of threads. Either way a callback is entered on the thread that notified. -/
theorem calls_alike_on_any_thread (scope : Scope) (clients : Clients) (host : Capability → Bool)
    (depth t n : Nat) (body : Program .thread) (w : World scope.State) :
    let started := ((scope.setting clients host).runThread depth t (.onThreads n body) w).seen
    let inTurn := ((scope.setting clients host).runThread depth t (.onCaller n body) w).seen
    started.outcome = inTurn.outcome ∧
      started.world.state = inTurn.world.state ∧
      started.world.contexts = inTurn.world.contexts ∧
      started.history.unnumbered = inTurn.history.unnumbered ∧
      (started.history.EntersOnCaller ∧ ∀ u ∈ started.history.threads, w.threads < u) ∧
      inTurn.history.EntersOnCaller ∧ ∀ u ∈ inTurn.history.threads, u = t ∨ w.threads < u := by
  -- the two runs start from one world, but count threads differently from the first one on
  have hmatches : (renumbering scope scope .any fun _ => True).Matches
      ((scope.setting clients host).runThread depth t (.onThreads n body))
      ((scope.setting clients host).runThread depth t (.onCaller n body)) := by
    rw [Setting.runThread_eq_exec, Setting.runThread_eq_exec]
    exact matches_onThreads (runsAll_innerAt (Or.inl rfl) clients host depth) t body n
  have hsound : ∀ program : Program .thread,
      ((scope.setting clients host).runThread depth t program w).history.seen.EntersOnCaller :=
    fun program =>
    (Follows.passage (sound_runAt scope clients host depth .thread t program ()) w).entersOnCaller
  obtain ⟨houtcome, -, hworlds, hmoments⟩ := hmatches w w ⟨rfl, rfl, trivial⟩ fun _ _ => trivial
  refine ⟨houtcome, hworlds.objects, hworlds.contexts, unnumbered_eq_of_moments hmoments, ?_, ?_⟩
  · exact ⟨hsound _, threads_onThreads clients host depth t n body w⟩
  · exact ⟨hsound _, threads_onCaller clients host depth t n body w⟩

end PlatformLayer
