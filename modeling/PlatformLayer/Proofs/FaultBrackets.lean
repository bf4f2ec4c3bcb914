import PlatformLayer.Proofs.Activations
import PlatformLayer.Proofs.StartUp

/-!
# Faults in brackets

Of all that can be seen of a run, only the entries into handlers and the lines on what handlers
returned are kept. In a run that comes to its end these are well bracketed: each entry is closed by
one line, about the same fault, with the status that this activation returned, and what lies in
between is bracketed in turn. A run that halts shows a beginning of such a word.
-/

namespace PlatformLayer

open History

inductive Bracket where
  | opened (k : HandlerId) (f : Fault) (frame : Frame)
  | closed (f : Fault) (status : Status)

@[simp] def Event.bracket? : Event → Option Bracket
  | handlerEntered k f frame => some (.opened k f frame)
  | logged (.faultHandled f status) => some (.closed f status)
  | _ => none

inductive Bracketed : List Bracket → Prop where
  | nil : Bracketed []
  | nest {k : HandlerId} {f : Fault} {frame : Frame} {status : Status} {inside rest : List Bracket}
      (hinside : Bracketed inside) (hrest : Bracketed rest) :
      Bracketed (.opened k f frame :: (inside ++ .closed f status :: rest))

theorem Bracketed.append {word word' : List Bracket} (hfirst : Bracketed word)
    (hrest : Bracketed word') : Bracketed (word ++ word') := by
  induction hfirst with
  | nil => exact hrest
  | nest hinside _ _ ih =>
      rw [List.cons_append, List.append_assoc, List.cons_append]
      exact .nest hinside ih

/-- What becomes of a fault at first: a handler is entered for it, or nobody claims it. -/
inductive Finding where
  | claimed (k : HandlerId) (f : Fault)
  | unclaimed (code : UInt64)

@[simp] def Finding.isClaimed : Finding → Bool
  | claimed _ _ => true
  | unclaimed _ => false

/-- What a fault finds that is raised while this is in the slot. -/
@[simp] def Fault.finding (f : Fault) : Option HandlerId → Finding
  | some k => .claimed k f
  | none => .unclaimed f.code

@[simp] def Event.finding? : Event → Option Finding
  | handlerEntered k f _ => some (.claimed k f)
  | logged (.faultUnclaimed code) => some (.unclaimed code)
  | _ => none

def Moment.finding? : Moment Objects → Option Finding
  | ⟨.called _ c, o⟩ => c.raises?.map fun f => f.finding o.handlerSlot.handler
  | _ => none

namespace History

variable {σ : Type}

def brackets (h : History σ) : List Bracket := h.events.filterMap Event.bracket?

/-- What can be seen of the faults of a run, in order. -/
def found (h : History σ) : List Finding := h.events.filterMap Event.finding?

/-- What the faults of a run are due to find, in order, by what is registered when they are raised.
-/
def raised (h : History Objects) : List Finding := h.filterMap Moment.finding?

@[simp] theorem brackets_append (h h' : History σ) :
    brackets (h ++ h') = brackets h ++ brackets h' := by
  simp [brackets]

@[simp] theorem found_append (h h' : History σ) : found (h ++ h') = found h ++ found h' := by
  simp [found]

@[simp] theorem raised_append (h h' : History Objects) :
    raised (h ++ h') = raised h ++ raised h' := by
  simp [raised]

end History

theorem Event.unseen_of_quiet {e : Event} (hquiet : Happening.ofFault (.event e) = false) :
    e.bracket? = none ∧ e.finding? = none := by
  cases e with
  | handlerEntered k f frame => exact absurd hquiet.symm Bool.false_ne_true
  | logged n =>
      cases n with
      | faultUnclaimed code => exact absurd hquiet.symm Bool.false_ne_true
      | faultHandled f status => exact absurd hquiet.symm Bool.false_ne_true
      | _ => exact ⟨rfl, rfl⟩
  | _ => exact ⟨rfl, rfl⟩

theorem History.Lacks.unseen {h : History Objects} (hquiet : Lacks Happening.ofFault h) :
    brackets h = [] ∧ found h = [] ∧ raised h = [] := by
  have hevents : ∀ e ∈ h.events, e.bracket? = none ∧ e.finding? = none := by
    intro e he
    obtain ⟨⟨what, x⟩, hm, hevent⟩ := List.mem_filterMap.mp he
    cases what with
    | event e' =>
        obtain rfl := Option.some.inj hevent
        exact Event.unseen_of_quiet (hquiet _ hm)
    | _ => exact absurd hevent.symm (Option.some_ne_none e)
  refine ⟨List.filterMap_eq_nil_iff.mpr fun e he => (hevents e he).1,
    List.filterMap_eq_nil_iff.mpr fun e he => (hevents e he).2,
    List.filterMap_eq_nil_iff.mpr fun m hm => ?_⟩
  obtain ⟨what, x⟩ := m
  cases what with
  | called t c =>
      have hraises := Option.isNone_iff_eq_none.mp (Option.isSome_eq_false_iff.mp (hquiet _ hm))
      simp [Moment.finding?, hraises]
  | _ => rfl

namespace Nesting

variable {frame left : Option Frame} {e : Outcome Unit} {h : History Objects}

/-- Entries and the lines that close them are bracketed. What a stretch that stops leaves open could
still be closed. -/
theorem bracketed (hnesting : Nesting frame left e h) :
    ∃ tail, Bracketed (brackets h ++ tail) ∧ (e = .returned () → tail = []) := by
  induction hnesting with
  | quiet hquiet =>
      rw [hquiet.unseen.1]
      exact ⟨[], .nil, fun _ => rfl⟩
  | stored => exact ⟨[], .nil, fun _ => rfl⟩
  | append _ _ ihfirst ihrest =>
      obtain ⟨tail, hfirst, hclosed⟩ := ihfirst
      obtain ⟨tail', hrest, hclosed'⟩ := ihrest
      rw [hclosed rfl, List.append_nil] at hfirst
      refine ⟨tail', ?_, hclosed'⟩
      rw [brackets_append, List.append_assoc]
      exact hfirst.append hrest
  | stuck _ _ ih => exact ih
  | elsewhere _ ih => exact ih
  | unclaimed _ _ _ => exact ⟨[], .nil, fun _ => rfl⟩
  | @handled t c f registers k status left r _ _ o o' e h _ _ _ _ ih =>
      obtain ⟨tail, hbody, hclosed⟩ := ih
      have hnest : Bracketed (.opened k f (Frame.enter registers) ::
          (brackets h ++ tail ++ [.closed f status])) := .nest hbody .nil
      -- a handler in which the run stops is left open, whatever is open within it
      by_cases hreturned : e = .returned ()
      · subst hreturned
        rw [hclosed rfl, List.append_nil] at hnest
        refine ⟨[], ?_, fun _ => rfl⟩
        simpa [brackets, events, entering, leaving, Happening.event?] using hnest
      · refine ⟨tail ++ [.closed f status], ?_, fun h => absurd h hreturned⟩
        rw [closing_of_stuck hreturned]
        simpa [brackets, events, entering, Happening.event?] using hnest

/-- Each fault finds what is registered when it is raised. -/
theorem found_eq_raised (hnesting : Nesting frame left e h) : found h = raised h := by
  induction hnesting with
  | quiet hquiet => rw [hquiet.unseen.2.1, hquiet.unseen.2.2]
  | stored => rfl
  | append _ _ ihfirst ihrest => rw [found_append, raised_append, ihfirst, ihrest]
  | stuck _ _ ih => exact ih
  | elsewhere _ ih => exact ih
  | unclaimed hraises hslot _ =>
      simp [found, raised, events, passedBy, Happening.event?, Moment.finding?, hraises, hslot]
  | @handled t c f registers k status left r _ _ o o' e h hraises hslot _ _ ih =>
      have hclosing : found (closing e (leaving k f status left o' ++ [⟨.returned c r, o'⟩])) = [] ∧
          raised (closing e (leaving k f status left o' ++ [⟨.returned c r, o'⟩])) = [] := by
        cases e <;> exact ⟨rfl, rfl⟩
      have hopening : found (⟨.called t c, o⟩ :: entering f registers k o) = [.claimed k f] ∧
          raised (⟨.called t c, o⟩ :: entering f registers k o) = [.claimed k f] := by
        simp [found, raised, events, entering, Happening.event?, Moment.finding?, hraises, hslot]
      rw [← List.cons_append, found_append, found_append, raised_append, raised_append, ih,
        hclosing.1, hclosing.2, hopening.1, hopening.2]

end Nesting

/-- As many handlers are entered as faults are raised while one is registered. -/
theorem History.entries_eq {h : History Objects} (hfound : found h = raised h) :
    h.countP (·.what.entersHandler)
      = h.countP fun m => m.what.raises && m.state.handlerSlot.handler.isSome := by
  have hentered : ∀ m : Moment Objects,
      m.what.entersHandler
        = ((m.what.event?.bind Event.finding?).map Finding.isClaimed).getD false := by
    rintro ⟨what, x⟩
    cases what with
    | event e =>
        cases e with
        | logged n => cases n <;> rfl
        | _ => rfl
    | _ => rfl
  have hraised : ∀ m : Moment Objects, (m.what.raises && m.state.handlerSlot.handler.isSome)
      = (m.finding?.map Finding.isClaimed).getD false := by
    rintro ⟨what, x⟩
    cases what with
    | called t c =>
        rw [Happening.raises, Moment.finding?]
        cases c.raises? with
        | none => rfl
        | some f => cases x.handlerSlot.handler <;> rfl
    | _ => rfl
  calc h.countP (·.what.entersHandler)
      = (found h).countP Finding.isClaimed := by
        rw [found, events, List.filterMap_filterMap, List.countP_filterMap]
        exact List.countP_congr fun m _ => by rw [hentered]
    _ = (raised h).countP Finding.isClaimed := by rw [hfound]
    _ = h.countP fun m => m.what.raises && m.state.handlerSlot.handler.isSome := by
        rw [raised, List.countP_filterMap]
        exact List.countP_congr fun m _ => by rw [hraised]

/-- **Faults are well bracketed.** In a run that does not halt, every entry into a handler is closed
by one line about the same fault, with the status that the code of this activation returned; in one
that halts, what is left open could be closed. The faults of a run show, in order, what was
registered when they were raised, and one that finds no handler leaves a single line behind. Both
lines are told at TRACE. -/
theorem Run.faults_bracketed (run : Run) :
    (run.history.NestsNoInit → (∀ halt, run.outcome ≠ .halted halt) →
      Bracketed run.history.brackets ∧
      ∀ before k f frame o after,
        run.history = before ++ ⟨.event (.handlerEntered k f frame), o⟩ :: after →
        ∃ body status left o' rest, after = body ++ (leaving k f status left o' ++ rest) ∧
          Bracketed (brackets body) ∧
          (run.clients.handler k f).Conduct run.scope (underWay 0 before = run.depth) frame o
            (.returned (status, left)) o' body) ∧
    (∃ tail, Bracketed (run.history.brackets ++ tail)) ∧
    (run.history.found = run.history.raised ∧
      run.history.countP (·.what.entersHandler)
        = run.history.countP fun m => m.what.raises && m.state.handlerSlot.handler.isSome) ∧
    (∀ before t c f o after, c.raises? = some f → o.handlerSlot.handler = none →
      run.history = before ++ ⟨.called t c, o⟩ :: after → ∃ registers rest, after =
        passedBy f registers o ++ ⟨.returned c (.dispatched .unhandled registers), o⟩ :: rest) ∧
    ∀ f status, (Notice.faultUnclaimed f.code).level = .trace ∧
      (Notice.faultHandled f status).level = .trace ∧
      (Notice.faultUnclaimed f.code).text
        = "fault " ++ Hex.ofNat f.code.toNat ++ " with no handler registered" ∧
      (Notice.faultHandled f status).text = "fault " ++ Hex.ofNat f.code.toNat ++ " at " ++
        Hex.ofNat f.address.toNat ++ ": handler returned " ++ toString status.toInt := by
  have hnesting := run.passage.nests
  obtain ⟨tail, hbracketed, hclosed⟩ := hnesting.bracketed
  have hfound := hnesting.found_eq_raised
  refine ⟨fun hnests hnot => ?_, ⟨tail, hbracketed⟩, ⟨hfound, entries_eq hfound⟩, ?_,
    fun f status => ⟨rfl, rfl, rfl, rfl⟩⟩
  · have hreturned : run.outcome = .returned () :=
      (run.returned_or_halted hnests).resolve_right fun ⟨halt, hhalted⟩ => hnot halt hhalted
    rw [hclosed hreturned, List.append_nil] at hbracketed
    refine ⟨hbracketed, fun before k f frame o after hsplit => ?_⟩
    obtain ⟨c, registers, -, -, rfl, hactivation⟩ := run.activation hsplit
    obtain ⟨status, left, o', body, rest, hcode, rfl⟩ := hactivation.of_returned hreturned
    obtain ⟨tail, hbody, hclosed⟩ := hcode.nests.bracketed
    rw [hclosed rfl, List.append_nil] at hbody
    exact ⟨body, status, left, o', _, rfl, hbody, hcode⟩
  · intro before t c f o after hraises hslot hsplit
    obtain ⟨registers, -, hhandling⟩ := run.handles.site before t c f o after hraises hsplit
    cases hhandling with
    | unclaimed _ => exact ⟨registers, _, rfl⟩
    | claimed hslot' _ => exact absurd (hslot.symm.trans hslot') nofun

/-- A fault that finds no handler, and one whose handler raises two more, one of them on its own
registers. -/
def Run.nestedFaults : Run :=
  .alone ⟨fun _ f => ⟨if f.code = 1 then
        .call (.dispatch ⟨2, 0x20⟩ 0) fun _ => .forward ⟨3, 0x30⟩ fun _ => .ret .continueExecution
      else .ret (5 : Status), .continueSearch⟩, fun _ => .ret ()⟩ 2
    (.call (.dispatch ⟨4, 0x40⟩ 0) fun _ => .call (.register 9) fun _ =>
      .call (.dispatch ⟨1, 0x10⟩ 0) fun r => .ret [r])

theorem Run.faults_bracketed_nested :
    Bracketed Run.nestedFaults.history.brackets ∧
      Run.nestedFaults.history.raised
        = [.unclaimed 4, .claimed 9 ⟨1, 0x10⟩, .claimed 9 ⟨2, 0x20⟩, .claimed 9 ⟨3, 0x30⟩] := by
  have hnests : Run.nestedFaults.history.NestsNoInit := by
    unfold NestsNoInit
    decide
  have hnot : ∀ halt, Run.nestedFaults.outcome ≠ .halted halt := by
    intro halt
    have hreturned : Run.nestedFaults.outcome = .returned () := rfl
    rw [hreturned]
    exact nofun
  obtain ⟨hbracketed, -, ⟨hfound, -⟩, -⟩ := Run.faults_bracketed Run.nestedFaults
  have hseen : Run.nestedFaults.history.found
      = [.unclaimed 4, .claimed 9 ⟨1, 0x10⟩, .claimed 9 ⟨2, 0x20⟩, .claimed 9 ⟨3, 0x30⟩] := rfl
  exact ⟨(hbracketed hnests hnot).1, hfound ▸ hseen⟩

end PlatformLayer
