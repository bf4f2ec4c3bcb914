import PlatformLayer.Proofs.CapabilityWords
import PlatformLayer.Proofs.Methods
import Mathlib.Data.List.Forall2

/-!
# What a first start-up makes of the answers

A probe is any code that ends in an answer. It may keep a state of its own and change anything the
layer holds, so what it answers can depend on all that went before. A first start-up depends on the
probe through the answers alone: it asks about every capability in its turn, whatever came of the
earlier ones, and publishes those that are present. An answer that failed is logged and is otherwise
no different from one that says absent.
-/

namespace PlatformLayer

/-- Whether an answer makes a capability present; a failure does not. -/
def Answer.present : Answer → Bool
  | .ok present => present
  | .error _ => false

theorem CapabilitySet.contains_tally (s : CapabilitySet) (c d : Capability) (a : Answer) :
    (s.tally c a).contains d = (s.contains d || (a.present && decide (c = d))) := by
  match a with
  | .ok true => exact s.contains_insert c d
  | .ok false => simp [tally, Answer.present]
  | .error _ => simp [tally, Answer.present]

theorem CapabilitySet.tally_congr {a b : Answer} (h : b.present = a.present) (s : CapabilitySet)
    (c : Capability) : s.tally c b = s.tally c a := by
  have hpresent : ∀ a : Answer, s.tally c a = if a.present then s.insert c else s := by
    intro a
    cases a <;> rfl
  rw [hpresent, hpresent, h]

/-! ### Rounds of an interview -/

/-- One capability asked about: where the probe started, what it did, and what it left. -/
structure Round (σ : Type) where
  capability : Capability
  start : World σ
  during : History σ
  answer : Answer
  left : World σ

namespace Round

variable {σ : Type}

/-- What is logged about the answer, after all that the probe did. -/
def warnings (r : Round σ) : History σ :=
  (r.capability.complaint r.answer).map fun n => ⟨.event (.logged n), r.left.state⟩

def record (r : Round σ) : History σ :=
  ⟨.asked r.capability, r.start.state⟩ ::
    (r.during ++ (⟨.answered r.capability r.answer, r.left.state⟩ :: r.warnings))

/-- Rounds alike but for answers that fail in one and say absent in the other. -/
structure Alike (r r' : Round σ) : Prop where
  capability_eq : r'.capability = r.capability
  start_eq : r'.start = r.start
  during_eq : r'.during = r.during
  left_eq : r'.left = r.left
  present_eq : r'.answer.present = r.answer.present

theorem events_record (r : Round σ) :
    r.record.events = r.during.events ++ r.warnings.events := by
  rw [record, History.events, List.filterMap_cons_none rfl]
  exact (History.events_append r.during _).trans rfl

end Round

/-- The set that answers add up to. -/
def CapabilitySet.tallied {σ : Type} (s : CapabilitySet) (rounds : List (Round σ)) :
    CapabilitySet :=
  rounds.foldl (fun s r => s.tally r.capability r.answer) s

theorem CapabilitySet.contains_tallied {σ : Type} (s : CapabilitySet) (rounds : List (Round σ))
    (c : Capability) :
    (s.tallied rounds).contains c = true ↔
      s.contains c = true ∨ ∃ r ∈ rounds, r.capability = c ∧ r.answer.present = true := by
  induction rounds generalizing s with
  | nil => simp [tallied]
  | cons r rounds ih =>
      rw [tallied, List.foldl_cons, ← tallied, ih, contains_tally]
      simp only [Bool.or_eq_true, Bool.and_eq_true, decide_eq_true_iff, List.mem_cons]
      constructor
      · rintro ((hs | ⟨hpresent, hc⟩) | ⟨r', hmem, h⟩)
        · exact Or.inl hs
        · exact Or.inr ⟨r, Or.inl rfl, hc, hpresent⟩
        · exact Or.inr ⟨r', Or.inr hmem, h⟩
      · rintro (hs | ⟨r', rfl | hmem, hc, hpresent⟩)
        · exact Or.inl (Or.inl hs)
        · exact Or.inl (Or.inr ⟨hpresent, hc⟩)
        · exact Or.inr ⟨r', hmem, hc, hpresent⟩

theorem CapabilitySet.tallied_congr {σ : Type} {rounds rounds' : List (Round σ)}
    (halike : List.Forall₂ Round.Alike rounds rounds') (s : CapabilitySet) :
    s.tallied rounds' = s.tallied rounds := by
  induction halike generalizing s with
  | nil => rfl
  | cons hround _ ih =>
      rw [tallied, tallied, List.foldl_cons, List.foldl_cons, ← tallied, ← tallied, ih,
        hround.capability_eq, tally_congr hround.present_eq]

/-- A probe that answers about each of `cs` in turn, every time from where it was left. -/
inductive Interview {σ : Type} (ask : Capability → Action σ Answer) :
    List Capability → World σ → List (Round σ) → World σ → Prop
  | closed (w : World σ) : Interview ask [] w [] w
  | round {c : Capability} {cs : List Capability} {w w' last : World σ} {h : History σ} {a : Answer}
      {rounds : List (Round σ)} (hask : ask c w = ⟨.returned a, w', h⟩)
      (rest : Interview ask cs w' rounds last) :
      Interview ask (c :: cs) w (⟨c, w, h, a, w'⟩ :: rounds) last

/-- The second probe does what the first does, and where it answers otherwise one of the two fails
and the other says absent. -/
def SameButFailures {σ : Type} (ask ask' : Capability → Action σ Answer) : Prop :=
  ∀ c w a w' h, ask c w = ⟨.returned a, w', h⟩ →
    ∃ a', ask' c w = ⟨.returned a', w', h⟩ ∧ a'.present = a.present

namespace Interview

variable {σ : Type} {ask : Capability → Action σ Answer} {cs : List Capability} {w last : World σ}
  {rounds : List (Round σ)}

theorem capabilities (h : Interview ask cs w rounds last) :
    rounds.map (·.capability) = cs := by
  induction h with
  | closed => rfl
  | round _ _ ih => exact congrArg (_ :: ·) ih

/-- Asking goes through the rounds, whatever was answered in them. -/
theorem askAll_eq (h : Interview ask cs w rounds last) (s : CapabilitySet) :
    Registry.askAll ask cs s w
      = ⟨.returned (s.tallied rounds), last, rounds.flatMap Round.record⟩ := by
  induction h generalizing s with
  | closed => rfl
  | round hask rest ih =>
      rw [Registry.askAll_cons_of_returned hask, ih]
      simp only [List.flatMap_cons, Round.record, Round.warnings, List.cons_append,
        List.append_assoc]
      rfl

theorem alike {ask' : Capability → Action σ Answer} (hsame : SameButFailures ask ask')
    (h : Interview ask cs w rounds last) :
    ∃ rounds', Interview ask' cs w rounds' last ∧ List.Forall₂ Round.Alike rounds rounds' := by
  induction h with
  | closed w => exact ⟨[], .closed w, .nil⟩
  | round hask rest ih =>
      obtain ⟨rounds', hrest, halike⟩ := ih
      obtain ⟨a', hask', hpresent⟩ := hsame _ _ _ _ _ hask
      exact ⟨_, .round hask' hrest, .cons ⟨rfl, rfl, rfl, rfl, hpresent⟩ halike⟩

theorem of_answers (hanswers : ∀ c x, ∃ a, (ask c x).outcome = .returned a)
    (cs : List Capability) (w : World σ) : ∃ rounds last, Interview ask cs w rounds last := by
  induction cs generalizing w with
  | nil => exact ⟨[], w, .closed w⟩
  | cons c cs ih =>
      obtain ⟨a, houtcome⟩ := hanswers c w
      have hask : ask c w = ⟨.returned a, (ask c w).world, (ask c w).history⟩ := by rw [← houtcome]
      obtain ⟨rounds, last, hrest⟩ := ih (ask c w).world
      exact ⟨_, last, .round hask hrest⟩

/-- Asking stops only where a probe does. -/
theorem of_askAll_returned {s s' : CapabilitySet}
    (hreturned : (Registry.askAll ask cs s w).outcome = .returned s') :
    ∃ rounds last, Interview ask cs w rounds last := by
  induction cs generalizing s w with
  | nil => exact ⟨[], w, .closed w⟩
  | cons c cs ih =>
      rcases (ask c w).returned_or_stopped with ⟨a, w', h, hask⟩ | ⟨stop, w', h, hask⟩
      · rw [Registry.askAll_cons_of_returned hask] at hreturned
        obtain ⟨rounds, last, hrest⟩ := ih hreturned
        exact ⟨_, last, .round hask hrest⟩
      · rw [Registry.askAll_cons_of_stopped hask] at hreturned
        cases stop <;> cases hreturned

end Interview

/-! ### Start-up -/

namespace Registry

variable {σ : Type} {cell : Cell σ Registry} {w last : World σ}
  {ask : Capability → Action σ Answer} {rounds : List (Round σ)}

/-- The world in which the answers are public. -/
def settled (cell : Cell σ Registry) (serial : Nat) (s : CapabilitySet) (w : World σ) : World σ :=
  { w with state := cell.set ((cell.get w.state).publish serial s) w.state }

theorem snapshot_settled (hlawful : ∀ r x, cell.get (cell.set r x) = r) {serial : Nat}
    (hserial : (cell.get w.state).serial = serial) (s : CapabilitySet) :
    snapshot cell (settled cell serial s w) = ⟨.returned (some s), settled cell serial s w, []⟩ := by
  rw [snapshot_apply, settled, hlawful, publish, if_pos hserial]
  rfl

theorem init_of_interview (hidle : (cell.get w.state).phase = .idle)
    (h : Interview ask Capability.all (begin cell w) rounds last) :
    let s := CapabilitySet.empty.tallied rounds
    let final := settled cell (cell.get w.state).serial s last
    init cell ask w = ⟨.returned s, final, rounds.flatMap Round.record ++
      [⟨.event (.logged (.capabilitiesPublished s)), final.state⟩]⟩ := by
  intro s final
  rw [init_of_idle hidle, Action.bind_of_returned (h.askAll_eq .empty), settle_apply]
  rfl

theorem init_returns_iff (hidle : (cell.get w.state).phase = .idle) :
    (∃ s, (init cell ask w).outcome = .returned s) ↔
      ∃ rounds last, Interview ask Capability.all (begin cell w) rounds last := by
  constructor
  · rintro ⟨s, hreturned⟩
    rw [init_of_idle hidle] at hreturned
    rcases (askAll ask Capability.all .empty (begin cell w)).returned_or_stopped with
      ⟨s', w', h, hasked⟩ | ⟨stop, w', h, hasked⟩
    · exact Interview.of_askAll_returned (congrArg Report.outcome hasked)
    · rw [Action.bind_of_stopped hasked] at hreturned
      cases stop <;> cases hreturned
  · rintro ⟨rounds, last, h⟩
    rw [init_of_interview hidle h]
    exact ⟨_, rfl⟩

theorem events_rounds (rounds : List (Round σ)) :
    History.events (rounds.flatMap Round.record)
      = rounds.flatMap fun r => r.during.events ++ r.warnings.events := by
  induction rounds with
  | nil => rfl
  | cons r rounds ih =>
      rw [List.flatMap_cons, History.events_append, r.events_record, ih, List.flatMap_cons]

/-- **A first start-up publishes what the probe answered.** It returns exactly when the probe answers
every time it is asked, and then it has asked about each capability once, in order. Each round is
closed by the complaint about its answer, if there is one, and the announcement of the set comes
last. A capability is in the set when the answer about it was yes. Another probe that fails where
this one says absent, or the other way round, has the same set published and the same rounds but for
the complaints. -/
theorem init_publishes_answers (hlawful : ∀ r x, cell.get (cell.set r x) = r)
    (hidle : (cell.get w.state).phase = .idle) (ask : Capability → Action σ Answer) :
    ((∃ s, (init cell ask w).outcome = .returned s) ↔
      ∃ rounds last, Interview ask Capability.all (begin cell w) rounds last) ∧
    ((∀ c x, ∃ a, (ask c x).outcome = .returned a) →
      ∃ s, (init cell ask w).outcome = .returned s) ∧
    (∀ c f, (Notice.probeFailed c f).level = .warn ∧
      c.complaint (.error f) = [.probeFailed c f] ∧ ∀ present, c.complaint (.ok present) = []) ∧
    ∀ rounds last, Interview ask Capability.all (begin cell w) rounds last →
      rounds.map (·.capability)
          = [.writeWatch, .lowMemoryNotification, .currentProcessorNumber] ∧
        ∃ s, (∀ c, s.contains c = true ↔
            ∃ r ∈ rounds, r.capability = c ∧ r.answer = .ok true) ∧
          let final := settled cell (cell.get w.state).serial s last
          let announced : Notice := .capabilitiesPublished s
          (announced.level = .info ∧ announced.text = "PAL capabilities: " ++ s.display) ∧
          init cell ask w = ⟨.returned s, final, rounds.flatMap Round.record ++
            [⟨.event (.logged announced), final.state⟩]⟩ ∧
          ((cell.get last.state).serial = (cell.get w.state).serial →
            snapshot cell final = ⟨.returned (some s), final, []⟩) ∧
          (init cell ask w).history.events
            = (rounds.flatMap fun r => r.during.events ++ r.warnings.events)
                ++ [.logged announced] ∧
          ∀ ask', SameButFailures ask ask' → ∃ rounds', List.Forall₂ Round.Alike rounds rounds' ∧
            Interview ask' Capability.all (begin cell w) rounds' last ∧
            init cell ask' w = ⟨.returned s, final, rounds'.flatMap Round.record ++
              [⟨.event (.logged announced), final.state⟩]⟩ ∧
            (init cell ask' w).history.events
              = (rounds'.flatMap fun r => r.during.events ++ r.warnings.events)
                  ++ [.logged announced] := by
  have hpresent : ∀ a : Answer, a.present = true ↔ a = .ok true := by
    intro a
    match a with
    | .ok present => cases present <;> simp [Answer.present]
    | .error f => simp [Answer.present]
  refine ⟨init_returns_iff hidle, ?_, fun c f => ⟨rfl, rfl, fun _ => rfl⟩, ?_⟩
  · intro hanswers
    exact (init_returns_iff hidle).mpr (Interview.of_answers hanswers _ _)
  intro rounds last h
  refine ⟨h.capabilities, CapabilitySet.empty.tallied rounds, ?_, ⟨rfl, rfl⟩,
    init_of_interview hidle h, fun hserial => snapshot_settled hlawful hserial _, ?_, ?_⟩
  · intro c
    have hempty : CapabilitySet.empty.contains c ≠ true := by cases c <;> decide
    rw [CapabilitySet.contains_tallied, or_iff_right hempty]
    simp only [hpresent]
  · rw [init_of_interview hidle h, History.events_append, events_rounds]
    rfl
  · intro ask' hsame
    obtain ⟨rounds', h', halike⟩ := h.alike hsame
    have hset := CapabilitySet.tallied_congr halike .empty
    have hinit := init_of_interview hidle h'
    rw [hset] at hinit
    refine ⟨rounds', halike, h', hinit, ?_⟩
    rw [hinit, History.events_append, events_rounds]
    rfl

/-- A probe that counts how often it is asked: it fails but for the second time, or says absent. -/
def countingProbe (otherwise : Answer) (c : Capability) : Action (Registry × Nat) Answer := fun w =>
  ⟨.returned (if w.state.2 = 1 then .ok true else otherwise),
    { w with state := (w.state.1, w.state.2 + 1) }, [⟨.event (.probeAsked c), w.state⟩]⟩

theorem init_publishes_answers_counting :
    let cell : Cell (Registry × Nat) Registry := ⟨Prod.fst, fun r x => (r, x.2)⟩
    let w : World (Registry × Nat) := ⟨(.new, 0), [], 0⟩
    ∃ s, (∀ c, s.contains c = true ↔ c = .lowMemoryNotification) ∧
      (init cell (countingProbe (.error .probeFailed)) w).history.events
        = [ .probeAsked .writeWatch, .logged (.probeFailed .writeWatch .probeFailed)
          , .probeAsked .lowMemoryNotification, .probeAsked .currentProcessorNumber
          , .logged (.probeFailed .currentProcessorNumber .probeFailed)
          , .logged (.capabilitiesPublished s) ] ∧
      (init cell (countingProbe (.ok false)) w).outcome = .returned s := by
  intro cell w
  have hsame : SameButFailures (countingProbe (.error .probeFailed)) (countingProbe (.ok false)) := by
    rintro c x _ _ _ ⟨⟩
    refine ⟨_, rfl, ?_⟩
    by_cases hsecond : x.state.2 = 1
    · rw [if_pos hsecond, if_pos hsecond]
    · rw [if_neg hsecond, if_neg hsecond]
      rfl
  obtain ⟨-, -, -, h⟩ := @init_publishes_answers _ cell w (fun _ _ => rfl) rfl
    (countingProbe (.error .probeFailed))
  obtain ⟨-, s, hcontains, -, -, -, hevents, hother⟩ :=
    h _ _ (.round rfl (.round rfl (.round rfl (.closed _))))
  obtain ⟨rounds', -, -, hinit, -⟩ := hother _ hsame
  refine ⟨s, ?_, hevents, congrArg Report.outcome hinit⟩
  intro c
  rw [hcontains]
  cases c <;> simp [begin, cell, w]

end Registry

end PlatformLayer
