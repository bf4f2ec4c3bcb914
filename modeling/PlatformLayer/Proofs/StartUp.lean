import PlatformLayer.Proofs.Halting
import PlatformLayer.Proofs.Probing

/-!
# Capabilities are fixed by the first start-up

Once a start-up has returned, every later question about capabilities gets its set as the answer,
and no probe is asked again. This is said of every later state, by what each method would do in it
with whatever probe, and of every later call on record.
-/

namespace PlatformLayer

open History

/-! ### What the methods say -/

/-- The capabilities `s` are public, and a start-up of any kind leaves it at that. -/
structure Interface.Shows {σ : Type} (I : Interface σ) (s : CapabilitySet) (w : World σ) :
    Prop where
  snapshot : I.snapshot w = ⟨.returned (some s), w, []⟩
  isReady : ∀ owner ∈ I.owner, owner.isReady w = ⟨.returned true, w, []⟩
  has : ∀ c, I.has c w = ⟨.returned (s.contains c), w, []⟩
  init : ∀ ask, I.init ask w
    = ⟨.returned s, w, [⟨.event (.logged (.capabilitiesKept s)), w.state⟩]⟩

namespace Scope

variable {scope : Scope} {x : Objects}

def Shows (scope : Scope) (s : CapabilitySet) (x : Objects) : Prop :=
  ∀ w : World scope.State, objects w.state = x → scope.interface.Shows s w

theorem shows_of_ready {s : CapabilitySet} (hready : x.registry.phase = .ready s) :
    scope.Shows s x := by
  rintro w rfl
  have hphase : ((scope.cell Objects.registryCell).get w.state).phase = .ready s := by
    rw [cell_get]
    exact hready
  have hpublished := Registry.published_eq_some_iff.mpr hphase
  refine ⟨?_, ?_, ?_, ?_⟩
  · rw [interface_snapshot, Registry.snapshot_apply, hpublished]
  · intro owner howner
    rw [owner_isReady howner, Registry.isReady_apply, hpublished, Option.isSome_some]
  · intro c
    rw [interface_has, Registry.has_of_published hpublished]
  · intro ask
    rw [interface_init, Registry.init_of_ready hphase]

end Scope

/-! ### What is on record -/

/-- Every call that concerns capabilities is answered from `s`, and no probe is asked. -/
structure History.Tells (scope : Scope) (s : CapabilitySet) (h : History Objects) : Prop where
  snapshot : FollowedBy (.operation .snapshot)
    [.returned (.operation .snapshot) (.snapshot (some s))] h
  isReady : scope = .own → FollowedBy (.operation .isReady)
    [.returned (.operation .isReady) (.flag true)] h
  has : ∀ c, FollowedBy (.operation (.has c))
    [.returned (.operation (.has c)) (.flag (s.contains c))] h
  init : ∀ c, c.isInit → FollowedBy c
    [.event (.logged (.capabilitiesKept s)), .returned c (.capabilities s)] h
  asks : Lacks Happening.isAsk h

variable {scope : Scope} {part : Part} {o o' : Objects} {e : Outcome Unit}
  {h after : History Objects}

theorem Passage.init_followed (hpassage : Passage scope part o e o' h) (hafter : after <:+ h)
    {s : CapabilitySet} (hready : ∀ m ∈ after, m.state.registry.phase = .ready s) {c : Call}
    (hinit : c.isInit) :
    FollowedBy c [.event (.logged (.capabilitiesKept s)), .returned c (.capabilities s)] after := by
  intro t x rest hsite
  have hphase : x.registry.phase = .ready s := hready _ (mem_of_ending hsite)
  obtain ⟨frame, left, e', x', body, rest', hcall, rfl, -⟩ :=
    hpassage.call_site (hsite.trans hafter)
  rcases hcall.of_init hinit with ⟨s', hphase', -, -, hbody⟩ | ⟨hprobing, -⟩ | ⟨hidle, -⟩
  · rw [hphase] at hphase'
    cases hphase'
    cases hbody
    exact ⟨rest', rfl⟩
  · exact absurd (hphase.symm.trans hprobing) Registry.Phase.noConfusion
  · exact absurd (hphase.symm.trans hidle) Registry.Phase.noConfusion

theorem Passage.tells (hpassage : Passage scope part o e o' h) (hkeeps : h.Keeps .registry)
    (hdue : part.due = []) (hafter : after <:+ h) {s : CapabilitySet}
    (hready : ∀ m ∈ after, m.state.registry.phase = .ready s) : Tells scope s after := by
  have hpublished : ∀ m ∈ after, m.state.registry.published = some s :=
    fun m hm => Registry.published_eq_some_iff.mpr (hready m hm)
  refine ⟨?_, fun howner => ?_, fun c => ?_, fun c => hpassage.init_followed hafter hready, ?_⟩
  · refine hpassage.query_followed rfl hafter ?_ fun m hm r hprompt => ?_
    · rintro m hm halt ⟨⟩
    · cases hprompt with
      | snapshot => rw [hpublished m hm]
      | absent _ howner => exact absurd howner Bool.false_ne_true
  · refine hpassage.query_followed rfl hafter ?_ fun m hm r hprompt => ?_
    · rintro m hm halt ⟨⟩
    · cases hprompt with
      | isReady _ => rw [hpublished m hm, Option.isSome_some]
      | absent hshared _ => exact absurd (howner.symm.trans hshared) Scope.noConfusion
  · refine hpassage.query_followed rfl hafter ?_ fun m hm r hprompt => ?_
    · rintro m hm halt ⟨hnone⟩
      exact absurd ((hpublished m hm).symm.trans hnone) (Option.some_ne_none s)
    · cases hprompt with
      | has hsome =>
          rw [hpublished m hm] at hsome
          cases hsome
          rfl
      | absent _ howner => exact absurd howner Bool.false_ne_true
  · intro m hm
    refine Bool.eq_false_iff.mpr fun hask => ?_
    have hprobing := hpassage.asks_while_probing hkeeps (absurd hdue) m (hafter.subset hm) hask
    exact absurd ((hready m hm).symm.trans hprobing) Registry.Phase.noConfusion

/-- A run in which no start-up is called for within another does not hang. -/
theorem Run.returned_or_halted (run : Run) (hnests : run.history.NestsNoInit) :
    run.outcome = .returned () ∨ ∃ halt, run.outcome = .halted halt := by
  have hends := run.passage.ends
  unfold NestsNoInit at hnests
  generalize run.history = h at hends hnests
  generalize run.outcome = e at hends
  cases hends with
  | returned hquiet => exact Or.inl rfl
  | halted front hfatal hquiet => exact Or.inr ⟨_, rfl⟩
  | @hung front t c hinit hprobing hquiet =>
      exact absurd hprobing (hnests ⟨.called t c, run.final⟩ (by simp) hinit)

theorem Passage.asking_head {heralded : Bool} {c : Capability} {cs : List Capability}
    {s found : CapabilitySet}
    (hpassage : Passage scope (.asking heralded (c :: cs) s found) o e o' h) :
    ∃ rest, h = ⟨.asked c, o⟩ :: rest := by
  cases hpassage with
  | asks probe rest => exact ⟨_, rfl⟩
  | askStuck hstuck probe => exact ⟨_, rfl⟩

/-- Whatever comes after a call for a start-up finds the registry begun. -/
theorem Passage.begun_after_init (hpassage : Passage scope part o e o' h)
    (hkeeps : h.Keeps .registry) {t : Nat} {c : Call} {x : Objects} (hinit : c.isInit)
    (hsite : ⟨.called t c, x⟩ :: after <:+ h) : ∀ m ∈ after, m.state.registry.phase ≠ .idle := by
  have hevolves := (hpassage.evolves hkeeps).of_ending hsite
  obtain ⟨frame, left, e', x', body, rest, hcall, rfl, -⟩ := hpassage.call_site hsite
  rcases hcall.of_init hinit with ⟨s, hready, -⟩ | ⟨hprobing, -⟩ | ⟨-, s, z, asking, hasking, hend⟩
  · have hbegun : x.registry.phase ≠ .idle := by simp [hready]
    exact (hevolves.throughout (fun _ _ => Change.begun) hbegun).1
  · have hbegun : x.registry.phase ≠ .idle := by simp [hprobing]
    exact (hevolves.throughout (fun _ _ => Change.begun) hbegun).1
  · -- the first thing a first start-up does is to ask, with the registry probing
    obtain ⟨asked, rfl⟩ := hasking.asking_head
    obtain ⟨later, rfl⟩ : ∃ later, body = ⟨.asked .writeWatch, x.probing⟩ :: later := by
      rcases hend with ⟨-, -, hbody⟩ | ⟨-, hbody⟩
      · cases hbody
        exact ⟨_, rfl⟩
      · cases hbody
        exact ⟨_, rfl⟩
    have hlater := hevolves.2.throughout (fun _ _ => Change.begun) Registry.Phase.noConfusion
    exact List.forall_mem_cons.mpr ⟨Registry.Phase.noConfusion, hlater.1⟩

theorem Passage.no_init_before (hpassage : Passage scope part o e o' h)
    (hkeeps : h.Keeps .registry) {before : History Objects} {m : Moment Objects}
    (hsplit : h = before ++ m :: after) (hidle : m.state.registry.phase = .idle) :
    Lacks Happening.startsUp before := by
  intro m' hm'
  refine Bool.eq_false_iff.mpr fun hstarts => ?_
  obtain ⟨front, rest, rfl⟩ := List.append_of_mem hm'
  have hsite : m' :: (rest ++ m :: after) <:+ h := by
    rw [hsplit, List.append_assoc, List.cons_append]
    exact List.suffix_append front _
  match m', hstarts with
  | ⟨.called t c, x⟩, hinit =>
      exact hpassage.begun_after_init hkeeps hinit hsite m (by simp) hidle

/-- **Capabilities are fixed by the first start-up.** -/
theorem Run.capabilities_fixed (run : Run) (hkeeps : run.history.Keeps .registry) :
    (∀ c s x after, c.isInit → ⟨.returned c (.capabilities s), x⟩ :: after <:+ run.history →
      Throughout (run.scope.Shows s) (⟨.returned c (.capabilities s), x⟩ :: after) run.final ∧
        Tells run.scope s after) ∧
    (run.history.asked <+: Capability.all ∧ (∀ c, run.history.asked.count c ≤ 1) ∧
      run.history.probed.Sublist run.history.asked) ∧
    (run.history.NestsNoInit → (∀ halt, run.outcome ≠ .halted halt) →
      run.history.asked = [] ∨ ∃ before t c x during s y after,
        run.history = before ++ (⟨.called t c, x⟩ ::
          (during ++ (⟨.returned c (.capabilities s), y⟩ :: after))) ∧
        c.isInit ∧ Lacks Happening.startsUp before ∧
        asked before = [] ∧ asked during = Capability.all ∧ asked after = []) := by
  have honce := run.passage.asks_once hkeeps rfl
  have hleading : run.history.asked <+: Capability.all := by
    rcases honce with hquiet | ⟨-, hleading, -⟩
    · rw [hquiet]
      exact List.nil_prefix
    · exact hleading
  refine ⟨?_, ⟨hleading, ?_, run.passage.enters_as_asked⟩, ?_⟩
  · intro c s x after hinit hsite
    have hready := run.passage.ready_after hkeeps hinit hsite
    have hx := run.passage.init_reply hkeeps hinit (mem_of_ending hsite)
    have hafter := (List.suffix_cons _ after).trans hsite
    refine ⟨.cons (Scope.shows_of_ready hx) ?_, run.passage.tells hkeeps rfl hafter hready.1⟩
    exact ⟨fun m hm => Scope.shows_of_ready (hready.1 m hm), Scope.shows_of_ready hready.2⟩
  · intro c
    calc run.history.asked.count c
        ≤ Capability.all.count c := hleading.sublist.count_le c
      _ ≤ 1 := by cases c <;> decide
  · intro hnests hnot
    have hreturned : run.outcome = .returned () :=
      (run.returned_or_halted hnests).resolve_right fun ⟨halt, hhalted⟩ => hnot halt hhalted
    refine honce.imp_right fun ⟨_, _, hone⟩ => ?_
    obtain ⟨before, t, c, x, during, s, y, after, hsplit, hinit, hidle, hasked⟩ := hone hreturned
    have hfirst := run.passage.no_init_before hkeeps hsplit hidle
    exact ⟨before, t, c, x, during, s, y, after, hsplit, hinit, hfirst, hasked⟩

/-- A first start-up whose probe registers a handler each time it is asked, and a second one. -/
def Run.startedTwice : Run :=
  .alone ⟨fun _ _ => ⟨.ret .continueSearch, .continueSearch⟩, fun _ => .ret ()⟩ 1
    (.init (fun _ => .call (.register 3) fun _ => .call .snapshot fun _ => .ret (.ok true))
      (fun _ => .ok true) fun _ =>
      .init (fun _ => .ret (.ok false)) (fun _ => .ok false) fun _ =>
        .call (.has .writeWatch) fun r => .ret [r])

theorem Run.capabilities_fixed_startedTwice :
    Throughout (Scope.own.Shows ⟨0x7⟩) (Run.startedTwice.history.drop 26) Run.startedTwice.final ∧
      Tells .own ⟨0x7⟩ (Run.startedTwice.history.drop 27) ∧
      Run.startedTwice.history.asked ≠ [] ∧
      ∃ before t c x during s y after,
        Run.startedTwice.history = before ++ (⟨.called t c, x⟩ ::
          (during ++ (⟨.returned c (.capabilities s), y⟩ :: after))) ∧
        c.isInit ∧ Lacks Happening.startsUp before ∧
        asked before = [] ∧ asked during = Capability.all ∧ asked after = [] := by
  have hkeeps : Run.startedTwice.history.Keeps .registry := by
    unfold Keeps
    decide
  have hnests : Run.startedTwice.history.NestsNoInit := by
    unfold NestsNoInit
    decide
  have hnot : ∀ halt, Run.startedTwice.outcome ≠ .halted halt := by
    intro halt
    have hreturned : Run.startedTwice.outcome = .returned () := rfl
    rw [hreturned]
    exact nofun
  have hasked : Run.startedTwice.history.asked ≠ [] := by decide
  obtain ⟨hfixed, -, honce⟩ := Run.capabilities_fixed Run.startedTwice hkeeps
  obtain ⟨hshows, htells⟩ := hfixed .init ⟨0x7⟩ ⟨⟨0, .ready ⟨0x7⟩⟩, ⟨some 3⟩, .new⟩
    (Run.startedTwice.history.drop 27) rfl ⟨Run.startedTwice.history.take 26, rfl⟩
  exact ⟨hshows, htells, hasked, (honce hnests hnot).resolve_left hasked⟩

end PlatformLayer
