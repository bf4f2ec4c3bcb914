import PlatformLayer.Proofs.Replies
import PlatformLayer.Proofs.RunPassage

/-!
# How a run ends

A run that does not return stops at a call. One that halts has just announced why, in the only error
it ever logs; one that hangs has just called for a start-up within a start-up. Nothing is recorded
after that, whatever was still to be done around it.
-/

namespace PlatformLayer

open History

variable {scope : Scope} {part : Part} {o o' : Objects} {e : Outcome Unit}
  {h h' : History Objects}

@[simp] def Happening.isError : Happening → Bool
  | event (.logged n) => n.level = .error
  | _ => false

theorem History.no_error_logging {notices : List Notice}
    (hlevel : ∀ n ∈ notices, n.level ≠ .error) (o : Objects) :
    Lacks Happening.isError (logging notices o) :=
  lacks_logging (fun n hn => decide_eq_false (hlevel n hn)) o

theorem Prompt.no_error {c : Call} {r : Reply} {notices : List Notice}
    (hprompt : Prompt scope o c r o' notices) : ∀ n ∈ notices, n.level ≠ .error := by
  cases hprompt with
  | kept hinit hpublished => simp [Notice.level]
  | registered hempty => simp [Notice.level]
  | refused hfull => simp [Notice.level]
  | setExit =>
      unfold ExitSlot.replacing
      split <;> simp [Notice.level]
  | _ => simp

theorem Capability.complaint_no_error (c : Capability) (a : Answer) :
    ∀ n ∈ c.complaint a, n.level ≠ .error := by
  cases a <;> simp [complaint, Notice.level]

/-- What a stretch has on record when it ends this way. -/
inductive Ends (scope : Scope) (o' : Objects) : Outcome Unit → History Objects → Prop where
  | returned {h : History Objects} (hquiet : Lacks Happening.isError h) :
      Ends scope o' (.returned ()) h
  | halted (front : History Objects) {t : Nat} {c : Call} {halt : Halt}
      (hfatal : Fatal scope o' c halt) (hquiet : Lacks Happening.isError front) :
      Ends scope o' (.halted halt)
        (front ++ [⟨.called t c, o'⟩, ⟨.event (.logged (.halting halt)), o'⟩])
  | hung (front : History Objects) {t : Nat} {c : Call} (hinit : c.isInit)
      (hprobing : o'.registry.phase = .probing) (hquiet : Lacks Happening.isError front) :
      Ends scope o' .hung (front ++ [⟨.called t c, o'⟩])

namespace Ends

theorem quiet (hends : Ends scope o' (.returned ()) h) : Lacks Happening.isError h := by
  cases hends with
  | returned hquiet => exact hquiet

theorem prepend (opening : History Objects) (hopening : Lacks Happening.isError opening)
    (hends : Ends scope o' e h) : Ends scope o' e (opening ++ h) := by
  cases hends with
  | returned hquiet => exact .returned (lacks_append.mpr ⟨hopening, hquiet⟩)
  | halted front hfatal hquiet =>
      rw [← List.append_assoc]
      exact .halted _ hfatal (lacks_append.mpr ⟨hopening, hquiet⟩)
  | hung front hinit hprobing hquiet =>
      rw [← List.append_assoc]
      exact .hung _ hinit hprobing (lacks_append.mpr ⟨hopening, hquiet⟩)

/-- Only a stretch that returned has anything recorded after it. -/
theorem append_closing {records : History Objects} (hends : Ends scope o' e h)
    (hrecords : Lacks Happening.isError records) : Ends scope o' e (h ++ closing e records) := by
  by_cases hreturned : e = .returned ()
  · subst hreturned
    exact .returned (lacks_append.mpr ⟨hends.quiet, hrecords⟩)
  · rw [closing_of_stuck hreturned, List.append_nil]
    exact hends

theorem bracket (opening records : History Objects) (hopening : Lacks Happening.isError opening)
    (hrecords : Lacks Happening.isError records) (hends : Ends scope o' e h) :
    Ends scope o' e (opening ++ (h ++ closing e records)) :=
  (hends.append_closing hrecords).prepend opening hopening

end Ends

theorem Passage.ends (hpassage : Passage scope part o e o' h) : Ends scope o' e h := by
  induction hpassage with
  | stop => exact .returned lacks_nil
  | append first rest ihfirst ihrest => exact ihrest.prepend _ ihfirst.quiet
  | stuck _ _ ih => exact ih
  | elsewhere _ ih => exact ih
  | noted => exact .returned (by simp)
  | stored => exact .returned (by simp)
  | made _ ih => exact ih
  | prompt hprompt =>
      exact .bracket [_] [_] (by simp) (by simp) (.returned (no_error_logging hprompt.no_error _))
  | fatal hfatal => exact .halted [] hfatal lacks_nil
  | waiting hinit hprobing => exact .hung [] hinit hprobing lacks_nil
  | init hinit hidle body ih =>
      exact .returned (by simp [ih.quiet, Notice.level])
  | initStuck hinit hidle hstuck body ih => exact ih.prepend [_] (by simp)
  | notify hslot body ih =>
      exact ih.bracket [_, _, _] [_, _] (by simp [Notice.level]) (by simp)
  | dispatch body ih => exact ih.bracket [_] [_] (by simp) (by simp)
  | forward body ih => exact ih.bracket [_] [_] (by simp) (by simp)
  | unclaimed hslot => exact .returned (by simp [Notice.level])
  | handled hslot body ih =>
      exact ih.bracket [_, _] [_, _, _] (by simp) (by simp [Notice.level])
  | askedAll => exact .returned lacks_nil
  | asks probe rest ihprobe ihrest =>
      exact .prepend [_] (by simp) (.prepend _ (lacks_heralding (by simp) _ _)
        (.prepend _ ihprobe.quiet (.prepend [_] (by simp)
          (.prepend _ (no_error_logging (Capability.complaint_no_error _ _) _) ihrest))))
  | askStuck hstuck probe ih =>
      exact .prepend [_] (by simp) (.prepend _ (lacks_heralding (by simp) _ _) ih)

/-! ### Calls that halt -/

namespace Fatal

variable {c : Call} {halt : Halt}

theorem plain (hfatal : Fatal scope o c halt) : c.isInit = false ∧ c.entersClient = false := by
  cases hfatal <;> exact ⟨rfl, rfl⟩

theorem unique {halt' : Halt} (hfatal : Fatal scope o c halt) (hfatal' : Fatal scope o c halt') :
    halt = halt' := by
  cases hfatal with
  | early hpublished =>
      cases hfatal' with
      | early _ => rfl
  | earlyBits howner hbits hpublished =>
      cases hfatal' with
      | earlyBits _ hbits' _ =>
          rw [hbits] at hbits'
          cases hbits'
          rfl
      | unknown _ hnone => exact absurd (hbits.symm.trans hnone) (Option.some_ne_none _)
  | unknown howner hbits =>
      cases hfatal' with
      | earlyBits _ hsome _ => exact absurd (hsome.symm.trans hbits) (Option.some_ne_none _)
      | unknown _ _ => rfl

theorem unanswered (hfatal : Fatal scope o c halt) {r : Reply} {notices : List Notice} :
    ¬ Prompt scope o c r o' notices := by
  intro hprompt
  cases hfatal with
  | early hpublished =>
      cases hprompt with
      | kept hinit _ => exact absurd hinit Bool.false_ne_true
      | has hsome => exact absurd (hsome.symm.trans hpublished) (Option.some_ne_none _)
      | absent _ howner => exact absurd howner Bool.false_ne_true
  | earlyBits howner hbits hpublished =>
      cases hprompt with
      | kept hinit _ => exact absurd hinit Bool.false_ne_true
      | hasBits _ _ hsome => exact absurd (hsome.symm.trans hpublished) (Option.some_ne_none _)
      | absent hshared _ => exact absurd (howner.symm.trans hshared) Scope.noConfusion
  | unknown howner hbits =>
      cases hprompt with
      | kept hinit _ => exact absurd hinit Bool.false_ne_true
      | hasBits _ hsome _ => exact absurd (hsome.symm.trans hbits) (Option.some_ne_none _)
      | absent hshared _ => exact absurd (howner.symm.trans hshared) Scope.noConfusion

end Fatal

/-- A fatal call ends everything around it. -/
theorem Passage.halts_at (hpassage : Passage scope part o e o' h) {t : Nat} {c : Call}
    {x : Objects} {halt : Halt} (hmem : ⟨.called t c, x⟩ ∈ h) (hfatal : Fatal scope x c halt) :
    e = .halted halt := by
  obtain ⟨front, after, rfl⟩ := List.append_of_mem hmem
  obtain ⟨frame, left, e', x', body, rest, hcall, -, hend⟩ :=
    hpassage.call_site (List.suffix_append front _)
  obtain ⟨hinit, hclient⟩ := hfatal.plain
  rcases hcall.of_plain hinit hclient with ⟨r, notices, hprompt, -⟩ | ⟨halt', hfatal', rfl, -⟩
  · exact absurd hprompt hfatal.unanswered
  · rcases hend with hreturned | ⟨-, rfl, -⟩
    · cases hreturned
    · rw [hfatal.unique hfatal']

theorem Capability.ofBits?_eq_none_iff {bits : UInt32} :
    Capability.ofBits? bits = none ↔ bits ≠ 0x1 ∧ bits ≠ 0x2 ∧ bits ≠ 0x4 := by
  constructor
  · intro hnone
    have hne : ∀ c : Capability, bits ≠ c.bits := by
      rintro c rfl
      exact absurd (hnone.symm.trans (ofBits?_bits c)).symm (Option.some_ne_none c)
    exact ⟨hne .writeWatch, hne .lowMemoryNotification, hne .currentProcessorNumber⟩
  · rintro ⟨hfirst, hsecond, hthird⟩
    refine Option.eq_none_iff_forall_ne_some.mpr fun c hsome => ?_
    have hbits := ofBits?_eq_some_iff.mp hsome
    cases c with
    | writeWatch => exact hfirst hbits
    | lowMemoryNotification => exact hsecond hbits
    | currentProcessorNumber => exact hthird hbits

/-! ### Which runs halt -/

/-- A step that no client may take: asking a registry that has published nothing, or asking by a
value that is no capability's bit. Only objects of one's own can be asked by value. -/
def Run.Misuse (run : Run) (m : Moment Objects) : Prop :=
  ∃ t, (∃ c, m.what = .called t (.operation (.has c)) ∧ m.state.registry.published = none) ∨
    ∃ bits, run.scope = .own ∧ m.what = .called t (.operation (.hasBits bits)) ∧
      ((bits ≠ 0x1 ∧ bits ≠ 0x2 ∧ bits ≠ 0x4) ∨ m.state.registry.published = none)

theorem Run.misuse_iff (run : Run) (m : Moment Objects) :
    run.Misuse m ↔ ∃ t c halt, m.what = .called t c ∧ Fatal run.scope m.state c halt := by
  constructor
  · rintro ⟨t, ⟨c, hwhat, hpublished⟩ | ⟨bits, howner, hwhat, hbad⟩⟩
    · exact ⟨t, _, _, hwhat, .early hpublished⟩
    · cases hbits : Capability.ofBits? bits with
      | none => exact ⟨t, _, _, hwhat, .unknown howner hbits⟩
      | some c =>
          rcases hbad with hunknown | hpublished
          · rw [Capability.ofBits?_eq_none_iff.mpr hunknown] at hbits
            cases hbits
          · exact ⟨t, _, _, hwhat, .earlyBits howner hbits hpublished⟩
  · rintro ⟨t, c, halt, hwhat, hfatal⟩
    cases hfatal with
    | early hpublished => exact ⟨t, Or.inl ⟨_, hwhat, hpublished⟩⟩
    | earlyBits howner hbits hpublished =>
        exact ⟨t, Or.inr ⟨_, howner, hwhat, Or.inr hpublished⟩⟩
    | unknown howner hbits =>
        exact ⟨t, Or.inr ⟨_, howner, hwhat, Or.inl (Capability.ofBits?_eq_none_iff.mp hbits)⟩⟩

/-- A run that halts has stopped right after a fatal call, with the cause in the log. -/
theorem Run.halted_site (run : Run) {halt : Halt} (hhalted : run.outcome = .halted halt) :
    ∃ front t c, run.history
        = front ++ [⟨.called t c, run.final⟩, ⟨.event (.logged (.halting halt)), run.final⟩] ∧
      Fatal run.scope run.final c halt ∧ Lacks Happening.isError front := by
  have hends := run.passage.ends
  rw [hhalted] at hends
  generalize run.history = h at hends
  cases hends with
  | halted front hfatal hquiet => exact ⟨front, _, _, rfl, hfatal, hquiet⟩

theorem Run.no_error (run : Run) (hnot : ∀ halt, run.outcome ≠ .halted halt) :
    Lacks Happening.isError run.history := by
  have hends := run.passage.ends
  generalize run.history = h at hends
  generalize run.outcome = e at hends hnot
  cases hends with
  | returned hquiet => exact hquiet
  | halted front hfatal hquiet => exact absurd rfl (hnot _)
  | hung front hinit hprobing hquiet => simp [hquiet]

/-- A run halts exactly if some step misuses the registry. The announcement of the halt is then the
last thing on record and the only error, and a run that does not halt logs none. On a registry that
nothing takes the place of, a query comes too early exactly if no start-up has returned before, and
once one has, only a query by an unknown value can halt. -/
theorem Run.halts_exactly_on_misuse (run : Run) :
    ((∃ halt, run.outcome = .halted halt) ↔ ∃ m ∈ run.history, run.Misuse m) ∧
    (∀ halt, run.outcome = .halted halt →
      ∃ front n, run.history = front ++ [⟨.event (.logged n), run.final⟩] ∧
        n.level = .error ∧ n.text = halt.message ∧ Lacks Happening.isError front) ∧
    ((∀ halt, run.outcome ≠ .halted halt) → Lacks Happening.isError run.history) ∧
    (run.history.Keeps .registry →
      (∀ before t c x after, run.history = before ++ ⟨.called t c, x⟩ :: after →
        (x.registry.published ≠ none ↔ StartedUp before)) ∧
      ∀ c s x after halt, c.isInit →
        ⟨.returned c (.capabilities s), x⟩ :: after <:+ run.history →
        run.outcome = .halted halt →
        ∃ t bits, (bits ≠ 0x1 ∧ bits ≠ 0x2 ∧ bits ≠ 0x4) ∧ halt = .unknownCapability bits ∧
          ⟨.called t (.operation (.hasBits bits)), run.final⟩ ∈ after) := by
  refine ⟨⟨?_, ?_⟩, ?_, run.no_error, fun hkeeps => ⟨?_, ?_⟩⟩
  · rintro ⟨halt, hhalted⟩
    obtain ⟨front, t, c, hhistory, hfatal, -⟩ := run.halted_site hhalted
    refine ⟨⟨.called t c, run.final⟩, ?_, (run.misuse_iff _).mpr ⟨t, c, halt, rfl, hfatal⟩⟩
    rw [hhistory]
    simp
  · rintro ⟨⟨what, x⟩, hmem, hmisuse⟩
    obtain ⟨t, c, halt, rfl, hfatal⟩ := (run.misuse_iff _).mp hmisuse
    exact ⟨halt, run.passage.halts_at hmem hfatal⟩
  · intro halt hhalted
    obtain ⟨front, t, c, hhistory, -, hquiet⟩ := run.halted_site hhalted
    refine ⟨front ++ [⟨.called t c, run.final⟩], .halting halt, ?_, rfl, rfl, by simp [hquiet]⟩
    rw [hhistory, List.append_assoc, List.singleton_append]
  · intro before t c x after hsplit
    exact run.passage.published_iff_startedUp hkeeps rfl hsplit
  · intro c s x after halt hinit hsite hhalted
    have hready := (run.passage.ready_after hkeeps hinit hsite).2
    have hpublished := Registry.published_eq_some_iff.mpr hready
    obtain ⟨front, t, c', hhistory, hfatal, -⟩ := run.halted_site hhalted
    rw [hhistory] at hsite
    obtain ⟨rest, -, rfl⟩ := Lacks.ending_append (p := Happening.isReply) (by simp) rfl hsite
    cases hfatal with
    | early hnone => exact absurd (hpublished.symm.trans hnone) (Option.some_ne_none s)
    | earlyBits _ _ hnone => exact absurd (hpublished.symm.trans hnone) (Option.some_ne_none s)
    | unknown howner hbits =>
        exact ⟨t, _, Capability.ofBits?_eq_none_iff.mp hbits, rfl, by simp⟩

/-- A callback that asks by a value that no capability has, after start-up. -/
def Run.lateMisuse : Run :=
  .alone ⟨fun _ _ => ⟨.ret .continueSearch, .continueSearch⟩,
      fun _ => .call (.hasBits 0x8) fun _ => .ret ()⟩ 1
    (.call .initFromHost fun _ => .call (.setExit 0) fun _ => .call .notify fun _ => .ret [])

theorem Run.halts_exactly_in_callback :
    Run.lateMisuse.outcome = .halted (.unknownCapability 0x8) ∧
      (∃ m ∈ Run.lateMisuse.history, Run.lateMisuse.Misuse m) ∧
      ∃ t bits, (bits ≠ 0x1 ∧ bits ≠ 0x2 ∧ bits ≠ 0x4) ∧
        Halt.unknownCapability 0x8 = .unknownCapability bits ∧
        ⟨.called t (.operation (.hasBits bits)), Run.lateMisuse.final⟩ ∈
          Run.lateMisuse.history.drop 9 := by
  have houtcome : Run.lateMisuse.outcome = .halted (.unknownCapability 0x8) := rfl
  have hkeeps : Run.lateMisuse.history.Keeps .registry := by
    unfold Keeps
    decide
  have hsite : ⟨.returned (.operation .initFromHost) (.capabilities ⟨0x7⟩),
      ⟨⟨0, .ready ⟨0x7⟩⟩, .new, .new⟩⟩ :: Run.lateMisuse.history.drop 9
        <:+ Run.lateMisuse.history := ⟨Run.lateMisuse.history.take 8, rfl⟩
  obtain ⟨hhalts, -, -, hlater⟩ := Run.halts_exactly_on_misuse Run.lateMisuse
  exact ⟨houtcome, hhalts.mp ⟨_, houtcome⟩, (hlater hkeeps).2 _ _ _ _ _ rfl hsite houtcome⟩

end PlatformLayer
