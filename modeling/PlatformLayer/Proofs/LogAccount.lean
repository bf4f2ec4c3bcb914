import PlatformLayer.Proofs.Pieces
import PlatformLayer.Proofs.Registration

/-!
# The log as an account of a run

What is logged at the levels INFO, WARN and DEBUG tells what came of the calls: each start-up that
returned, each probe that failed, each registration and each callback that was replaced has its
line, and nothing else has one. A call that client code makes inside another call returns first, so
the lines stand in the order of the outcomes and not of the calls.
-/

namespace PlatformLayer

open History

def Level.tells : Level → Bool
  | info | warn | debug => true
  | error | trace => false

def Happening.told? : Happening → Option (Level × String)
  | event (.logged n) => if n.level.tells then some (n.level, n.text) else none
  | _ => none

/-- The line that is due to an outcome. Only the first start-up to return is news. -/
def Happening.due? (started : Bool) : Happening → Option (Level × String)
  | answered c (.error failure) =>
    some (.warn, c.name ++ " probe: " ++ failure.message ++ ", treating as absent")
  | returned .init (.capabilities s) | returned (.operation .initFromHost) (.capabilities s) =>
    if started then some (.warn, "PAL capabilities already initialized, keeping " ++ s.display)
    else some (.info, "PAL capabilities: " ++ s.display)
  | returned (.operation (.register _)) (.registration (.ok _)) =>
    some (.debug, "hardware exception handler registered")
  | returned (.operation (.register _)) (.registration (.error _)) =>
    some (.warn, "hardware exception handler already registered, ignoring")
  | returned (.operation (.setExit _)) (.callback (some _)) =>
    some (.debug, "thread exit callback replaced")
  | _ => none

namespace History

/-- The INFO, WARN and DEBUG lines of a history. -/
def told (h : History Objects) : List (Level × String) := h.filterMap fun m => m.what.told?

/-- The lines that are due to the outcomes in a history, in order. -/
def due : Bool → History Objects → List (Level × String)
  | _, [] => []
  | started, m :: h => (m.what.due? started).toList ++ due (started || m.what.isStartUpReply) h

def started (h : History Objects) : Bool := h.any fun m => m.what.isStartUpReply

variable {h h' : History Objects}

theorem started_iff : h.started ↔ StartedUp h := by
  simp [started, StartedUp]

theorem told_append : (h ++ h').told = h.told ++ h'.told := List.filterMap_append

theorem due_append (b : Bool) : due b (h ++ h') = due b h ++ due (b || h.started) h' := by
  induction h generalizing b with
  | nil => simp [due, started]
  | cons m h ih =>
      have hstarted : started (m :: h) = (m.what.isStartUpReply || started h) := List.any_cons
      rw [List.cons_append, due, ih, due, hstarted, Bool.or_assoc, List.append_assoc]

end History

/-- Neither a line nor an outcome that is due one. -/
def Happening.untold (what : Happening) : Prop :=
  what.told? = none ∧ (∀ b, what.due? b = none) ∧ what.isStartUpReply = false

theorem Happening.untold_of_alone {what : Happening} (halone : what.standsAlone) : what.untold := by
  cases what with
  | event e =>
      cases e with
      | logged n =>
          cases n with
          | faultUnclaimed code => exact ⟨rfl, fun _ => rfl, rfl⟩
          | faultHandled fault status => exact ⟨rfl, fun _ => rfl, rfl⟩
          | _ => exact absurd halone Bool.false_ne_true
      | callbackEntered k t => exact absurd halone Bool.false_ne_true
      | _ => exact ⟨rfl, fun _ => rfl, rfl⟩
  | returned c r =>
      cases c with
      | init => exact absurd halone Bool.false_ne_true
      | forward fault => cases r <;> exact ⟨rfl, fun _ => rfl, rfl⟩
      | operation op =>
          cases op with
          | dispatch fault context => cases r <;> exact ⟨rfl, fun _ => rfl, rfl⟩
          | notify => cases r <;> exact ⟨rfl, fun _ => rfl, rfl⟩
          | _ => exact absurd halone Bool.false_ne_true
  | answered c a => exact absurd halone Bool.false_ne_true
  | _ => exact ⟨rfl, fun _ => rfl, rfl⟩

namespace History

variable {p : History Objects} (huntold : ∀ m ∈ p, m.what.untold)
include huntold

theorem told_of_untold : p.told = [] := List.filterMap_eq_nil_iff.mpr fun m hm => (huntold m hm).1

theorem due_of_untold (b : Bool) : due b p = [] := by
  induction p generalizing b with
  | nil => rfl
  | cons m p ih =>
      obtain ⟨hm, hrest⟩ := List.forall_mem_cons.mp huntold
      rw [due, hm.2.1 b, ih hrest]
      rfl

end History

/-- What a piece tells: nothing, what came of the call that it ends, or that a probe failed. -/
inductive Account : History Objects → Prop where
  | silent {p : History Objects} (hsilent : ∀ m ∈ p, m.what.untold) : Account p
  | published {c : Call} {s : CapabilitySet} {x : Objects} (hinit : c.isInit) :
      Account [⟨.event (.logged (.capabilitiesPublished s)), x⟩, ⟨.returned c (.capabilities s), x⟩]
  | kept {t : Nat} {c : Call} {s : CapabilitySet} {x : Objects} (hinit : c.isInit)
      (hpublished : x.registry.published = some s) :
      Account [⟨.called t c, x⟩, ⟨.event (.logged (.capabilitiesKept s)), x⟩,
        ⟨.returned c (.capabilities s), x⟩]
  | changed {t : Nat} {c : Call} {r : Reply} {n : Notice} {x y : Objects} (htells : n.level.tells)
      (hdue : ∀ b, (Happening.returned c r).due? b = some (n.level, n.text))
      (hinit : c.isInit = false) :
      Account [⟨.called t c, x⟩, ⟨.event (.logged n), y⟩, ⟨.returned c r, y⟩]
  | failed {c : Capability} {failure : Failure} {x : Objects} :
      Account [⟨.answered c (.error failure), x⟩,
        ⟨.event (.logged (.probeFailed c failure)), x⟩]

section Pieces

variable {scope : Scope} {p : History Objects}

theorem Prompt.account {t : Nat} {c : Call} {r : Reply} {o o' : Objects} {notices : List Notice}
    (hprompt : Prompt scope o c r o' notices) :
    Account (⟨.called t c, o⟩ :: (logging notices o' ++ [⟨.returned c r, o'⟩])) := by
  have hsilent : ∀ {c : Call} {r : Reply} {x y : Objects}, (Happening.returned c r).untold →
      Account [⟨.called t c, x⟩, ⟨.returned c r, y⟩] := by
    intro c r x y huntold
    exact .silent (by simpa using ⟨⟨rfl, fun _ => rfl, rfl⟩, huntold⟩)
  cases hprompt with
  | kept hinit hpublished => exact .kept hinit hpublished
  | registered hempty => exact .changed rfl (fun _ => rfl) rfl
  | refused hfull => exact .changed rfl (fun _ => rfl) rfl
  | setExit =>
      cases hslot : o.exitSlot.callback with
      | none =>
          rw [ExitSlot.replacing, hslot]
          exact hsilent ⟨rfl, fun _ => rfl, rfl⟩
      | some old =>
          rw [ExitSlot.replacing, hslot]
          exact .changed rfl (fun _ => rfl) rfl
  | @absent op hshared howner => cases op <;> exact hsilent ⟨rfl, fun _ => rfl, rfl⟩
  | _ => exact hsilent ⟨rfl, fun _ => rfl, rfl⟩

theorem Piece.account (piece : Piece scope p) : Account p := by
  cases piece with
  | alone halone => exact .silent (by simpa using Happening.untold_of_alone halone)
  | prompt hprompt => exact hprompt.account
  | fatal hfatal =>
      refine .silent (List.forall_mem_cons.mpr ⟨⟨rfl, fun _ => rfl, rfl⟩, ?_⟩)
      simpa using ⟨rfl, fun _ => rfl, rfl⟩
  | published hinit => exact .published hinit
  | @answered c a x =>
      cases a with
      | ok present =>
          refine .silent (List.forall_mem_cons.mpr ⟨⟨rfl, fun _ => rfl, rfl⟩, ?_⟩)
          exact fun m hm => absurd hm List.not_mem_nil
      | error failure => exact .failed
  | entered hslot =>
      refine .silent (List.forall_mem_cons.mpr ⟨⟨rfl, fun _ => rfl, rfl⟩, ?_⟩)
      refine List.forall_mem_cons.mpr ⟨⟨rfl, fun _ => rfl, rfl⟩, ?_⟩
      simpa using ⟨rfl, fun _ => rfl, rfl⟩

end Pieces

theorem Happening.due?_of_isInit {c : Call} (hinit : c.isInit) (s : CapabilitySet) (b : Bool) :
    (Happening.returned c (.capabilities s)).due? b
      = if b then some (Notice.level (.capabilitiesKept s), Notice.text (.capabilitiesKept s))
        else some (Notice.level (.capabilitiesPublished s), Notice.text (.capabilitiesPublished s))
    := by
  match c, hinit with
  | .init, _ => rfl
  | .operation .initFromHost, _ => rfl

/-- A piece tells what is due, if it is known right whether a start-up has returned before. -/
theorem Account.told_eq_due {p : History Objects} (haccount : Account p) {b : Bool}
    (hkept : ∀ t c x rest, p = ⟨.called t c, x⟩ :: rest → x.registry.published ≠ none → b = true)
    (hfirst : ∀ c s x, c.isInit → p = [⟨.event (.logged (.capabilitiesPublished s)), x⟩,
      ⟨.returned c (.capabilities s), x⟩] → b = false) : p.told = due b p := by
  cases haccount with
  | silent huntold => rw [told_of_untold huntold, due_of_untold huntold]
  | published hinit =>
      obtain rfl := hfirst _ _ _ hinit rfl
      simp only [due, Happening.due?_of_isInit hinit]
      rfl
  | kept hinit hpublished =>
      obtain rfl := hkept _ _ _ _ rfl (by simp [hpublished])
      simp only [due, Happening.due?_of_isInit hinit]
      rfl
  | @changed t c r n x y htells hdue hinit =>
      simp only [due, hdue, told]
      simp [Happening.told?, htells, Happening.due?]
  | failed => rfl

/-- A line is told right before the reply that it is due to, or right after the answer. -/
def History.NextToOutcome (before : History Objects) (n : Notice) (x : Objects)
    (after : History Objects) : Prop :=
  (∃ c r rest, after = ⟨.returned c r, x⟩ :: rest ∧
      (Happening.returned c r).due? before.started = some (n.level, n.text)) ∨
    ∃ c a front, before = front ++ [⟨.answered c a, x⟩] ∧
      (Happening.answered c a).due? before.started = some (n.level, n.text)

theorem Account.nextToOutcome {front left right back : History Objects} {n : Notice} {x : Objects}
    (haccount : Account (left ++ ⟨.event (.logged n), x⟩ :: right)) (htells : n.level.tells)
    (hkept : ∀ t c y, left = [⟨.called t c, y⟩] → y.registry.published ≠ none →
      (front ++ left).started = true)
    (hfirst : ∀ c s, c.isInit → left = [] → n = .capabilitiesPublished s →
      right = [⟨.returned c (.capabilities s), x⟩] → (front ++ left).started = false) :
    NextToOutcome (front ++ left) n x (right ++ back) := by
  generalize hp : left ++ ⟨.event (.logged n), x⟩ :: right = p at haccount
  cases haccount with
  | silent huntold =>
      have hnone := (huntold ⟨.event (.logged n), x⟩ (by simp [← hp])).1
      rw [Happening.told?, if_pos htells] at hnone
      exact absurd hnone (Option.some_ne_none _)
  | @published c s y hinit =>
      rcases site_in_two hp with ⟨rfl, hline, rfl⟩ | ⟨-, hreply, -⟩
      · cases hline
        refine Or.inl ⟨c, .capabilities s, back, rfl, ?_⟩
        rw [Happening.due?_of_isInit hinit, hfirst c s hinit rfl rfl rfl]
        rfl
      · cases hreply
  | @kept t c s y hinit hpublished =>
      rcases site_in_three hp with ⟨-, hcall, -⟩ | ⟨rfl, hline, rfl⟩ | ⟨-, hreply, -⟩
      · cases hcall
      · cases hline
        refine Or.inl ⟨c, .capabilities s, back, rfl, ?_⟩
        rw [Happening.due?_of_isInit hinit, hkept t c _ rfl (by simp [hpublished])]
        rfl
      · cases hreply
  | @changed t c r n' y y' htells' hdue hinit =>
      rcases site_in_three hp with ⟨-, hcall, -⟩ | ⟨rfl, hline, rfl⟩ | ⟨-, hreply, -⟩
      · cases hcall
      · cases hline
        exact Or.inl ⟨c, r, back, rfl, hdue _⟩
      · cases hreply
  | @failed c failure y =>
      rcases site_in_two hp with ⟨-, hanswer, -⟩ | ⟨rfl, hline, rfl⟩
      · cases hanswer
      · cases hline
        exact Or.inr ⟨c, .error failure, front, rfl, rfl⟩

/-! ### Lines at INFO -/

theorem Happening.due?_info {what : Happening} {b : Bool} {line : Level × String}
    (hdue : what.due? b = some line) (hinfo : line.1 = .info) :
    b = false ∧ what.isStartUpReply := by
  unfold Happening.due? at hdue
  -- every other line is a warning or for debugging
  split at hdue
  case h_2 =>
      cases b with
      | false => exact ⟨rfl, rfl⟩
      | true =>
          cases hdue
          exact absurd hinfo nofun
  case h_3 =>
      cases b with
      | false => exact ⟨rfl, rfl⟩
      | true =>
          cases hdue
          exact absurd hinfo nofun
  case h_7 => exact absurd hdue nofun
  all_goals
    cases hdue
    exact absurd hinfo nofun

namespace History

def news (lines : List (Level × String)) : List (Level × String) :=
  lines.filter fun line => line.1 = .info

theorem news_append (lines lines' : List (Level × String)) :
    news (lines ++ lines') = news lines ++ news lines' := List.filter_append ..

theorem news_of_started (h : History Objects) : news (due true h) = [] := by
  induction h with
  | nil => rfl
  | cons m h ih =>
      have hm : news (m.what.due? true).toList = [] := by
        refine List.filter_eq_nil_iff.mpr fun line hline => ?_
        rw [decide_eq_true_eq]
        intro hinfo
        exact Bool.noConfusion (Happening.due?_info (Option.mem_toList.mp hline) hinfo).1
      rw [due, news_append, hm, Bool.true_or, ih]
      rfl

theorem news_length_le (h : History Objects) : (news (due false h)).length ≤ 1 := by
  induction h with
  | nil => exact Nat.zero_le 1
  | cons m h ih =>
      rw [due, news_append, List.length_append, Bool.false_or]
      by_cases hreply : m.what.isStartUpReply
      · rw [hreply, news_of_started, List.length_nil, Nat.add_zero]
        exact Nat.le_trans (List.length_filter_le _ _) Option.length_toList_le
      · have hm : news (m.what.due? false).toList = [] := by
          refine List.filter_eq_nil_iff.mpr fun line hline => ?_
          rw [decide_eq_true_eq]
          exact fun hinfo => hreply (Happening.due?_info (Option.mem_toList.mp hline) hinfo).2
        rw [hm, Bool.eq_false_iff.mpr hreply, List.length_nil, Nat.zero_add]
        exact ih

end History

section Passages

variable {scope : Scope} {part : Part} {o o' : Objects} {e : Outcome Unit} {h : History Objects}
  (hpassage : Passage scope part o e o' h)
include hpassage

/-- A set is published by a call that found the registry idle, after the probes were asked. -/
theorem Passage.publishing_site {before after : History Objects} {c : Call} {s : CapabilitySet}
    {x : Objects} (hinit : c.isInit)
    (hsplit : h = before ++ ⟨.event (.logged (.capabilitiesPublished s)), x⟩ ::
      ⟨.returned c (.capabilities s), x⟩ :: after) :
    ∃ pre t y body s' z, before = pre ++ ⟨.called t c, y⟩ :: body ∧ y.registry.phase = .idle ∧
      Passage scope (.asking c.heralds Capability.all .empty s') y.probing (.returned ()) z body := by
  have hsite : ⟨.returned c (.capabilities s), x⟩ :: after <:+ h := by
    rw [hsplit]
    exact (List.suffix_cons _ _).trans (List.suffix_append before _)
  obtain ⟨t, frame, left, y, front, hcall, pre, hpre⟩ := hpassage.reply_site hsite
  have hfront : pre ++ front = before ++ [⟨.event (.logged (.capabilitiesPublished s)), x⟩] := by
    have hsame := hpre.trans hsplit
    rw [← List.append_assoc, List.append_cons before] at hsame
    exact List.append_cancel_right hsame
  rcases hcall.of_init hinit with ⟨s', -, -, -, hbody⟩ | ⟨-, hhung, -⟩ |
    ⟨hidle, s', z, body, hasking, ⟨-, -, hbody⟩ | ⟨hstuck, -⟩⟩
  · -- a start-up that keeps a set logs another line
    have hkept : front ++ [_] = ([⟨.called t c, y⟩] ++
        [⟨.event (.logged (.capabilitiesKept s')), y⟩]) ++ [_] := hbody
    have hlogged := (List.append_inj' hkept rfl).1
    rw [hlogged, ← List.append_assoc] at hfront
    cases (List.append_inj' hfront rfl).2
  · cases hhung
  · have hlogged : front = (⟨.called t c, y⟩ :: body) ++
        [⟨.event (.logged (.capabilitiesPublished s')), x⟩] := by
      rw [List.append_cons body, ← List.cons_append] at hbody
      exact (List.append_inj' hbody rfl).1
    rw [hlogged, ← List.append_assoc] at hfront
    exact ⟨pre, t, y, body, s', z, (List.append_inj' hfront rfl).1.symm, hidle, hasking⟩
  · exact absurd rfl hstuck

variable (hkeeps : h.Keeps .registry) (hnew : o.registry.published = none)
include hkeeps hnew

theorem Passage.started_of_published {before after : History Objects} {t : Nat} {c : Call}
    {x : Objects} (hsplit : h = before ++ ⟨.called t c, x⟩ :: after)
    (hpublished : x.registry.published ≠ none) : before.started = true :=
  started_iff.mpr ((hpassage.published_iff_startedUp hkeeps hnew hsplit).mp hpublished)

/-- The start-up that publishes is the first one to return. -/
theorem Passage.first_to_publish {before after : History Objects} {c : Call} {s : CapabilitySet}
    {x : Objects} (hinit : c.isInit)
    (hsplit : h = before ++ ⟨.event (.logged (.capabilitiesPublished s)), x⟩ ::
      ⟨.returned c (.capabilities s), x⟩ :: after) : before.started = false := by
  obtain ⟨pre, t, y, body, s', z, rfl, hidle, hasking⟩ := hpassage.publishing_site hinit hsplit
  rw [List.append_assoc, List.cons_append] at hsplit
  have hkept : Keeps .registry body := hkeeps.mono fun m hm => by
    rw [hsplit]
    exact List.mem_append_right _ (List.mem_cons_of_mem _ (List.mem_append_left _ hm))
  rw [Bool.eq_false_iff, Ne, started_iff, startedUp_append, startedUp_cons]
  rintro (hearlier | hcall | ⟨⟨what, x'⟩, hmem, hreply⟩)
  · -- the call found a registry that was idle
    refine (hpassage.published_iff_startedUp hkeeps hnew hsplit).mpr hearlier ?_
    simp [Registry.published, hidle]
  · exact absurd hcall Bool.false_ne_true
  · -- and while it was probing, no other start-up returned
    obtain ⟨c', s'', rfl, hinit'⟩ := Happening.of_isStartUpReply hreply
    have hready := hasking.init_reply hkept hinit' hmem
    have hprobing := (hasking.probing hkept rfl).1 _ hmem
    cases hready.symm.trans hprobing

/-- **What is told is what is due**, line by line. -/
theorem Passage.told_eq_due : h.told = due false h := by
  -- piece by piece, with what stands before them
  have hfrom : ∀ before rest, h = before ++ rest → Pieced scope rest →
      rest.told = due before.started rest := by
    intro before rest hsplit hpieced
    induction hpieced generalizing before with
    | nil => rfl
    | @cons p rest piece _ ih =>
        have hlater := ih (before ++ p) (by rw [hsplit, List.append_assoc])
        have hstarted : (before ++ p).started = (before.started || p.started) := List.any_append
        rw [told_append, due_append, hlater, hstarted]
        refine congrArg (· ++ _) (piece.account.told_eq_due ?_ ?_)
        · rintro t c x after rfl hpublished
          exact hpassage.started_of_published hkeeps hnew hsplit hpublished
        · rintro c s x hinit rfl
          exact hpassage.first_to_publish hkeeps hnew hinit hsplit
  exact hfrom [] h rfl hpassage.pieced

theorem Passage.nextToOutcome {before after : History Objects} {n : Notice} {x : Objects}
    (hsplit : h = before ++ ⟨.event (.logged n), x⟩ :: after) (htells : n.level.tells) :
    NextToOutcome before n x after := by
  obtain ⟨front, left, right, back, piece, rfl, rfl⟩ := hpassage.pieced.site hsplit
  apply piece.account.nextToOutcome htells
  · rintro t c y rfl hpublished
    have hcalled : h = front ++ ⟨.called t c, y⟩ ::
        (⟨.event (.logged n), x⟩ :: (right ++ back)) := by
      rw [hsplit, List.append_assoc]
      rfl
    have hstarted := hpassage.started_of_published hkeeps hnew hcalled hpublished
    rw [started, List.any_append, ← started, hstarted, Bool.true_or]
  · rintro c s hinit rfl rfl rfl
    exact hpassage.first_to_publish hkeeps hnew hinit hsplit

end Passages

/-- **The log is a sound and complete account of a run.** Its INFO, WARN and DEBUG lines are, one to
one and in this order, the lines due to the outcomes of the run, and each stands next to its
outcome. Every start-up that returns names the same set, only the first is told at INFO, and at most
one registration succeeds. -/
theorem Run.log_accounts_for_outcomes (run : Run)
    (hkeeps : ∀ component, run.history.Keeps component) :
    run.history.told = due false run.history ∧
      (∀ before n x after, run.history = before ++ ⟨.event (.logged n), x⟩ :: after →
        n.level.tells → NextToOutcome before n x after) ∧
      (news run.history.told).length ≤ 1 ∧
      (∀ c s x, c.isInit → ⟨.returned c (.capabilities s), x⟩ ∈ run.history →
        run.final.registry.published = some s) ∧
      run.history.registrations.length ≤ 1 := by
  have htold := run.passage.told_eq_due (hkeeps .registry) rfl
  refine ⟨htold, ?_, ?_, ?_, ?_⟩
  · intro before n x after hsplit htells
    exact run.passage.nextToOutcome (hkeeps .registry) rfl hsplit htells
  · rw [htold]
    exact news_length_le run.history
  · intro c s x hinit hmem
    obtain ⟨front, after, hsplit⟩ := List.append_of_mem hmem
    have hready := run.passage.ready_after (hkeeps .registry) hinit ⟨front, hsplit.symm⟩
    exact Registry.published_eq_some_iff.mpr hready.2
  · rw [run.registrations_eq (hkeeps .handlerSlot)]
    exact Option.length_toList_le

/-- The probe registers a handler before it answers, and fails for one capability; the callback
installs itself again. Start-up and the end of a thread come twice. -/
def Run.eventful : Run :=
  .alone ⟨fun _ _ => ⟨.ret .continueSearch, .continueSearch⟩,
      fun k => .call (.setExit k) fun _ => .ret ()⟩ 1
    (.call (.setExit 1) fun _ =>
      .init (fun c => .call (.register 7) fun _ => .ret (match c with
          | .writeWatch => .error .handlerAlreadyRegistered
          | _ => .ok true)) (fun _ => .ok true) fun _ =>
      .spawn 2 (.call .notify fun r => .ret [r]) fun _ =>
      .call .initFromHost fun r => .ret [r])

theorem Run.log_accounts_for_outcomes_eventful :
    Run.eventful.history.told = due false Run.eventful.history ∧
      Run.eventful.history.told.map (·.1)
        = [.debug, .warn, .warn, .warn, .info, .debug, .debug, .warn] ∧
      (news Run.eventful.history.told).length ≤ 1 ∧
      Run.eventful.final.registry.published = some ⟨0x6⟩ ∧
      Run.eventful.history.registrations.length ≤ 1 := by
  have hkeeps : ∀ component, Run.eventful.history.Keeps component := by
    intro component
    unfold Keeps
    cases component <;> decide
  obtain ⟨htold, -, hnews, hset, honce⟩ := Run.log_accounts_for_outcomes Run.eventful hkeeps
  have hlevels : Run.eventful.history.told.map (·.1)
      = [.debug, .warn, .warn, .warn, .info, .debug, .debug, .warn] := by decide
  have hreply : ∃ x, ⟨.returned .init (.capabilities ⟨0x6⟩), x⟩ ∈ Run.eventful.history :=
    ⟨_, List.mem_of_getElem? (i := 23) rfl⟩
  obtain ⟨x, hmem⟩ := hreply
  exact ⟨htold, hlevels, hnews, hset .init ⟨0x6⟩ x rfl hmem, honce⟩

end PlatformLayer
