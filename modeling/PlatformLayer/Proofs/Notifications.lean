import PlatformLayer.Proofs.Activations
import PlatformLayer.Proofs.Pieces

/-!
# What a notification runs

A notification looks at the exit slot once. The callback that it finds there is entered, whatever
that callback or anything it runs does to the slot, and the notification says that it ran one. What
the slot holds can be read off the calls on record: it is what the last of them that changed it left,
whoever made that call.
-/

namespace PlatformLayer

open History

variable {scope : Scope} {o o' : Objects} {h h' : History Objects}

/-! ### The slot as its calls leave it -/

/-- The exit slot once this has happened. Only the owner of the objects can clear it, or have a new
one take its place. -/
@[simp] def Happening.exitSlot (scope : Scope) (slot : ExitSlot) : Happening → ExitSlot
  | called _ (.operation (.setExit k)) => ⟨some k⟩
  | called _ (.operation .clearExit) =>
      match scope with
      | .own => ⟨none⟩
      | .shared => slot
  | called _ (.operation (.replace .exitSlot)) =>
      match scope with
      | .own => .new
      | .shared => slot
  | _ => slot

theorem Happening.exitSlot_of_quiet {what : Happening} (hquiet : what.ofSlotCall = false)
    (slot : ExitSlot) : what.exitSlot scope slot = slot := by
  unfold exitSlot
  split
  · exact absurd hquiet.symm Bool.false_ne_true
  · exact absurd hquiet.symm Bool.false_ne_true
  · exact absurd hquiet.symm Bool.false_ne_true
  · rfl

namespace History

/-- The exit slot after a stretch of history. -/
def exitAfter (scope : Scope) (slot : ExitSlot) (h : History Objects) : ExitSlot :=
  h.foldl (fun slot m => m.what.exitSlot scope slot) slot

variable {slot next last : ExitSlot} {m : Moment Objects}

theorem exitAfter_append :
    exitAfter scope slot (h ++ h') = exitAfter scope (exitAfter scope slot h) h' :=
  List.foldl_append

/-- Every moment finds the slot as the calls before it left it. -/
structure ReplaysExit (scope : Scope) (slot : ExitSlot) (h : History Objects) (last : ExitSlot) :
    Prop where
  site : ∀ before m after, h = before ++ m :: after →
    m.state.exitSlot = exitAfter scope slot before
  final : last = exitAfter scope slot h

namespace ReplaysExit

theorem nil : ReplaysExit scope slot [] slot :=
  ⟨fun before _ _ hsplit => absurd hsplit.symm (by simp), rfl⟩

theorem cons (hslot : m.state.exitSlot = slot)
    (hrest : ReplaysExit scope (m.what.exitSlot scope slot) h last) :
    ReplaysExit scope slot (m :: h) last := by
  refine ⟨?_, hrest.final⟩
  intro before m' after hsplit
  cases before with
  | nil =>
      obtain ⟨rfl, -⟩ := List.cons.inj hsplit
      exact hslot
  | cons first before =>
      obtain ⟨rfl, hlater⟩ := List.cons.inj hsplit
      exact hrest.site before m' after hlater

theorem append (hfirst : ReplaysExit scope slot h next)
    (hrest : ReplaysExit scope next h' last) : ReplaysExit scope slot (h ++ h') last := by
  constructor
  · intro before m after hsplit
    rcases split_append hsplit with ⟨front, rfl, hlater⟩ | ⟨rest, hearlier, -⟩
    · rw [exitAfter_append, ← hfirst.final]
      exact hrest.site front m after hlater
    · exact hfirst.site before m rest hearlier
  · rw [exitAfter_append, ← hfirst.final]
    exact hrest.final

theorem of_quiet (hquiet : ∀ m ∈ h, ∀ slot, m.what.exitSlot scope slot = slot)
    (hslot : ∀ m ∈ h, m.state.exitSlot = slot) : ReplaysExit scope slot h slot := by
  induction h with
  | nil => exact .nil
  | cons m h ih =>
      obtain ⟨hm, hrest⟩ := List.forall_mem_cons.mp hquiet
      obtain ⟨hstate, hstates⟩ := List.forall_mem_cons.mp hslot
      refine .cons hstate ?_
      rw [hm]
      exact ih hrest hstates

theorem of_leaves (hleaves : LeavesSlots o h o') :
    ReplaysExit scope o.exitSlot h o'.exitSlot := by
  rw [hleaves.same.2.2]
  apply of_quiet
  · exact fun m hm => Happening.exitSlot_of_quiet (hleaves.lacks m hm)
  · exact fun m hm => (hleaves.same.1 m hm).2

end ReplaysExit

end History

namespace Prompt

variable {c : Call} {r : Reply} {notices : List Notice}

theorem exitSlot_eq (hprompt : Prompt scope o c r o' notices) (t : Nat) :
    o'.exitSlot = (Happening.called t c).exitSlot scope o.exitSlot := by
  cases hprompt with
  | kept hinit _ =>
      match c, hinit with
      | .init, _ => rfl
      | .operation .initFromHost, _ => rfl
  | clearExit howner =>
      subst howner
      rfl
  | @replace component howner =>
      subst howner
      cases component <;> rfl
  | @absent op hshared howner =>
      subst hshared
      cases op with
      | setExit k => exact absurd howner Bool.false_ne_true
      | replace component => cases component <;> rfl
      | _ => rfl
  | _ => rfl

/-- A call without client code has changed the slot by the time it puts anything on record. -/
theorem replaysExit (hprompt : Prompt scope o c r o' notices) (t : Nat) :
    ReplaysExit scope o.exitSlot
      (⟨.called t c, o⟩ :: (logging notices o' ++ [⟨.returned c r, o'⟩])) o'.exitSlot := by
  refine .cons rfl ?_
  rw [← hprompt.exitSlot_eq t]
  have hstill : Still o' (logging notices o' ++ [⟨.returned c r, o'⟩]) := by simp
  apply ReplaysExit.of_quiet
  · intro m hm slot
    rcases List.mem_append.mp hm with hlog | hreply
    · obtain ⟨n, -, rfl⟩ := List.mem_map.mp hlog
      rfl
    · rw [List.mem_singleton.mp hreply]
      rfl
  · intro m hm
    rw [hstill m hm]

end Prompt

theorem Passage.replaysExit {part : Part} {e : Outcome Unit}
    (hpassage : Passage scope part o e o' h) : ReplaysExit scope o.exitSlot h o'.exitSlot :=
  hpassage.gathers (P := fun o h o' => ReplaysExit scope o.exitSlot h o'.exitSlot) .of_leaves
    .append fun hprompt => hprompt.replaysExit _

/-! ### Entries into callbacks -/

/-- The callback that is entered, and the thread that it is entered on. -/
@[simp] def Happening.entry? : Happening → Option (CallbackId × Nat)
  | event (.callbackEntered k t) => some (k, t)
  | _ => none

/-- The callback that a notification finds, and the thread that notifies. -/
@[simp] def Moment.notification? : Moment Objects → Option (CallbackId × Nat)
  | ⟨.called t (.operation .notify), o⟩ => o.exitSlot.callback.map (·, t)
  | _ => none

namespace History

def callbackEntries (h : History Objects) : List (CallbackId × Nat) :=
  h.filterMap fun m => m.what.entry?

/-- The notifications that find a callback. -/
def notifications (h : History Objects) : List (CallbackId × Nat) :=
  h.filterMap Moment.notification?

theorem callbackEntries_append :
    callbackEntries (h ++ h') = callbackEntries h ++ callbackEntries h' :=
  List.filterMap_append

theorem notifications_append : notifications (h ++ h') = notifications h ++ notifications h' :=
  List.filterMap_append

theorem entries_logging (notices : List Notice) (o : Objects) :
    callbackEntries (logging notices o) = [] ∧ notifications (logging notices o) = [] := by
  constructor
  · rw [callbackEntries, logging, List.filterMap_map]
    exact List.filterMap_eq_nil_iff.mpr fun _ _ => rfl
  · rw [notifications, logging, List.filterMap_map]
    exact List.filterMap_eq_nil_iff.mpr fun _ _ => rfl

/-- Callbacks are entered as often as they are notified of. -/
theorem count_entries (hentries : callbackEntries h = notifications h) (k : CallbackId) :
    h.countP (fun m => m.what.entry?.map Prod.fst == some k)
      = h.countP fun m => m.notification?.map Prod.fst == some k := by
  have hcount : ∀ f : Moment Objects → Option (CallbackId × Nat),
      h.countP (fun m => (f m).map Prod.fst == some k) = (h.filterMap f).countP (·.1 == k) := by
    intro f
    rw [List.countP_filterMap]
    apply List.countP_congr
    intro m _
    cases f m <;> simp
  calc h.countP (fun m => m.what.entry?.map Prod.fst == some k)
      = (callbackEntries h).countP (·.1 == k) := hcount _
    _ = (notifications h).countP (·.1 == k) := by rw [hentries]
    _ = h.countP fun m => m.notification?.map Prod.fst == some k := (hcount _).symm

end History

theorem Prompt.notification_eq {c : Call} {r : Reply} {notices : List Notice}
    (hprompt : Prompt scope o c r o' notices) (t : Nat) :
    Moment.notification? ⟨.called t c, o⟩ = none := by
  cases hprompt with
  | kept hinit _ =>
      match c, hinit with
      | .init, _ => rfl
      | .operation .initFromHost, _ => rfl
  | unnotified hempty => simp [hempty]
  | @absent op _ howner =>
      cases op with
      | notify => exact absurd howner Bool.false_ne_true
      | _ => rfl
  | _ => rfl

/-- A callback is entered where a notification finds it, and nowhere else. -/
theorem Piece.entries_eq (piece : Piece scope h) : callbackEntries h = notifications h := by
  cases piece with
  | @alone m halone =>
      obtain ⟨what, o⟩ := m
      cases what with
      | event e =>
          cases e with
          | callbackEntered k t => exact absurd halone Bool.false_ne_true
          | _ => rfl
      | called t c =>
          cases c with
          | operation op =>
              cases op with
              | notify => exact absurd halone Bool.false_ne_true
              | _ => rfl
          | _ => rfl
      | _ => rfl
  | @prompt t c r o o' notices hprompt =>
      obtain ⟨hentries, hnotifications⟩ := entries_logging notices o'
      have hcall : notifications [⟨.called t c, o⟩] = [] :=
        List.filterMap_cons_none (hprompt.notification_eq t)
      rw [← List.singleton_append, callbackEntries_append, callbackEntries_append, hentries,
        notifications_append, notifications_append, hnotifications, hcall]
      rfl
  | fatal hfatal => cases hfatal <;> rfl
  | published hinit => rfl
  | @answered c a o =>
      obtain ⟨hentries, hnotifications⟩ := entries_logging (c.complaint a) o
      rw [← List.singleton_append, callbackEntries_append, hentries, notifications_append,
        hnotifications]
      rfl
  | entered hslot => simp [callbackEntries, notifications, hslot]

theorem Passage.entries_eq {part : Part} {e : Outcome Unit}
    (hpassage : Passage scope part o e o' h) : callbackEntries h = notifications h := by
  have hpieced := hpassage.pieced
  clear hpassage
  induction hpieced with
  | nil => rfl
  | cons piece _ ih => rw [callbackEntries_append, notifications_append, piece.entries_eq, ih]

/-! ### Runs -/

theorem Clients.RunsCallback.passage {clients : Clients} {deep : Prop} {k : CallbackId}
    {e : Outcome Unit} (hcode : clients.RunsCallback scope deep k o e o' h) :
    Passage scope (.code none none) o e o' h := by
  rcases hcode with ⟨-, result, hconduct, rfl⟩ | ⟨-, rfl, rfl, rfl⟩
  · cases hconduct with
    | finished hreaches => exact hreaches.passage
    | interrupted hreaches hcut =>
        rw [Stop.fate_outcome]
        refine .append hreaches.passage ?_
        cases hcut with
        | made _ call => exact .made call
        | spawned threads => exact .elsewhere threads
  · exact .stop

namespace Notified

variable {clients : Clients} {deep : Prop} {t : Nat} {e : Outcome Unit} {after : History Objects}

theorem of_empty (hnotified : Notified scope clients deep t o e after)
    (hempty : o.exitSlot.callback = none) :
    ∃ rest, after = ⟨.returned (.operation .notify) (.flag false), o⟩ :: rest := by
  cases hnotified with
  | unheard _ => exact ⟨_, rfl⟩
  | finished hslot _ => exact absurd (hempty.symm.trans hslot) nofun
  | cut hslot _ => exact absurd (hempty.symm.trans hslot) nofun

theorem of_installed (hnotified : Notified scope clients deep t o e after) {k : CallbackId}
    (hinstalled : o.exitSlot.callback = some k) :
    ∃ ending o' body tail, after = running k t o ++ (body ++ tail) ∧
      clients.RunsCallback scope deep k o ending o' body ∧
      ((∃ rest, ending = .returned () ∧ tail = ran k o' ++ rest) ∨
        ending = e ∧ ending ≠ .returned () ∧ tail = []) := by
  cases hnotified with
  | unheard hslot => exact absurd (hslot.symm.trans hinstalled) nofun
  | @finished k' o' _ body rest hslot hcode =>
      obtain rfl : k' = k := Option.some.inj (hslot.symm.trans hinstalled)
      exact ⟨_, o', body, _, rfl, hcode, Or.inl ⟨rest, rfl, rfl⟩⟩
  | @cut k' stop o' body hslot hcode =>
      obtain rfl : k' = k := Option.some.inj (hslot.symm.trans hinstalled)
      refine ⟨_, o', body, [], ?_, hcode, Or.inr ⟨rfl, stop.outcome_ne (), rfl⟩⟩
      rw [List.append_nil]

end Notified

/-- **A notification runs the callback that is installed when it is made.** Where it finds one, that
callback is announced at TRACE and entered at once, its code is run to the end, and the notification
says so, whatever has become of the slot; where it finds none, it says so and does nothing else. The
slot is at every moment what the calls so far left there, also in the midst of a callback, so each
callback is entered as often as a notification is made while the slot holds it. -/
theorem Run.notifications_run_installed (run : Run) :
    (∀ before t o after,
      run.history = before ++ ⟨.called t (.operation .notify), o⟩ :: after →
        (o.exitSlot.callback = none →
          ∃ rest, after = ⟨.returned (.operation .notify) (.flag false), o⟩ :: rest) ∧
        ∀ k, o.exitSlot.callback = some k →
          ∃ e o' body tail, after = running k t o ++ (body ++ tail) ∧
            run.clients.RunsCallback run.scope (underWay 0 before = run.depth) k o e o' body ∧
            body.callbackEntries = body.notifications ∧
            o'.exitSlot = exitAfter run.scope o.exitSlot body ∧
            ((∃ rest, e = .returned () ∧ tail = ran k o' ++ rest) ∨
              e = run.outcome ∧ e ≠ .returned () ∧ tail = [])) ∧
    (∀ before m after, run.history = before ++ m :: after →
      m.state.exitSlot = exitAfter run.scope .new before) ∧
    run.final.exitSlot = exitAfter run.scope .new run.history ∧
    (run.history.callbackEntries = run.history.notifications ∧
      ∀ k, run.history.countP (fun m => m.what.entry?.map Prod.fst == some k)
        = run.history.countP fun m => m.notification?.map Prod.fst == some k) ∧
    Notice.exitCallbackRunning.level = .trace ∧
    Notice.exitCallbackRunning.text = "running thread exit callback" := by
  have hreplays := run.passage.replaysExit
  have hentries := run.passage.entries_eq
  refine ⟨?_, hreplays.site, hreplays.final, ⟨hentries, count_entries hentries⟩, rfl, rfl⟩
  intro before t o after hsplit
  have hnotified := run.handles.notified before t o after hsplit
  refine ⟨hnotified.of_empty, fun k hslot => ?_⟩
  obtain ⟨e, o', body, tail, hafter, hcode, hend⟩ := hnotified.of_installed hslot
  have hbody := hcode.passage
  exact ⟨e, o', body, tail, hafter, hcode, hbody.entries_eq, hbody.replaysExit.final, hend⟩

/-- A callback installs another and notifies in its turn; that one clears the slot, so the second
notification of the thread runs nothing. -/
def Run.selfModifying : Run :=
  .alone ⟨fun _ _ => ⟨.ret .continueSearch, .continueSearch⟩, fun k =>
      if k = 1 then .call (.setExit 2) fun _ => .call .notify fun _ => .ret ()
      else .call .clearExit fun _ => .ret ()⟩ 2
    (.call (.setExit 1) fun _ => .call .notify fun r => .call .notify fun r' => .ret [r, r'])

theorem Run.notifications_run_installed_selfModifying :
    (∃ o' body rest, Run.selfModifying.history.drop 3
        = running 1 0 { Objects.new with exitSlot := ⟨some 1⟩ } ++ (body ++ (ran 1 o' ++ rest)) ∧
      o'.exitSlot = exitAfter .own ⟨some 1⟩ body) ∧
    Run.selfModifying.history.notifications = [(1, 0), (2, 0)] ∧
    Run.selfModifying.final.exitSlot = ⟨none⟩ := by
  obtain ⟨hsite, -, hfinal, ⟨hentries, -⟩, -⟩ := Run.notifications_run_installed Run.selfModifying
  have hsplit : Run.selfModifying.history = Run.selfModifying.history.take 2 ++
      ⟨.called 0 (.operation .notify), { Objects.new with exitSlot := ⟨some 1⟩ }⟩ ::
        Run.selfModifying.history.drop 3 := rfl
  have hreturned : Run.selfModifying.outcome = .returned () := rfl
  have hseen : Run.selfModifying.history.callbackEntries = [(1, 0), (2, 0)] := rfl
  have hreplayed : exitAfter Run.selfModifying.scope .new Run.selfModifying.history = ⟨none⟩ := rfl
  obtain ⟨e, o', body, tail, hafter, -, -, hslot, hend⟩ := (hsite _ _ _ _ hsplit).2 1 rfl
  refine ⟨⟨o', body, ?_⟩, hentries ▸ hseen, hfinal.trans hreplayed⟩
  rcases hend with ⟨rest, -, rfl⟩ | ⟨rfl, hstopped, -⟩
  · exact ⟨rest, hafter, hslot⟩
  · exact absurd hreturned hstopped

end PlatformLayer
