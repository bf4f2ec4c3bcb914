import PlatformLayer.Proofs.Replies
import PlatformLayer.Proofs.RunPassage

/-!
# Every exit callback is handed back

As long as nothing takes the place of the exit slot, the callbacks that have been installed are
those that have been handed back, in the same order, and the one that the slot holds. A callback may
install another or clear the slot while it is being run by a notification, and so may any handler,
probe or thread; the account still adds up wherever it is looked at.

Only at one kind of point there is nothing to look at: a call that has changed the slot but has not
yet returned still owes its caller the callback that it found.
-/

namespace PlatformLayer

open History

/-! ### What is on record -/

@[simp] def Happening.installed? : Happening → Option CallbackId
  | called _ (.operation (.setExit k)) => some k
  | _ => none

@[simp] def Happening.handedBack? : Happening → Option CallbackId
  | returned (.operation (.setExit _)) (.callback old) => old
  | returned (.operation .clearExit) (.callback old) => old
  | _ => none

/-- The calls that change the exit slot. -/
@[simp] def Happening.changesExit : Happening → Bool
  | called _ (.operation (.setExit _)) => true
  | called _ (.operation .clearExit) => true
  | _ => false

/-- What such a call records when it has changed the slot, its reply being the last. -/
@[simp] def Happening.afterExitChange : Happening → Bool
  | event (.logged .exitCallbackReplaced) => true
  | returned (.operation (.setExit _)) _ => true
  | returned (.operation .clearExit) _ => true
  | _ => false

namespace History

/-- The callbacks that were to be installed, in order. -/
def installed (h : History Objects) : List CallbackId :=
  h.filterMap fun m => m.what.installed?

/-- The callbacks that a call gave back to its caller, in order. -/
def handedBack (h : History Objects) : List CallbackId :=
  h.filterMap fun m => m.what.handedBack?

/-- The exit slot where this stretch begins; `last` is where it ends. -/
def slotAt (last : ExitSlot) : History Objects → ExitSlot
  | [] => last
  | m :: _ => m.state.exitSlot

section Lists

variable {m : Moment Objects} {h h' : History Objects}

theorem installed_append : installed (h ++ h') = installed h ++ installed h' :=
  List.filterMap_append

theorem handedBack_append : handedBack (h ++ h') = handedBack h ++ handedBack h' :=
  List.filterMap_append

theorem installed_cons_of_none (hm : m.what.installed? = none) :
    installed (m :: h) = installed h :=
  List.filterMap_cons_none hm

theorem handedBack_cons_of_none (hm : m.what.handedBack? = none) :
    handedBack (m :: h) = handedBack h :=
  List.filterMap_cons_none hm

end Lists

/-- How the exit slot goes through a stretch: most moments find it as the one before left it, and
now and then a call trades one content for another. -/
inductive Trades : ExitSlot → History Objects → ExitSlot → Prop where
  | done {slot : ExitSlot} : Trades slot [] slot
  | pass {slot slot' : ExitSlot} {m : Moment Objects} {h : History Objects}
      (hslot : m.state.exitSlot = slot) (hin : m.what.installed? = none)
      (hout : m.what.handedBack? = none) (rest : Trades slot h slot') : Trades slot (m :: h) slot'
  | trade {slot next slot' : ExitSlot} {m : Moment Objects} {records h : History Objects}
      (hslot : m.state.exitSlot = slot) (hchanges : m.what.changesExit)
      (hrecords : ∀ m ∈ records, m.what.afterExitChange ∧ m.state.exitSlot = next)
      (hbalance : slot.callback.toList ++ installed (m :: records)
        = handedBack (m :: records) ++ next.callback.toList)
      (rest : Trades next h slot') : Trades slot (m :: (records ++ h)) slot'

namespace Trades

variable {slot next slot' : ExitSlot} {m : Moment Objects} {h h' before after : History Objects}

theorem append (hfirst : Trades slot h next) (hrest : Trades next h' slot') :
    Trades slot (h ++ h') slot' := by
  induction hfirst with
  | done => exact hrest
  | pass hslot hin hout _ ih => exact .pass hslot hin hout (ih hrest)
  | trade hslot hchanges hrecords hbalance _ ih =>
      rw [List.cons_append, List.append_assoc]
      exact .trade hslot hchanges hrecords hbalance (ih hrest)

theorem slotAt_eq (htrades : Trades slot h slot') : slotAt slot' h = slot := by
  cases htrades with
  | done => rfl
  | pass hslot _ _ _ => exact hslot
  | trade hslot _ _ _ _ => exact hslot

/-- A point outside the calls that change the slot lies before or after the records of any one of
them. -/
theorem past_records {records : History Objects}
    (hrecords : ∀ m ∈ records, m.what.afterExitChange ∧ m.state.exitSlot = next)
    (hrest : ∀ m ∈ after.head?, m.what.afterExitChange = false)
    (hsplit : records ++ h = before ++ after) : ∃ b, before = records ++ b ∧ h = b ++ after := by
  rcases List.append_eq_append_iff.mp hsplit with ⟨b, hbefore, hh⟩ | ⟨a, hinside, hafter⟩
  · exact ⟨b, hbefore, hh⟩
  · cases a with
    | nil =>
        rw [List.append_nil] at hinside
        rw [List.nil_append] at hafter
        exact ⟨[], by rw [hinside, List.append_nil], hafter.symm⟩
    | cons m a =>
        have hm : m ∈ records := by
          rw [hinside]
          exact List.mem_append_right before List.mem_cons_self
        have hhead := hrest m (by rw [hafter]; rfl)
        rw [(hrecords m hm).1] at hhead
        exact Bool.noConfusion hhead

theorem conserved (htrades : Trades slot h slot') (hsplit : h = before ++ after)
    (hrest : ∀ m ∈ after.head?, m.what.afterExitChange = false) :
    slot.callback.toList ++ installed before
      = handedBack before ++ (slotAt slot' after).callback.toList := by
  induction htrades generalizing before with
  | done =>
      obtain ⟨rfl, rfl⟩ := List.append_eq_nil_iff.mp hsplit.symm
      exact List.append_nil _
  | @pass slot _ m h hslot hin hout rest ih =>
      cases before with
      | nil =>
          obtain rfl : m :: h = after := hsplit
          rw [slotAt, hslot]
          exact List.append_nil _
      | cons m' before =>
          obtain ⟨rfl, hh⟩ := List.cons.inj hsplit
          rw [installed_cons_of_none hin, handedBack_cons_of_none hout]
          exact ih hh
  | @trade slot next _ m records h hslot hchanges hrecords hbalance rest ih =>
      cases before with
      | nil =>
          obtain rfl : m :: (records ++ h) = after := hsplit
          rw [slotAt, hslot]
          exact List.append_nil _
      | cons m' before =>
          obtain ⟨rfl, hinside⟩ := List.cons.inj hsplit
          obtain ⟨b, rfl, hh⟩ := past_records hrecords hrest hinside
          rw [← List.cons_append, installed_append, handedBack_append]
          calc slot.callback.toList ++ (installed (m :: records) ++ installed b)
              = handedBack (m :: records) ++ (next.callback.toList ++ installed b) := by
                rw [← List.append_assoc, hbalance, List.append_assoc]
            _ = handedBack (m :: records) ++ (handedBack b ++
                  (slotAt _ after).callback.toList) := by rw [ih hh]
            _ = _ := (List.append_assoc _ _ _).symm

/-- Between two moments of which the first does not call for a change, the slot stays. -/
theorem steady (htrades : Trades slot h slot') (hsplit : h = before ++ m :: after)
    (hm : m.what.changesExit = false) : slotAt slot' after = m.state.exitSlot := by
  induction htrades generalizing before with
  | done => exact absurd hsplit.symm (by simp)
  | pass hslot hin hout rest ih =>
      cases before with
      | nil =>
          obtain ⟨rfl, rfl⟩ := List.cons.inj hsplit
          exact rest.slotAt_eq.trans hslot.symm
      | cons m' before => exact ih (List.cons.inj hsplit).2
  | trade hslot hchanges hrecords hbalance rest ih =>
      cases before with
      | nil =>
          obtain ⟨rfl, -⟩ := List.cons.inj hsplit
          exact absurd (hm.symm.trans hchanges) Bool.false_ne_true
      | cons m' before =>
          obtain ⟨rfl, hinside⟩ := List.cons.inj hsplit
          rcases List.append_eq_append_iff.mp hinside with ⟨b, rfl, hh⟩ | ⟨a, rfl, hafter⟩
          · exact ih hh
          · cases a with
            | nil => exact @ih [] hafter.symm
            | cons m'' a =>
                obtain ⟨rfl, rfl⟩ := List.cons.inj hafter
                rw [(hrecords m (by simp)).2]
                cases a with
                | nil => exact rest.slotAt_eq
                | cons m' a => exact (hrecords m' (by simp)).2

end Trades

end History

variable {scope : Scope} {part : Part} {t : Nat} {c : Call} {o o' x : Objects} {e : Outcome Unit}
  {h after : History Objects}

theorem Happening.untraded {what : Happening} (hwhat : what.ofSlotCall = false) :
    what.installed? = none ∧ what.handedBack? = none := by
  constructor
  · unfold installed?
    split
    · exact Bool.noConfusion hwhat
    · rfl
  · unfold handedBack?
    split
    · exact Bool.noConfusion hwhat
    · exact Bool.noConfusion hwhat
    · rfl

theorem History.Trades.of_leaves (hleaves : LeavesSlots o h o') :
    Trades o.exitSlot h o'.exitSlot := by
  obtain ⟨hlacks, hsame, hend⟩ := hleaves
  rw [hend.2]
  induction h with
  | nil => exact .done
  | cons m h ih =>
      obtain ⟨hm, hrest⟩ := lacks_cons.mp hlacks
      obtain ⟨hx, hstates⟩ := List.forall_mem_cons.mp hsame
      obtain ⟨hin, hout⟩ := Happening.untraded hm
      exact .pass hx.2 hin hout (ih hrest hstates)

theorem Objects.replace_exitSlot (o : Objects) {component : Component}
    (hother : component ≠ .exitSlot) : (o.replace component).exitSlot = o.exitSlot := by
  cases component with
  | registry => rfl
  | handlerSlot => rfl
  | exitSlot => exact absurd rfl hother

namespace ExitSlot

/-- What is on record after a callback has been installed. -/
theorem afterExitChange_replacing (slot : ExitSlot) :
    ∀ m ∈ logging slot.replacing o, m.what.afterExitChange ∧ m.state = o := by
  intro m hm
  obtain ⟨n, hn, rfl⟩ := List.mem_map.mp hm
  unfold replacing at hn
  split at hn
  · obtain rfl := List.mem_singleton.mp hn
    exact ⟨rfl, rfl⟩
  · exact absurd hn List.not_mem_nil

end ExitSlot

namespace Prompt

variable {r : Reply} {notices : List Notice}

theorem trades (hprompt : Prompt scope o c r o' notices)
    (hother : c ≠ .operation (.replace .exitSlot)) :
    Trades o.exitSlot (⟨.called t c, o⟩ :: (logging notices o' ++ [⟨.returned c r, o'⟩]))
      o'.exitSlot := by
  have hpass : o'.exitSlot = o.exitSlot → Happening.installed? (.called t c) = none →
      Happening.handedBack? (.returned c r) = none →
      Trades o.exitSlot (⟨.called t c, o⟩ :: (logging notices o' ++ [⟨.returned c r, o'⟩]))
        o'.exitSlot := by
    intro hslot hin hout
    have hlogged : Trades o'.exitSlot (logging notices o') o'.exitSlot :=
      .of_leaves (.of_still (lacks_logging (by simp) _) (still_logging _) ⟨rfl, rfl⟩ ⟨rfl, rfl⟩)
    refine .pass rfl hin rfl ?_
    rw [← hslot]
    exact hlogged.append (.pass rfl rfl hout .done)
  cases hprompt with
  | kept hinit _ =>
      match c, hinit with
      | .init, _ => exact hpass rfl rfl rfl
      | .operation .initFromHost, _ => exact hpass rfl rfl rfl
  | @setExit k =>
      rw [← List.append_nil (_ ++ _)]
      refine .trade rfl rfl ?_ ?_ .done
      · intro m hm
        rcases List.mem_append.mp hm with hlog | hreply
        · obtain ⟨hafter, hstate⟩ := o.exitSlot.afterExitChange_replacing m hlog
          rw [hstate]
          exact ⟨hafter, rfl⟩
        · obtain rfl := List.mem_singleton.mp hreply
          exact ⟨rfl, rfl⟩
      · cases hslot : o.exitSlot.callback <;>
          simp [installed, handedBack, logging, ExitSlot.replacing, hslot]
  | clearExit howner =>
      rw [← List.append_nil (_ ++ _)]
      refine .trade rfl rfl ?_ ?_ .done
      · intro m hm
        obtain rfl := List.mem_singleton.mp hm
        exact ⟨rfl, rfl⟩
      · cases o.exitSlot.callback <;> simp [installed, handedBack, logging]
  | replace howner =>
      refine hpass (Objects.replace_exitSlot o fun heq => hother ?_) rfl rfl
      rw [heq]
  | @absent op hshared howner =>
      cases op with
      | setExit k => exact Bool.noConfusion howner
      | _ => exact hpass rfl rfl rfl
  | _ => exact hpass rfl rfl rfl

end Prompt

namespace Passage

theorem trades (hpassage : Passage scope part o e o' h) (hkeeps : h.Keeps .exitSlot) :
    Trades o.exitSlot h o'.exitSlot :=
  hpassage.accumulates (P := fun o h o' => Trades o.exitSlot h o'.exitSlot) .of_leaves .append
    Prompt.trades hkeeps

/-- A call that runs no client code and cannot halt is answered at once. -/
theorem plain_site (hpassage : Passage scope part o e o' h) (hinit : c.isInit = false)
    (hclient : c.entersClient = false) (hsafe : ∀ halt, ¬ Fatal scope x c halt)
    (hsite : ⟨.called t c, x⟩ :: after <:+ h) :
    ∃ r y notices rest, Prompt scope x c r y notices ∧
      after = logging notices y ++ ⟨.returned c r, y⟩ :: rest := by
  obtain ⟨frame, left, e', x', body, rest, hcall, rfl, -⟩ := hpassage.call_site hsite
  rcases hcall.of_plain hinit hclient with ⟨r, notices, hprompt, -, hbody⟩ | ⟨halt, hfatal, -⟩
  · obtain ⟨-, rfl⟩ := List.cons.inj hbody
    exact ⟨r, x', notices, rest, hprompt, by simp⟩
  · exact absurd hfatal (hsafe halt)

theorem setExit_site (hpassage : Passage scope part o e o' h) {k : CallbackId}
    (hsite : ⟨.called t (.operation (.setExit k)), x⟩ :: after <:+ h) :
    ∃ rest, after = logging x.exitSlot.replacing { x with exitSlot := ⟨some k⟩ } ++
      ⟨.returned (.operation (.setExit k)) (.callback x.exitSlot.callback),
        { x with exitSlot := ⟨some k⟩ }⟩ :: rest := by
  obtain ⟨r, y, notices, rest, hprompt, rfl⟩ :=
    hpassage.plain_site rfl rfl (by rintro halt ⟨⟩) hsite
  cases hprompt with
  | kept hinit _ => exact absurd hinit Bool.false_ne_true
  | setExit => exact ⟨rest, rfl⟩
  | absent _ howner => exact absurd howner Bool.false_ne_true

theorem clearExit_site (hpassage : Passage .own part o e o' h)
    (hsite : ⟨.called t (.operation .clearExit), x⟩ :: after <:+ h) :
    ∃ rest, after = ⟨.returned (.operation .clearExit) (.callback x.exitSlot.callback),
      { x with exitSlot := ⟨none⟩ }⟩ :: rest := by
  obtain ⟨r, y, notices, rest, hprompt, rfl⟩ :=
    hpassage.plain_site rfl rfl (by rintro halt ⟨⟩) hsite
  cases hprompt with
  | kept hinit _ => exact absurd hinit Bool.false_ne_true
  | clearExit _ => exact ⟨rest, rfl⟩
  | absent hshared _ => exact Scope.noConfusion hshared

theorem getExit_site (hpassage : Passage .own part o e o' h)
    (hsite : ⟨.called t (.operation .getExit), x⟩ :: after <:+ h) :
    ∃ rest, after =
      ⟨.returned (.operation .getExit) (.callback x.exitSlot.callback), x⟩ :: rest := by
  obtain ⟨r, y, notices, rest, hprompt, rfl⟩ :=
    hpassage.plain_site rfl rfl (by rintro halt ⟨⟩) hsite
  cases hprompt with
  | kept hinit _ => exact absurd hinit Bool.false_ne_true
  | getExit _ => exact ⟨rest, rfl⟩
  | absent hshared _ => exact Scope.noConfusion hshared

end Passage

theorem Run.trades (run : Run) (hkeeps : run.history.Keeps .exitSlot) :
    Trades ExitSlot.new run.history run.final.exitSlot :=
  run.passage.trades hkeeps

/-- **Every exit callback is handed back once, in order.** At every point of a run that does not lie
within a call that changes the slot, what has been installed is what has been handed back and then
what the slot holds. Such a call hands back what it finds, at once; a query shows it; and between any
two other moments, those of a notification among them, the slot stays as it is. -/
theorem Run.exit_callbacks_conserved (run : Run) (hkeeps : run.history.Keeps .exitSlot) :
    (∀ before after, run.history = before ++ after →
      (∀ m ∈ after.head?, m.what.afterExitChange = false) →
        installed before
          = handedBack before ++ (slotAt run.final.exitSlot after).callback.toList) ∧
    (∀ t k x after, ⟨.called t (.operation (.setExit k)), x⟩ :: after <:+ run.history →
      ∃ rest, after = logging x.exitSlot.replacing { x with exitSlot := ⟨some k⟩ } ++
        ⟨.returned (.operation (.setExit k)) (.callback x.exitSlot.callback),
          { x with exitSlot := ⟨some k⟩ }⟩ :: rest) ∧
    (run.scope = .own → ∀ t x after,
      ⟨.called t (.operation .clearExit), x⟩ :: after <:+ run.history →
        ∃ rest, after = ⟨.returned (.operation .clearExit) (.callback x.exitSlot.callback),
          { x with exitSlot := ⟨none⟩ }⟩ :: rest) ∧
    (run.scope = .own → ∀ before t x after,
      run.history = before ++ ⟨.called t (.operation .getExit), x⟩ :: after →
        ∃ shown rest, after = ⟨.returned (.operation .getExit) (.callback shown), x⟩ :: rest ∧
          installed before = handedBack before ++ shown.toList) ∧
    (∀ before m after, run.history = before ++ m :: after → m.what.changesExit = false →
      slotAt run.final.exitSlot after = m.state.exitSlot) := by
  have htrades := run.trades hkeeps
  have hpassage := run.passage
  refine ⟨?_, ?_, ?_, ?_, ?_⟩
  · intro before after hsplit hrest
    exact htrades.conserved hsplit hrest
  · intro t k x after hsite
    exact hpassage.setExit_site hsite
  · intro howner t x after hsite
    rw [howner] at hpassage
    exact hpassage.clearExit_site hsite
  · intro howner before t x after hsplit
    rw [howner] at hpassage
    obtain ⟨rest, rfl⟩ := hpassage.getExit_site ⟨before, hsplit.symm⟩
    exact ⟨_, rest, rfl, htrades.conserved hsplit (by simp)⟩
  · intro before m after hsplit hm
    exact htrades.steady hsplit hm

/-- A callback that is run by a notification installs another, clears the slot and installs a third;
a thread replaces that one. -/
def Run.rearmed : Run :=
  .alone ⟨fun _ _ => ⟨.ret .continueSearch, .continueSearch⟩, fun _ =>
      .call (.setExit 2) fun _ => .call .clearExit fun _ => .call (.setExit 3) fun _ => .ret ()⟩ 1
    (.call (.setExit 1) fun _ => .call .notify fun _ =>
      .spawn 1 (.call (.setExit 4) fun r => .ret [r]) fun _ => .call .getExit fun r => .ret [r])

theorem Run.exit_callbacks_conserved_rearmed :
    Run.rearmed.history.Keeps .exitSlot ∧
      installed Run.rearmed.history = handedBack Run.rearmed.history ++ [4] ∧
      handedBack Run.rearmed.history = [1, 2, 3] := by
  have hkeeps : Run.rearmed.history.Keeps .exitSlot := by
    unfold Keeps
    decide
  have hend := (Run.exit_callbacks_conserved Run.rearmed hkeeps).1 Run.rearmed.history []
    (List.append_nil _).symm (by simp)
  exact ⟨hkeeps, hend, by decide⟩

end PlatformLayer
