import PlatformLayer.Proofs.Replies
import PlatformLayer.Proofs.RunPassage

/-!
# A handler is registered once

As long as nothing takes the place of the handler slot, the registrations that succeeded are the
content of the slot: none while it is empty, and one for good. Wherever a later registration is
tried, from a probe, a callback, a thread or the handler itself, it is refused, and every fault goes
to the one handler.
-/

namespace PlatformLayer

open History

/-! ### What the methods say -/

/-- Handler `k` is in the slot, and no registration changes that. -/
structure Interface.Holds {σ : Type} (I : Interface σ) (k : HandlerId) (w : World σ) : Prop where
  getHandler : I.getHandler w = ⟨.returned (some k), w, []⟩
  isRegistered : ∀ owner ∈ I.owner, owner.isRegistered w = ⟨.returned true, w, []⟩
  register : ∀ k', I.register k' w = ⟨.returned (.error .handlerAlreadyRegistered), w,
    [⟨.event (.logged .handlerRefused), w.state⟩]⟩

namespace Scope

variable {scope : Scope} {x : Objects}

def Holds (scope : Scope) (k : HandlerId) (x : Objects) : Prop :=
  ∀ w : World scope.State, objects w.state = x → scope.interface.Holds k w

theorem holds_of_occupied {k : HandlerId} (hfull : x.handlerSlot.handler = some k) :
    scope.Holds k x := by
  rintro w rfl
  have hslot : ((scope.cell Objects.handlerCell).get w.state).handler = some k := by
    rw [cell_get]
    exact hfull
  refine ⟨?_, ?_, ?_⟩
  · rw [interface_getHandler, HandlerSlot.getHandler_apply, hslot]
  · intro owner howner
    rw [owner_isRegistered howner, HandlerSlot.isRegistered_apply, hslot, Option.isSome_some]
  · intro k'
    rw [interface_register, HandlerSlot.register_of_occupied hslot]

end Scope

/-! ### What is on record -/

@[simp] def Happening.registered? : Happening → Option HandlerId
  | returned (.operation (.register k)) (.registration (.ok _)) => some k
  | _ => none

theorem Happening.unregistered {what : Happening} (hwhat : what.ofSlotCall = false) :
    what.registered? = none := by
  unfold registered?
  split
  · exact Bool.noConfusion hwhat
  · rfl

@[simp] def Happening.enters (k : HandlerId) : Happening → Bool
  | event (.handlerEntered k' _ _) => k' = k
  | _ => false

namespace History

/-- The handlers whose registration succeeded, in order. -/
def registrations (h : History Objects) : List HandlerId :=
  h.filterMap fun m => m.what.registered?

/-- Every call that concerns the handler finds `k`, and no other handler is entered. -/
structure Serves (scope : Scope) (k : HandlerId) (h : History Objects) : Prop where
  getHandler : FollowedBy (.operation .getHandler)
    [.returned (.operation .getHandler) (.handler (some k))] h
  isRegistered : scope = .own → FollowedBy (.operation .isRegistered)
    [.returned (.operation .isRegistered) (.flag true)] h
  register : ∀ k', FollowedBy (.operation (.register k'))
    [.event (.logged .handlerRefused),
      .returned (.operation (.register k')) (.registration (.error .handlerAlreadyRegistered))] h
  enters : ∀ k', k' ≠ k → Lacks (Happening.enters k') h

/-- What was in the slot before and what was registered since is what is in the slot. -/
def Balances (o : Objects) (h : History Objects) (o' : Objects) : Prop :=
  o.handlerSlot.handler.toList ++ registrations h = o'.handlerSlot.handler.toList

namespace Balances

variable {o o' o'' : Objects} {h h' : History Objects}

theorem of_lacks (hlacks : Lacks (fun what => what.registered?.isSome) h)
    (hsame : o'.handlerSlot = o.handlerSlot) : Balances o h o' := by
  have hnone : registrations h = [] := List.filterMap_eq_nil_iff.mpr fun m hm =>
    Option.isNone_iff_eq_none.mp (Option.isSome_eq_false_iff.mp (hlacks m hm))
  rw [Balances, hnone, List.append_nil, hsame]

theorem of_leaves (hleaves : LeavesSlots o h o') : Balances o h o' := by
  obtain ⟨hlacks, -, hend⟩ := hleaves
  refine of_lacks (fun m hm => ?_) hend.1
  exact Option.isSome_eq_false_iff.mpr
    (Option.isNone_iff_eq_none.mpr (Happening.unregistered (hlacks m hm)))

theorem append (hfirst : Balances o h o') (hrest : Balances o' h' o'') :
    Balances o (h ++ h') o'' := by
  have happend : registrations (h ++ h') = registrations h ++ registrations h' :=
    List.filterMap_append
  rw [Balances, happend, ← List.append_assoc, hfirst, hrest]

end Balances

end History

variable {scope : Scope} {part : Part} {o o' : Objects} {e : Outcome Unit}
  {h after : History Objects}

theorem Prompt.balances {c : Call} {r : Reply} {notices : List Notice}
    (hprompt : Prompt scope o c r o' notices) (hother : c ≠ .operation (.replace .handlerSlot)) :
    Balances o [⟨.returned c r, o'⟩] o' := by
  cases hprompt with
  | registered hempty =>
      rw [Balances, hempty]
      rfl
  | replace howner =>
      refine .of_lacks (by simp) (Objects.replace_handlerSlot o fun heq => hother ?_)
      rw [heq]
  | _ => exact .of_lacks (by simp) rfl

namespace Passage

/-- **The registrations that succeeded are the content of the slot.** -/
theorem balances (hpassage : Passage scope part o e o' h) (hkeeps : h.Keeps .handlerSlot) :
    Balances o h o' := by
  apply hpassage.accumulates .of_leaves .append ?_ hkeeps
  intro o o' t c r notices hprompt hother
  exact .append (h := [_]) (.of_lacks (by simp) rfl)
    (.append (.of_lacks (lacks_logging (by simp) _) rfl) (hprompt.balances hother))

/-- A handler is entered only while it is in the slot. -/
theorem enters_occupied (hpassage : Passage scope part o e o' h) (k : HandlerId) :
    OnlyWhile (Happening.enters k) (fun x => x.handlerSlot.handler = some k) h := by
  induction hpassage with
  | stop => exact .of_lacks lacks_nil
  | append first rest ihfirst ihrest => exact ihfirst.append ihrest
  | stuck _ _ ih => exact ih
  | elsewhere _ ih => exact ih
  | noted => exact .of_lacks (by simp)
  | stored => exact .of_lacks (by simp)
  | made _ ih => exact ih
  | prompt hprompt =>
      exact .append (h := [_]) (.of_lacks (by simp))
        (.append (.of_lacks (lacks_logging (by simp) _)) (.of_lacks (by simp)))
  | fatal hfatal => exact .of_lacks (by simp)
  | waiting hinit hprobing => exact .of_lacks (by simp)
  | init hinit hidle body ih =>
      exact .append (h := [_]) (.of_lacks (by simp)) (ih.append (.of_lacks (by simp)))
  | initStuck hinit hidle hstuck body ih =>
      exact .append (h := [_]) (.of_lacks (by simp)) ih
  | notify hslot body ih =>
      exact .append (h := [_, _, _]) (.of_lacks (by simp))
        (ih.append (.of_lacks (Lacks.closing (by simp) _)))
  | dispatch body ih =>
      exact .append (h := [_]) (.of_lacks (by simp))
        (ih.append (.of_lacks (Lacks.closing (by simp) _)))
  | forward body ih =>
      exact .append (h := [_]) (.of_lacks (by simp))
        (ih.append (.of_lacks (Lacks.closing (by simp) _)))
  | unclaimed hslot => exact .of_lacks (by simp)
  | @handled _ _ k' _ _ o _ _ _ hslot body ih =>
      -- the one entry of its own; what the handler's code sets off is in `ih`
      have hentry : ∀ f frame, OnlyWhile (Happening.enters k)
          (fun x => x.handlerSlot.handler = some k) [⟨.event (.handlerEntered k' f frame), o⟩] := by
        intro f frame m hm henters
        obtain rfl := List.mem_singleton.mp hm
        obtain rfl : k' = k := of_decide_eq_true henters
        exact hslot
      exact .append (h := [_]) (.of_lacks (by simp))
        (.append (h := [_]) (hentry _ _) (ih.append (.of_lacks (Lacks.closing (by simp) _))))
  | askedAll => exact .of_lacks lacks_nil
  | asks probe rest ihprobe ihrest =>
      exact .append (h := [_]) (.of_lacks (by simp))
        (.append (.of_lacks (lacks_heralding (by simp) _ _))
          (ihprobe.append (.append (h := [_]) (.of_lacks (by simp))
            (.append (.of_lacks (lacks_logging (by simp) _)) ihrest))))
  | askStuck hstuck probe ih =>
      exact .append (h := [_]) (.of_lacks (by simp))
        (.append (.of_lacks (lacks_heralding (by simp) _ _)) ih)

theorem occupied_after (hpassage : Passage scope part o e o' h) (hkeeps : h.Keeps .handlerSlot)
    {m : Moment Objects} (hsite : m :: after <:+ h) {k : HandlerId}
    (hfull : m.state.handlerSlot.handler = some k) :
    Throughout (fun x => x.handlerSlot.handler = some k) after o' :=
  ((hpassage.evolves hkeeps).of_ending hsite).throughout (fun _ _ => Change.occupied) hfull

/-- A registration succeeds in an empty slot, and is refused by any other, which it leaves alone. -/
theorem register_site (hpassage : Passage scope part o e o' h) {t : Nat} {k : HandlerId}
    {x : Objects} (hsite : ⟨.called t (.operation (.register k)), x⟩ :: after <:+ h) :
    (x.handlerSlot.handler = none ∧ ∃ rest, after =
        ⟨.event (.logged .handlerRegistered), { x with handlerSlot := ⟨some k⟩ }⟩ ::
        ⟨.returned (.operation (.register k)) (.registration (.ok ())),
          { x with handlerSlot := ⟨some k⟩ }⟩ :: rest) ∨
      x.handlerSlot.handler ≠ none ∧ ∃ rest, after =
        ⟨.event (.logged .handlerRefused), x⟩ :: ⟨.returned (.operation (.register k))
          (.registration (.error .handlerAlreadyRegistered)), x⟩ :: rest := by
  obtain ⟨frame, left, e', x', body, rest, hcall, rfl, -⟩ := hpassage.call_site hsite
  rcases hcall.of_plain rfl rfl with ⟨r, notices, hprompt, -, hbody⟩ | ⟨halt, hfatal, -⟩
  · cases hprompt with
    | kept hinit _ => exact absurd hinit Bool.false_ne_true
    | registered hempty =>
        cases hbody
        exact Or.inl ⟨hempty, rest, rfl⟩
    | refused hfull =>
        cases hbody
        refine Or.inr ⟨?_, rest, rfl⟩
        rw [hfull]
        exact Option.some_ne_none _
    | absent _ howner => exact absurd howner Bool.false_ne_true
  · cases hfatal

theorem register_reply (hpassage : Passage scope part o e o' h) {k : HandlerId} {x : Objects}
    (hmem : ⟨.returned (.operation (.register k)) (.registration (.ok ())), x⟩ ∈ h) :
    x.handlerSlot.handler = some k := by
  obtain ⟨after, t, frame, left, y, front, hcall, -⟩ := hpassage.of_reply hmem
  rcases hcall.of_plain rfl rfl with ⟨r, notices, hprompt, -, hfront⟩ | ⟨halt, hfatal, -⟩
  · have hlast := congrArg List.getLast? hfront
    rw [List.getLast?_concat, ← List.cons_append, List.getLast?_concat] at hlast
    cases hlast
    cases hprompt with
    | registered hempty => rfl
  · cases hfatal

theorem serves (hpassage : Passage scope part o e o' h) (hafter : after <:+ h) {k : HandlerId}
    (hfull : ∀ m ∈ after, m.state.handlerSlot.handler = some k) : Serves scope k after := by
  refine ⟨?_, fun howner => ?_, fun k' t x rest hsite => ?_, fun k' hne m hm => ?_⟩
  · refine hpassage.query_followed rfl hafter ?_ fun m hm r hprompt => ?_
    · rintro m hm halt ⟨⟩
    · cases hprompt with
      | getHandler => rw [hfull m hm]
      | absent _ howner => exact absurd howner Bool.false_ne_true
  · refine hpassage.query_followed rfl hafter ?_ fun m hm r hprompt => ?_
    · rintro m hm halt ⟨⟩
    · cases hprompt with
      | isRegistered _ => rw [hfull m hm, Option.isSome_some]
      | absent hshared _ => exact absurd (howner.symm.trans hshared) Scope.noConfusion
  · have hx : x.handlerSlot.handler = some k := hfull _ (mem_of_ending hsite)
    rcases hpassage.register_site (hsite.trans hafter) with ⟨hempty, -⟩ | ⟨-, rest', rfl⟩
    · exact absurd (hx.symm.trans hempty) (Option.some_ne_none k)
    · exact ⟨rest', rfl⟩
  · refine Bool.eq_false_iff.mpr fun henters => hne ?_
    have hk' := hpassage.enters_occupied k' m (hafter.subset hm) henters
    exact Option.some.inj (hk'.symm.trans (hfull m hm))

end Passage

theorem Run.registrations_eq (run : Run) (hkeeps : run.history.Keeps .handlerSlot) :
    run.history.registrations = run.final.handlerSlot.handler.toList :=
  run.passage.balances hkeeps

/-- **A handler is registered once.** A registration succeeds exactly if it finds the slot empty, so
at most one does; every other one is refused and changes nothing, the slot is never emptied, and
from the one that succeeded on its handler is the only one to be found or entered. -/
theorem Run.handler_assigned_once (run : Run) (hkeeps : run.history.Keeps .handlerSlot) :
    (∀ t k x after, ⟨.called t (.operation (.register k)), x⟩ :: after <:+ run.history →
      ∃ n r y rest, after = ⟨.event (.logged n), y⟩ ::
          ⟨.returned (.operation (.register k)) (.registration r), y⟩ :: rest ∧
        (r = .ok () ↔ x.handlerSlot.handler = none) ∧
        (r = .ok () → y = { x with handlerSlot := ⟨some k⟩ }) ∧
        (r ≠ .ok () → r = .error .handlerAlreadyRegistered ∧ y = x)) ∧
    run.history.registrations.length ≤ 1 ∧
    (∀ k m after, m :: after <:+ run.history → m.state.handlerSlot.handler = some k →
      Throughout (fun x => x.handlerSlot.handler = some k) after run.final) ∧
    (∀ k m, m ∈ run.history → m.what.enters k → run.history.registrations = [k]) ∧
    (∀ k x after,
      ⟨.returned (.operation (.register k)) (.registration (.ok ())), x⟩ :: after <:+ run.history →
        Throughout (run.scope.Holds k) (⟨.returned (.operation (.register k))
          (.registration (.ok ())), x⟩ :: after) run.final ∧ Serves run.scope k after) := by
  have hlater : ∀ k m after, m :: after <:+ run.history → m.state.handlerSlot.handler = some k →
      Throughout (fun x => x.handlerSlot.handler = some k) after run.final :=
    fun _ _ _ hsite hfull => run.passage.occupied_after hkeeps hsite hfull
  refine ⟨?_, ?_, hlater, ?_, ?_⟩
  · intro t k x after hsite
    rcases run.passage.register_site hsite with ⟨hempty, rest, rfl⟩ | ⟨hfull, rest, rfl⟩
    · exact ⟨_, _, _, rest, rfl, iff_of_true rfl hempty, fun _ => rfl, absurd rfl⟩
    · exact ⟨_, _, _, rest, rfl, iff_of_false nofun hfull, nofun, fun _ => ⟨rfl, rfl⟩⟩
  · rw [run.registrations_eq hkeeps]
    exact Option.length_toList_le
  · intro k m hm henters
    obtain ⟨front, after, hsplit⟩ := List.append_of_mem hm
    have hfull := run.passage.enters_occupied k m hm henters
    have hfinal := (hlater k m after ⟨front, hsplit.symm⟩ hfull).2
    rw [run.registrations_eq hkeeps, hfinal]
    rfl
  · intro k x after hsite
    have hx := run.passage.register_reply (mem_of_ending hsite)
    have hfull := hlater k _ after hsite hx
    have hafter := (List.suffix_cons _ after).trans hsite
    refine ⟨.cons (Scope.holds_of_occupied hx) ?_, run.passage.serves hafter hfull.1⟩
    exact ⟨fun m hm => Scope.holds_of_occupied (hfull.1 m hm), Scope.holds_of_occupied hfull.2⟩

/-- A thread registers a handler, the thread that started it tries another, and so does the handler
when a fault has brought it to run. -/
def Run.registeredThrice : Run :=
  .alone ⟨fun k _ => ⟨.call (.register (k + 1)) fun _ => .call .getHandler fun _ =>
      .ret .continueSearch, .continueSearch⟩, fun _ => .ret ()⟩ 1
    (.spawn 1 (.call (.register 5) fun r => .ret [r]) fun _ =>
      .call (.register 6) fun _ => .call (.newContext 0 0 0) fun _ =>
        .call (.dispatch ⟨0xC0000005, 0⟩ 0) fun _ => .call .isRegistered fun r => .ret [r])

theorem Run.handler_assigned_once_by_thread :
    Run.registeredThrice.history.Keeps .handlerSlot ∧
      Run.registeredThrice.history.registrations.length ≤ 1 ∧
      Run.registeredThrice.history.registrations = [5] ∧
      Throughout (Scope.own.Holds 5) (Run.registeredThrice.history.drop 2)
        Run.registeredThrice.final ∧
      Serves .own 5 (Run.registeredThrice.history.drop 3) := by
  have hkeeps : Run.registeredThrice.history.Keeps .handlerSlot := by
    unfold Keeps
    decide
  obtain ⟨-, hone, -, hentered, hheld⟩ := Run.handler_assigned_once Run.registeredThrice hkeeps
  obtain ⟨hholds, hserves⟩ := hheld 5 ⟨.new, ⟨some 5⟩, .new⟩ (Run.registeredThrice.history.drop 3)
    ⟨Run.registeredThrice.history.take 2, rfl⟩
  have hentry : ∃ m ∈ Run.registeredThrice.history, m.what.enters 5 := by decide
  obtain ⟨m, hm, henters⟩ := hentry
  exact ⟨hkeeps, hone, hentered 5 m hm henters, hholds, hserves⟩

end PlatformLayer
