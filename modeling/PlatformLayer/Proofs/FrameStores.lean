import PlatformLayer.Proofs.FaultNesting

/-!
# What is in a handler's frame

Several activations can be under way at once, each with a frame of its own, and all their stores are
on record in one history. Which of them reach a given frame depends on the place. The argument words
of an activation are reached by that activation alone. Its registers are reached by every activation
that it hands them on to as well, and by those that these hand them on to.

What a place holds is the value last stored there among those that reach it.
-/

namespace PlatformLayer

/-! ### Loads and stores -/

namespace Frame

variable (frame : Frame)

theorem slot_width (s : Architecture.native.layout.Slot) : s.width = 8 := by
  have hwidths : ∀ s ∈ Architecture.native.layout.slots, s.width = 8 := by decide
  exact hwidths s (Layout.mem_slots s)

theorem read_lt (s : Architecture.native.layout.Slot) : frame.registers.read s < byteRange 8 := by
  have hlt := Kind.toBits_lt (frame.registers.value s)
  have hwidth : s.kind.size = 8 := slot_width s
  rw [hwidth] at hlt
  exact hlt

theorem toNat_load (s : Architecture.native.layout.Slot) :
    (frame.load (.register s)).toNat = frame.registers.read s := by
  rw [load, UInt64.toNat_ofNat']
  exact Nat.mod_eq_of_lt (frame.read_lt s)

theorem load_store_self (place : Place) (v : UInt64) : (frame.store place v).load place = v := by
  cases place with
  | arg0 => rfl
  | arg1 => rfl
  | register s =>
      have hread : (frame.registers.write s v.toNat).read s = v.toNat := by
        rw [Context.read_write_self, slot_width]
        exact Nat.mod_eq_of_lt v.toNat_lt
      rw [store, load, hread, UInt64.ofNat_toNat]

theorem load_store_of_ne {place other : Place} (hne : other ≠ place) (v : UInt64) :
    (frame.store place v).load other = frame.load other := by
  cases place with
  | arg0 =>
      cases other with
      | arg0 => exact absurd rfl hne
      | arg1 => rfl
      | register s => rfl
  | arg1 =>
      cases other with
      | arg0 => rfl
      | arg1 => exact absurd rfl hne
      | register s => rfl
  | register s =>
      cases other with
      | arg0 => rfl
      | arg1 => rfl
      | register s' =>
          have hslot : s' ≠ s := fun h => hne (congrArg Place.register h)
          rw [store, load, load, Context.read_write_of_ne _ _ hslot]

end Frame

/-! ### Which stores reach a place -/

/-- Calls that raise a fault in the course of which nothing reaches this place. -/
def Place.hides : Place → Call → Bool
  | register _, .forward _ => false
  | _, _ => true

/-- How many calls hide from a place what is done in the course of one more. -/
def Place.behind (place : Place) (c : Call) (depth : Nat) : Nat :=
  if place.hides c ∨ 0 < depth then depth + 1 else depth

/-- How many calls hide from a place what is done next. -/
def Place.deeper (place : Place) (depth : Nat) : Happening → Nat
  | .called _ c => if c.raises?.isSome then place.behind c depth else depth
  | .returned c _ => if c.raises?.isSome then depth - 1 else depth
  | _ => depth

@[simp] def Happening.stores? (place : Place) : Happening → Option UInt64
  | stored other v => if other = place then some v else none
  | event _ | called _ _ | returned _ _ | asked _ | answered _ _ | faultRaised _ _
  | faultSettled _ _ _ | handlerLeft _ _ _ _ | callbackLeft _ => none

@[simp] theorem Place.behind_sub_one (place : Place) (c : Call) (depth : Nat) :
    place.behind c depth - 1 = depth := by
  unfold behind
  split <;> omega

theorem Place.behind_of_shown {place : Place} {c : Call} (hshown : place.hides c = false) :
    place.behind c 0 = 0 := by
  simp [behind, hshown]

namespace Call.Passes

variable {c : Call} {registers left : Registers} {frame frame' : Option Frame}

theorem frameless (hpasses : c.Passes registers left none frame') :
    frame' = none ∧ ∀ place : Place, place.hides c := by
  match c, hpasses with
  | .operation op, hpasses => exact ⟨hpasses, fun place => by cases place <;> rfl⟩
  | .init, hpasses => exact ⟨hpasses, fun place => by cases place <;> rfl⟩
  | .forward f, ⟨own, hown, _⟩ => cases hown

theorem same (hpasses : c.Passes registers registers frame frame') : frame' = frame := by
  match c, hpasses with
  | .operation op, hpasses => exact hpasses
  | .init, hpasses => exact hpasses
  | .forward f, ⟨own, hown, hregisters, hleft⟩ => rw [hleft, hown, hregisters]

/-- The places that a call hides are as they were, and the others as the fault left them. -/
theorem load {start inner : Frame}
    (hpasses : c.Passes registers inner.registers (some start) frame') :
    ∃ final, frame' = some final ∧
      (∀ place : Place, place.hides c → final.load place = start.load place) ∧
      ∀ place : Place, place.hides c = false → final.load place = inner.load place ∧
        (Frame.enter registers).load place = start.load place := by
  have hall : (∀ place : Place, place.hides c) → frame' = some start →
      ∃ final, frame' = some final ∧
        (∀ place : Place, place.hides c → final.load place = start.load place) ∧
        ∀ place : Place, place.hides c = false → final.load place = inner.load place ∧
          (Frame.enter registers).load place = start.load place := by
    intro hhides hsame
    refine ⟨start, hsame, fun _ _ => rfl, fun place hshown => ?_⟩
    exact absurd (hhides place) (Bool.eq_false_iff.mp hshown)
  match c, hpasses with
  | .operation op, hpasses => exact hall (fun place => by cases place <;> rfl) hpasses
  | .init, hpasses => exact hall (fun place => by cases place <;> rfl) hpasses
  | .forward f, ⟨own, hown, hregisters, hleft⟩ =>
      cases hown
      refine ⟨{ start with registers := inner.registers }, hleft, fun place hhides => ?_,
        fun place hshown => ?_⟩
      · cases place with
        | arg0 => rfl
        | arg1 => rfl
        | register s => exact absurd hhides Bool.false_ne_true
      · cases place with
        | arg0 => exact absurd hshown Bool.noConfusion
        | arg1 => exact absurd hshown Bool.noConfusion
        | register s => rw [hregisters]; exact ⟨rfl, rfl⟩

end Call.Passes

section Quiet

variable {what : Happening} (hquiet : what.ofFault = false) (place : Place)
include hquiet

theorem Happening.stores?_of_quiet : what.stores? place = none := by
  cases what with
  | stored other v => exact absurd hquiet.symm Bool.false_ne_true
  | _ => rfl

theorem Place.deeper_of_quiet (depth : Nat) : place.deeper depth what = depth := by
  cases what with
  | called t c =>
      rw [Happening.ofFault] at hquiet
      simp [deeper, hquiet]
  | returned c r =>
      rw [Happening.ofFault] at hquiet
      simp [deeper, hquiet]
  | _ => rfl

end Quiet

namespace History

variable {σ : Type} (place : Place) (depth : Nat)

def depthAfter (h : History σ) : Nat := h.foldl (fun d m => place.deeper d m.what) depth

/-- The values stored in a place of a frame, in order, by whatever reaches it. -/
def storedIn : Nat → History σ → List UInt64
  | _, [] => []
  | depth, m :: h =>
    (if depth = 0 then m.what.stores? place else none).toList ++
      storedIn (place.deeper depth m.what) h

@[simp] theorem depthAfter_nil : depthAfter place depth ([] : History σ) = depth := rfl

@[simp] theorem depthAfter_cons (m : Moment σ) (h : History σ) :
    depthAfter place depth (m :: h) = depthAfter place (place.deeper depth m.what) h := rfl

@[simp] theorem depthAfter_append (h h' : History σ) :
    depthAfter place depth (h ++ h') = depthAfter place (depthAfter place depth h) h' :=
  List.foldl_append

@[simp] theorem storedIn_nil : storedIn place depth ([] : History σ) = [] := rfl

@[simp] theorem storedIn_cons (m : Moment σ) (h : History σ) :
    storedIn place depth (m :: h) = (if depth = 0 then m.what.stores? place else none).toList ++
      storedIn place (place.deeper depth m.what) h := rfl

@[simp] theorem storedIn_append (h h' : History σ) :
    storedIn place depth (h ++ h')
      = storedIn place depth h ++ storedIn place (depthAfter place depth h) h' := by
  induction h generalizing depth with
  | nil => rfl
  | cons m h ih =>
      rw [List.cons_append, storedIn_cons, storedIn_cons, ih, List.append_assoc, depthAfter_cons]

/-- A quiet stretch stores nothing and hides nothing. -/
theorem Lacks.stores_nothing {h : History Objects} (hquiet : Lacks Happening.ofFault h) :
    depthAfter place depth h = depth ∧ storedIn place depth h = [] := by
  induction h with
  | nil => exact ⟨rfl, rfl⟩
  | cons m h ih =>
      obtain ⟨hm, hrest⟩ := lacks_cons.mp hquiet
      rw [depthAfter_cons, storedIn_cons, Place.deeper_of_quiet hm, Happening.stores?_of_quiet hm,
        ite_self]
      exact ih hrest

end History

open History

/-- In the course of a call that raises a fault, what reaches a place is what reaches it in the body
of the handler. -/
theorem History.storedIn_activation {t : Nat} {c : Call} {f : Fault} {registers : Registers}
    {k : HandlerId} {status : Status} {left : Frame} {r : Reply} {o o' : Objects}
    {e : Outcome Unit} {h : History Objects} {place : Place} {depth : Nat}
    (hraises : c.raises? = some f)
    (hdepth : e = .returned () →
      depthAfter place (place.behind c depth) h = place.behind c depth) :
    storedIn place depth (⟨.called t c, o⟩ :: (entering f registers k o ++
        (h ++ closing e (leaving k f status left o' ++ [⟨.returned c r, o'⟩]))))
      = storedIn place (place.behind c depth) h := by
  cases e with
  | returned => simp [entering, leaving, closing, Place.deeper, hraises, hdepth rfl]
  | halted => simp [entering, closing, Place.deeper, hraises]
  | hung => simp [entering, closing, Place.deeper, hraises]

namespace Nesting

variable {frame left : Option Frame} {e : Outcome Unit} {h : History Objects}

/-- Whatever happens in between, a stretch that returns comes back to the depth it started from, and
what is hidden stays hidden. -/
theorem enclosed (hnesting : Nesting frame left e h) (place : Place) (depth : Nat) :
    (e = .returned () → depthAfter place depth h = depth) ∧
      (0 < depth → storedIn place depth h = []) := by
  induction hnesting generalizing depth with
  | quiet hquiet =>
      obtain ⟨hdepth, hstored⟩ := hquiet.stores_nothing place depth
      exact ⟨fun _ => hdepth, fun _ => hstored⟩
  | stored => exact ⟨fun _ => rfl, fun hpos => by simp [Place.deeper, Nat.ne_of_gt hpos]⟩
  | append _ _ ihfirst ihrest =>
      obtain ⟨hdepth, hstored⟩ := ihfirst depth
      rw [depthAfter_append, storedIn_append, hdepth rfl]
      refine ⟨(ihrest depth).1, fun hpos => ?_⟩
      rw [hstored hpos, (ihrest depth).2 hpos, List.append_nil]
  | stuck hstuck _ ih => exact ⟨fun hreturned => absurd hreturned hstuck, (ih depth).2⟩
  | elsewhere _ ih => exact ih depth
  | unclaimed hraises _ _ => simp [passedBy, Place.deeper, hraises]
  | @handled _ c _ _ _ _ _ _ _ _ _ _ e h hraises _ _ _ ih =>
      obtain ⟨hdepth, hstored⟩ := ih (place.behind c depth)
      constructor
      · rintro rfl
        simp [entering, leaving, Place.deeper, hraises, hdepth]
      · intro hpos
        rw [storedIn_activation hraises hdepth]
        exact hstored (by simp [Place.behind, hpos])

/-- Nothing reaches a place of a frame in the course of a call that hides it. -/
theorem hidden (hnesting : Nesting frame left e h) {place : Place} {c : Call}
    (hhides : place.hides c) : storedIn place (place.behind c 0) h = [] :=
  (hnesting.enclosed place _).2 (by simp [Place.behind, hhides])

/-- Code that has no frame stores nothing that reaches one, and cannot hand one on. -/
theorem frameless (hnesting : Nesting none left e h) (place : Place) :
    (e = .returned () → left = none) ∧ storedIn place 0 h = [] := by
  generalize hframe : none = frame at hnesting
  induction hnesting with
  | quiet hquiet => exact ⟨fun _ => rfl, (hquiet.stores_nothing place 0).2⟩
  | stored => cases hframe
  | append first _ ihfirst ihrest =>
      obtain ⟨hmid, hstored⟩ := ihfirst hframe
      obtain ⟨hleft, hstored'⟩ := ihrest (hframe.trans (hmid rfl).symm)
      refine ⟨fun hreturned => (hleft hreturned).trans (hmid rfl), ?_⟩
      rw [storedIn_append, (first.enclosed place 0).1 rfl, hstored, hstored', List.append_nil]
  | stuck hstuck _ ih => exact ⟨fun hreturned => absurd hreturned hstuck, (ih hframe).2⟩
  | elsewhere _ ih => exact ⟨fun _ => rfl, (ih rfl).2⟩
  | @unclaimed t c f registers frame frame' o hraises hslot hpasses =>
      subst hframe
      obtain ⟨hleft, -⟩ := hpasses.frameless
      exact ⟨fun _ => hleft, by simp [passedBy, Place.deeper, hraises]⟩
  | @handled t c f registers k status left r frame frame' o o' e h hraises hslot hpasses body _ =>
      subst hframe
      obtain ⟨hleft, hhides⟩ := hpasses.frameless
      refine ⟨fun _ => hleft, ?_⟩
      rw [storedIn_activation hraises (body.enclosed place _).1]
      exact body.hidden (hhides place)

/-- **A place holds the value last stored there among those that reach it**, and what it held at the
start if there is none. -/
theorem load_eq {start : Frame} (hnesting : Nesting (some start) left (.returned ()) h) :
    ∃ final, left = some final ∧ ∀ place,
      final.load place = (storedIn place 0 h).getLast?.getD (start.load place) := by
  generalize hframe : some start = frame at hnesting
  generalize hreturned : Outcome.returned () = e at hnesting
  induction hnesting generalizing start with
  | quiet hquiet =>
      refine ⟨start, hframe.symm, fun place => ?_⟩
      rw [(hquiet.stores_nothing place 0).2, List.getLast?_nil, Option.getD_none]
  | @stored frame place v o =>
      obtain rfl := Option.some.inj hframe
      refine ⟨start.store place v, rfl, fun other => ?_⟩
      by_cases hplace : place = other
      · subst hplace
        simp [Place.deeper, Frame.load_store_self]
      · simp [Place.deeper, hplace, Frame.load_store_of_ne _ (Ne.symm hplace)]
  | append first _ ihfirst ihrest =>
      obtain ⟨mid, rfl, hmid⟩ := ihfirst hframe rfl
      obtain ⟨final, rfl, hfinal⟩ := ihrest rfl hreturned
      refine ⟨final, rfl, fun place => ?_⟩
      -- the first stretch comes back to the frame, so that the stores of the second reach it too
      rw [hfinal, hmid, storedIn_append, (first.enclosed place 0).1 rfl, List.getLast?_append,
        Option.getD_or]
  | stuck hstuck _ _ => exact absurd hreturned.symm hstuck
  | elsewhere body _ =>
      -- threads and callbacks can neither store in a frame nor hand one on
      refine ⟨start, hframe.symm, fun place => ?_⟩
      rw [(body.frameless place).2, List.getLast?_nil, Option.getD_none]
  | @unclaimed t c f registers frame frame' o hraises hslot hpasses =>
      refine ⟨start, hpasses.same.trans hframe.symm, fun place => ?_⟩
      simp [passedBy, Place.deeper, hraises]
  | @handled t c f registers k status left r frame frame' o o' e h hraises hslot hpasses body ih =>
      subst hframe
      obtain ⟨inner, ⟨⟩, hinner⟩ := ih rfl hreturned
      obtain ⟨final, hfinal, hhidden, hshown⟩ := hpasses.load
      refine ⟨final, hfinal, fun place => ?_⟩
      rw [storedIn_activation hraises (body.enclosed place _).1]
      by_cases hhides : place.hides c
      · rw [body.hidden hhides, hhidden place hhides, List.getLast?_nil, Option.getD_none]
      · obtain ⟨hleft, hstart⟩ := hshown place (Bool.eq_false_iff.mpr hhides)
        rw [Place.behind_of_shown (Bool.eq_false_iff.mpr hhides), hleft, hinner, hstart]

end Nesting

end PlatformLayer
