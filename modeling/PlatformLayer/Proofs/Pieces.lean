import PlatformLayer.Proofs.CallSites

/-!
# The pieces of a history

What the layer puts on record in one go, with no client code in between, is a piece: a call and its
prompt reply, a set that is published and returned, an answer and the complaint about it, a callback
that is entered. Everything else is on record moment by moment. Every history of a run is put
together from pieces, so what is on record next to what can be read off the pieces alone.
-/

namespace PlatformLayer

open History

/-- On record by itself: client code may lie before it and after it. -/
@[simp] def Happening.standsAlone : Happening → Bool
  | event (.logged (.faultUnclaimed _)) => true
  | event (.logged (.faultHandled _ _)) => true
  | event (.logged _) => false
  | event (.callbackEntered _ _) => false
  | called _ .init => true
  | called _ (.operation .initFromHost) => true
  | called _ (.operation (.dispatch _ _)) => true
  | called _ (.forward _) => true
  | called _ _ => false
  | returned (.operation (.dispatch _ _)) _ => true
  | returned (.operation .notify) _ => true
  | returned (.forward _) _ => true
  | returned _ _ => false
  | answered _ _ => false
  | _ => true

inductive Piece (scope : Scope) : History Objects → Prop where
  | alone {m : Moment Objects} (halone : m.what.standsAlone) : Piece scope [m]
  | prompt {t : Nat} {c : Call} {r : Reply} {o o' : Objects} {notices : List Notice}
      (hprompt : Prompt scope o c r o' notices) :
      Piece scope (⟨.called t c, o⟩ :: (logging notices o' ++ [⟨.returned c r, o'⟩]))
  | fatal {t : Nat} {c : Call} {o : Objects} {halt : Halt} (hfatal : Fatal scope o c halt) :
      Piece scope [⟨.called t c, o⟩, ⟨.event (.logged (.halting halt)), o⟩]
  | published {c : Call} {s : CapabilitySet} {o : Objects} (hinit : c.isInit) :
      Piece scope [⟨.event (.logged (.capabilitiesPublished s)), o⟩,
        ⟨.returned c (.capabilities s), o⟩]
  | answered {c : Capability} {a : Answer} {o : Objects} :
      Piece scope (⟨.answered c a, o⟩ :: logging (c.complaint a) o)
  | entered {t : Nat} {k : CallbackId} {o : Objects} (hslot : o.exitSlot.callback = some k) :
      Piece scope [⟨.called t (.operation .notify), o⟩, ⟨.event (.logged .exitCallbackRunning), o⟩,
        ⟨.event (.callbackEntered k t), o⟩]

inductive Pieced (scope : Scope) : History Objects → Prop where
  | nil : Pieced scope []
  | cons {p h : History Objects} (piece : Piece scope p) (rest : Pieced scope h) :
      Pieced scope (p ++ h)

/-! ### A moment in a list of two or three -/

theorem History.site_in_two {σ : Type} {before after : History σ} {m a b : Moment σ}
    (hsplit : before ++ m :: after = [a, b]) :
    (before = [] ∧ m = a ∧ after = [b]) ∨ (before = [a] ∧ m = b ∧ after = []) := by
  cases before with
  | nil =>
      cases hsplit
      exact Or.inl ⟨rfl, rfl, rfl⟩
  | cons first before =>
      obtain ⟨rfl, hrest⟩ := List.cons.inj hsplit
      rcases List.append_eq_singleton_iff.mp hrest with ⟨rfl, hlast⟩ | ⟨-, hnone⟩
      · cases hlast
        exact Or.inr ⟨rfl, rfl, rfl⟩
      · exact absurd hnone (List.cons_ne_nil _ _)

theorem History.site_in_three {σ : Type} {before after : History σ} {m a b c : Moment σ}
    (hsplit : before ++ m :: after = [a, b, c]) :
    (before = [] ∧ m = a ∧ after = [b, c]) ∨ (before = [a] ∧ m = b ∧ after = [c]) ∨
      (before = [a, b] ∧ m = c ∧ after = []) := by
  cases before with
  | nil =>
      cases hsplit
      exact Or.inl ⟨rfl, rfl, rfl⟩
  | cons first before =>
      obtain ⟨rfl, hrest⟩ := List.cons.inj hsplit
      rcases site_in_two hrest with ⟨rfl, rfl, rfl⟩ | ⟨rfl, rfl, rfl⟩
      · exact Or.inr (Or.inl ⟨rfl, rfl, rfl⟩)
      · exact Or.inr (Or.inr ⟨rfl, rfl, rfl⟩)

variable {scope : Scope} {h h' : History Objects}

namespace Pieced

theorem append (hfirst : Pieced scope h) (hrest : Pieced scope h') : Pieced scope (h ++ h') := by
  induction hfirst with
  | nil => exact hrest
  | cons piece _ ih =>
      rw [List.append_assoc]
      exact .cons piece ih

theorem of_alone (halone : ∀ m ∈ h, m.what.standsAlone) : Pieced scope h := by
  induction h with
  | nil => exact .nil
  | cons m h ih =>
      obtain ⟨hm, hrest⟩ := List.forall_mem_cons.mp halone
      exact .cons (.alone hm) (ih hrest)

theorem of_piece (piece : Piece scope h) : Pieced scope h := by
  have hpieced := cons piece .nil
  rwa [List.append_nil] at hpieced

theorem of_closing (halone : ∀ m ∈ h, m.what.standsAlone) (e : Outcome Unit) :
    Pieced scope (closing e h) := by
  cases e with
  | returned => exact .of_alone halone
  | halted => exact .nil
  | hung => exact .nil

/-- Every moment lies in some piece. -/
theorem site (hpieced : Pieced scope h) {before after : History Objects} {m : Moment Objects}
    (hsplit : h = before ++ m :: after) :
    ∃ front left right back, Piece scope (left ++ m :: right) ∧
      before = front ++ left ∧ after = right ++ back := by
  induction hpieced generalizing before with
  | nil => exact absurd hsplit (by simp)
  | @cons p h piece _ ih =>
      rcases split_append hsplit with ⟨tail, rfl, hlater⟩ | ⟨right, rfl, rfl⟩
      · obtain ⟨front, left, right, back, hpiece, rfl, rfl⟩ := ih hlater
        exact ⟨p ++ front, left, right, back, hpiece, (List.append_assoc _ _ _).symm, rfl⟩
      · exact ⟨[], before, right, h, piece, rfl, rfl⟩

end Pieced

/-- **Every passage is made of pieces.** -/
theorem Passage.pieced {part : Part} {o o' : Objects} {e : Outcome Unit}
    (hpassage : Passage scope part o e o' h) : Pieced scope h := by
  have hcalled : ∀ {t : Nat} {c : Call} {x : Objects}, c.isInit →
      Pieced scope [⟨.called t c, x⟩] := by
    intro t c x hinit
    refine .of_alone fun m hm => ?_
    rw [List.mem_singleton.mp hm]
    match c, hinit with
    | .init, _ => rfl
    | .operation .initFromHost, _ => rfl
  have hheralding : ∀ {heralded : Bool} {c : Capability} {x : Objects},
      Pieced scope (⟨.asked c, x⟩ :: heralding heralded c x) := by
    intro heralded c x
    cases heralded <;> exact .of_alone (by simp [heralding])
  induction hpassage with
  | stop => exact .nil
  | append _ _ ihfirst ihrest => exact ihfirst.append ihrest
  | stuck _ _ ih => exact ih
  | elsewhere _ ih => exact ih
  | noted => exact .of_alone (by simp)
  | stored => exact .of_alone (by simp)
  | made _ ih => exact ih
  | prompt hprompt => exact .of_piece (.prompt hprompt)
  | fatal hfatal => exact .of_piece (.fatal hfatal)
  | waiting hinit _ => exact hcalled hinit
  | init hinit _ _ ih => exact (hcalled hinit).append (ih.append (.of_piece (.published hinit)))
  | initStuck hinit _ _ _ ih => exact (hcalled hinit).append ih
  | notify hslot _ ih =>
      exact .cons (.entered hslot) (ih.append (.of_closing (by simp) _))
  | dispatch _ ih =>
      exact .cons (.alone rfl) (ih.append (.of_closing (by simp) _))
  | forward _ ih => exact .cons (.alone rfl) (ih.append (.of_closing (by simp) _))
  | unclaimed _ => exact .of_alone (by simp)
  | handled _ _ ih =>
      exact .cons (.alone rfl) (.cons (.alone rfl)
        (ih.append (.of_closing (by simp) _)))
  | askedAll => exact .nil
  | asks _ _ ihprobe ihrest =>
      exact hheralding.append (ihprobe.append (.cons .answered ihrest))
  | askStuck _ _ ih => exact hheralding.append ih

end PlatformLayer
