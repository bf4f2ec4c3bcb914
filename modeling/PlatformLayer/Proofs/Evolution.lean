import Mathlib.Logic.Relation
import PlatformLayer.Proofs.CallSites

/-!
# How the objects change

Whatever client code does, the three objects change in a handful of ways only: a handler goes into
an empty slot, the exit slot gets another content, a registry starts to probe, a registry that was
probing publishes, or an unused object takes the place of another. What one such change preserves
holds in every later state of a run.

The one thing that has to be seen from inside a passage is that the registry found by the end of a
start-up is still the probing one, or else not the same registry. Everything else follows from the
changes alone.
-/

namespace PlatformLayer

open History

namespace History

def Still (o : Objects) (h : History Objects) : Prop := ∀ m ∈ h, m.state = o

section Still

variable {o : Objects} {m : Moment Objects} {h h' : History Objects}

@[simp] theorem still_nil : Still o [] := fun _ hm => absurd hm List.not_mem_nil

@[simp] theorem still_cons : Still o (m :: h) ↔ m.state = o ∧ Still o h :=
  List.forall_mem_cons

@[simp] theorem still_append : Still o (h ++ h') ↔ Still o h ∧ Still o h' :=
  List.forall_mem_append

@[simp] theorem still_logging (notices : List Notice) : Still o (logging notices o) := by
  intro m hm
  obtain ⟨n, -, rfl⟩ := List.mem_map.mp hm
  rfl

@[simp] theorem still_heralding (heralded : Bool) (c : Capability) :
    Still o (heralding heralded c o) := by
  cases heralded <;> simp [heralding]

theorem Still.closing (hstill : Still o h) (e : Outcome Unit) : Still o (History.closing e h) := by
  cases e with
  | returned => exact hstill
  | halted => exact still_nil
  | hung => exact still_nil

theorem Still.last (hstill : Still o h) (hne : h ≠ []) : ∃ m, [m] <:+ h ∧ m.state = o :=
  ⟨h.getLast hne, ⟨h.dropLast, List.dropLast_concat_getLast hne⟩,
    hstill _ (List.getLast_mem hne)⟩

end Still

/-- This holds all through a stretch, and where it ends. -/
def Throughout (P : Objects → Prop) (h : History Objects) (o' : Objects) : Prop :=
  (∀ m ∈ h, P m.state) ∧ P o'

namespace Throughout

variable {P : Objects → Prop} {o o' : Objects} {m : Moment Objects} {h h' : History Objects}

theorem cons (hm : P m.state) (hrest : Throughout P h o') : Throughout P (m :: h) o' :=
  ⟨List.forall_mem_cons.mpr ⟨hm, hrest.1⟩, hrest.2⟩

theorem append (hfirst : Throughout P h o) (hrest : Throughout P h' o') :
    Throughout P (h ++ h') o' :=
  ⟨List.forall_mem_append.mpr ⟨hfirst.1, hrest.1⟩, hrest.2⟩

theorem of_still (hstill : Still o h) (ho : P o) : Throughout P h o := by
  refine ⟨fun m hm => ?_, ho⟩
  rw [hstill m hm]
  exact ho

end Throughout

/-- Things of this kind happen only in states like this. -/
def OnlyWhile (p : Happening → Bool) (P : Objects → Prop) (h : History Objects) : Prop :=
  ∀ m ∈ h, p m.what → P m.state

namespace OnlyWhile

variable {p : Happening → Bool} {P : Objects → Prop} {o : Objects} {h h' : History Objects}

theorem of_lacks (hlacks : Lacks p h) : OnlyWhile p P h := by
  intro m hm hp
  rw [hlacks m hm] at hp
  exact absurd hp Bool.false_ne_true

theorem of_still (hstill : Still o h) (ho : P o) : OnlyWhile p P h := by
  intro m hm _
  rw [hstill m hm]
  exact ho

theorem append (hfirst : OnlyWhile p P h) (hrest : OnlyWhile p P h') : OnlyWhile p P (h ++ h') :=
  List.forall_mem_append.mpr ⟨hfirst, hrest⟩

end OnlyWhile

section Keeps

variable {component : Component} {m : Moment Objects} {h h' : History Objects}

theorem keeps_cons :
    Keeps component (m :: h) ↔ m.what.replaces component = false ∧ Keeps component h :=
  List.forall_mem_cons

theorem keeps_append : Keeps component (h ++ h') ↔ Keeps component h ∧ Keeps component h' :=
  List.forall_mem_append

theorem Keeps.mono (hkeeps : Keeps component h) (hsub : h' ⊆ h) : Keeps component h' :=
  fun m hm => hkeeps m (hsub hm)

theorem Keeps.called {t : Nat} {c : Call} {x : Objects}
    (hkeeps : Keeps component (⟨.called t c, x⟩ :: h)) : c ≠ .operation (.replace component) := by
  rintro rfl
  exact of_decide_eq_false (keeps_cons.mp hkeeps).1 rfl

end Keeps

end History

variable {scope : Scope} {part : Part} {o o' o'' : Objects} {e : Outcome Unit}
  {h h' : History Objects}

/-! ### A registry that is being filled -/

/-- Registry number `serial` is being filled, or another one has taken its place. -/
def Objects.Filling (serial : Nat) (o : Objects) : Prop :=
  (o.registry.serial = serial ∧ o.registry.phase = .probing) ∨ serial < o.registry.serial

namespace Objects.Filling

variable {serial : Nat}

theorem begun (o : Objects) : Filling o.registry.serial o.probing := Or.inl ⟨rfl, rfl⟩

theorem begin (hfilling : Filling serial o) (hidle : o.registry.phase = .idle) :
    serial < o.registry.serial := by
  rcases hfilling with ⟨-, hprobing⟩ | hlater
  · rw [hidle] at hprobing
    exact Registry.Phase.noConfusion hprobing
  · exact hlater

theorem publish (hfilling : Filling serial o) {serial' : Nat} (hother : serial < serial')
    (s : CapabilitySet) : Filling serial (o.publish serial' s) := by
  unfold Objects.publish Registry.publish
  split
  · rename_i hserial
    exact Or.inr (hserial ▸ hother)
  · exact hfilling

theorem prompt {c : Call} {r : Reply} {notices : List Notice} (hfilling : Filling serial o)
    (hprompt : Prompt scope o c r o' notices) : Filling serial o' := by
  cases hprompt with
  | @replace component howner =>
      cases component with
      | registry =>
          rcases hfilling with ⟨rfl, -⟩ | hlater
          · exact Or.inr (Nat.lt_succ_self _)
          · exact Or.inr (Nat.lt_succ_of_lt hlater)
      | handlerSlot => exact hfilling
      | exitSlot => exact hfilling
  | _ => exact hfilling

end Objects.Filling

/-- **No early publication.** Client code that runs while a registry is being filled cannot finish
filling it: a start-up of the same registry would wait for ever. -/
theorem Passage.filling (hpassage : Passage scope part o e o' h) {serial : Nat}
    (hfilling : o.Filling serial) : Throughout (Objects.Filling serial) h o' := by
  induction hpassage with
  | stop => exact .of_still still_nil hfilling
  | append first rest ihfirst ihrest =>
      have hmid := ihfirst hfilling
      exact hmid.append (ihrest hmid.2)
  | stuck _ _ ih => exact ih hfilling
  | elsewhere _ ih => exact ih hfilling
  | noted => exact .of_still (by simp) hfilling
  | stored => exact .of_still (by simp) hfilling
  | made _ ih => exact ih hfilling
  | prompt hprompt => exact .cons hfilling (.of_still (by simp) (hfilling.prompt hprompt))
  | fatal hfatal => exact .of_still (by simp) hfilling
  | waiting hinit hprobing => exact .of_still (by simp) hfilling
  | init hinit hidle body ih =>
      have hother := hfilling.begin hidle
      have hbody := ih (Or.inr hother)
      exact .cons hfilling (hbody.append (.of_still (by simp) (hbody.2.publish hother _)))
  | initStuck hinit hidle hstuck body ih =>
      exact .cons hfilling (ih (Or.inr (hfilling.begin hidle)))
  | notify hslot body ih =>
      have hbody := ih hfilling
      exact .cons hfilling (.cons hfilling (.cons hfilling
        (hbody.append (.of_still (Still.closing (by simp) _) hbody.2))))
  | dispatch body ih =>
      have hbody := ih hfilling
      exact .cons hfilling (hbody.append (.of_still (Still.closing (by simp) _) hbody.2))
  | forward body ih =>
      have hbody := ih hfilling
      exact .cons hfilling (hbody.append (.of_still (Still.closing (by simp) _) hbody.2))
  | unclaimed hslot => exact .of_still (by simp) hfilling
  | handled hslot body ih =>
      have hbody := ih hfilling
      exact .cons hfilling (.cons hfilling
        (hbody.append (.of_still (Still.closing (by simp) _) hbody.2)))
  | askedAll => exact .of_still still_nil hfilling
  | asks probe rest ihprobe ihrest =>
      have hprobe := ihprobe hfilling
      exact .cons hfilling (.append (.of_still (still_heralding _ _) hfilling)
        (hprobe.append (.cons hprobe.2
          (.append (.of_still (still_logging _) hprobe.2) (ihrest hprobe.2)))))
  | askStuck hstuck probe ih =>
      exact .cons hfilling (.append (.of_still (still_heralding _ _) hfilling) (ih hfilling))

/-! ### The changes -/

/-- What one step can do to the objects where nothing takes the place of the component `kept`. -/
inductive Change (kept : Component) : Objects → Objects → Prop where
  | register {o : Objects} {k : HandlerId} (hempty : o.handlerSlot.handler = none) :
      Change kept o { o with handlerSlot := ⟨some k⟩ }
  | exit {o : Objects} {slot : ExitSlot} : Change kept o { o with exitSlot := slot }
  | begin {o : Objects} (hidle : o.registry.phase = .idle) : Change kept o o.probing
  | settle {o : Objects} {s : CapabilitySet} (hprobing : o.registry.phase = .probing) :
      Change kept o { o with registry := { o.registry with phase := .ready s } }
  | replace {o : Objects} {component : Component} (hother : component ≠ kept) :
      Change kept o (o.replace component)

/-- The objects after any number of changes. -/
def Later (kept : Component) : Objects → Objects → Prop := Relation.ReflTransGen (Change kept)

namespace Later

variable {kept : Component}

theorem refl : Later kept o o := Relation.ReflTransGen.refl

theorem trans (hfirst : Later kept o o') (hrest : Later kept o' o'') : Later kept o o'' :=
  Relation.ReflTransGen.trans hfirst hrest

theorem of_change (hchange : Change kept o o') : Later kept o o' :=
  Relation.ReflTransGen.single hchange

theorem preserves {P : Objects → Prop} (hlater : Later kept o o')
    (hstep : ∀ x y, Change kept x y → P x → P y) (ho : P o) : P o' := by
  induction hlater with
  | refl => exact ho
  | tail _ hchange ih => exact hstep _ _ hchange ih

theorem of_prompt {c : Call} {r : Reply} {notices : List Notice}
    (hprompt : Prompt scope o c r o' notices) (hkeeps : c ≠ .operation (.replace kept)) :
    Later kept o o' := by
  cases hprompt with
  | registered hempty => exact of_change (.register hempty)
  | setExit => exact of_change .exit
  | clearExit howner => exact of_change .exit
  | replace howner =>
      refine of_change (.replace fun heq => hkeeps ?_)
      rw [heq]
  | _ => exact refl

/-- The end of a start-up publishes in the registry that it began with, or changes nothing. -/
theorem of_publish {serial : Nat} (hfilling : o.Filling serial) (s : CapabilitySet) :
    Later kept o (o.publish serial s) := by
  rcases hfilling with ⟨hserial, hprobing⟩ | hlater
  · rw [Objects.publish, Registry.publish, if_pos hserial]
    exact of_change (.settle hprobing)
  · rw [Objects.publish, Registry.publish, if_neg (Nat.ne_of_gt hlater)]
    exact refl

end Later

/-- Each state of a stretch is later than the one before it. -/
def Evolves (kept : Component) : Objects → History Objects → Objects → Prop
  | o, [], o' => Later kept o o'
  | o, m :: h, o' => Later kept o m.state ∧ Evolves kept m.state h o'

namespace Evolves

variable {kept : Component} {m : Moment Objects}

theorem from_later (hlater : Later kept o o') (hrest : Evolves kept o' h o'') :
    Evolves kept o h o'' := by
  cases h with
  | nil => exact hlater.trans hrest
  | cons m h => exact ⟨hlater.trans hrest.1, hrest.2⟩

theorem cons {what : Happening} (hrest : Evolves kept o h o') :
    Evolves kept o (⟨what, o⟩ :: h) o' :=
  ⟨.refl, hrest⟩

theorem append (hfirst : Evolves kept o h o') (hrest : Evolves kept o' h' o'') :
    Evolves kept o (h ++ h') o'' := by
  induction h generalizing o with
  | nil => exact hrest.from_later hfirst
  | cons m h ih => exact ⟨hfirst.1, ih hfirst.2⟩

theorem of_still (hstill : Still o h) : Evolves kept o h o := by
  induction h with
  | nil => exact Later.refl
  | cons m h ih =>
      obtain ⟨rfl, hrest⟩ := still_cons.mp hstill
      exact .cons (ih hrest)

theorem of_ending {after : History Objects} (hevolves : Evolves kept o h o')
    (hsite : m :: after <:+ h) : Evolves kept m.state after o' := by
  induction h generalizing o with
  | nil => exact absurd hsite (by simp)
  | cons a h ih =>
      rcases List.suffix_cons_iff.mp hsite with heq | hrest
      · obtain ⟨rfl, rfl⟩ := List.cons.inj heq
        exact hevolves.2
      · exact ih hevolves.2 hrest

theorem throughout {P : Objects → Prop} (hevolves : Evolves kept o h o')
    (hstep : ∀ x y, Change kept x y → P x → P y) (ho : P o) : Throughout P h o' := by
  induction h generalizing o with
  | nil => exact .of_still still_nil (Later.preserves hevolves hstep ho)
  | cons m h ih =>
      have hm := hevolves.1.preserves hstep ho
      exact .cons hm (ih hevolves.2 hm)

end Evolves

/-- **Every run is a sequence of changes.** -/
theorem Passage.evolves (hpassage : Passage scope part o e o' h) {kept : Component}
    (hkeeps : h.Keeps kept) : Evolves kept o h o' := by
  induction hpassage with
  | stop => exact .of_still still_nil
  | append first rest ihfirst ihrest =>
      obtain ⟨hfirst, hrest⟩ := keeps_append.mp hkeeps
      exact (ihfirst hfirst).append (ihrest hrest)
  | stuck _ _ ih => exact ih hkeeps
  | elsewhere _ ih => exact ih hkeeps
  | noted => exact .of_still (by simp)
  | stored => exact .of_still (by simp)
  | made _ ih => exact ih hkeeps
  | prompt hprompt =>
      exact .cons (.from_later (.of_prompt hprompt hkeeps.called) (.of_still (by simp)))
  | fatal hfatal => exact .of_still (by simp)
  | waiting hinit hprobing => exact .of_still (by simp)
  | @init _ _ _ o _ s _ hinit hidle body ih =>
      simp only [keeps_cons, keeps_append] at hkeeps
      have hfilling := (body.filling (Objects.Filling.begun o)).2
      exact .cons (.from_later (.of_change (.begin hidle)) ((ih hkeeps.2.1).append
        (.from_later (.of_publish hfilling s) (.of_still (by simp)))))
  | initStuck hinit hidle hstuck body ih =>
      obtain ⟨-, hbody⟩ := keeps_cons.mp hkeeps
      exact .cons (.from_later (.of_change (.begin hidle)) (ih hbody))
  | notify hslot body ih =>
      simp only [keeps_cons, keeps_append] at hkeeps
      exact .cons (.cons (.cons
        ((ih hkeeps.2.2.2.1).append (.of_still (Still.closing (by simp) _)))))
  | dispatch body ih =>
      simp only [keeps_cons, keeps_append] at hkeeps
      exact .cons ((ih hkeeps.2.1).append (.of_still (Still.closing (by simp) _)))
  | forward body ih =>
      simp only [keeps_cons, keeps_append] at hkeeps
      exact .cons ((ih hkeeps.2.1).append (.of_still (Still.closing (by simp) _)))
  | unclaimed hslot => exact .of_still (by simp)
  | handled hslot body ih =>
      simp only [keeps_cons, keeps_append] at hkeeps
      exact .cons (.cons ((ih hkeeps.2.2.1).append (.of_still (Still.closing (by simp) _))))
  | askedAll => exact .of_still still_nil
  | asks probe rest ihprobe ihrest =>
      simp only [keeps_cons, keeps_append] at hkeeps
      obtain ⟨-, -, hprobe, -, -, hrest⟩ := hkeeps
      exact .cons (.append (.of_still (still_heralding _ _)) ((ihprobe hprobe).append
        (.cons (.append (.of_still (still_logging _)) (ihrest hrest)))))
  | askStuck hstuck probe ih =>
      simp only [keeps_cons, keeps_append] at hkeeps
      exact .cons (.append (.of_still (still_heralding _ _)) (ih hkeeps.2.2))

/-! ### What adds up

The handler slot and the exit slot change in calls that run no client code, and in nothing else. What
is kept by such calls, and by stretches without one, adds up over every passage. -/

/-- Calls that change the handler slot or the exit slot, or put another object in their place. -/
def Call.changesSlot : Call → Bool
  | operation (.register _) => true
  | operation (.setExit _) => true
  | operation .clearExit => true
  | operation (.replace _) => true
  | _ => false

@[simp] def Happening.ofSlotCall : Happening → Bool
  | called _ c => c.changesSlot
  | returned c _ => c.changesSlot
  | _ => false

theorem Call.changesSlot_of_isInit {c : Call} (hinit : c.isInit) : c.changesSlot = false := by
  match c, hinit with
  | .init, _ => rfl
  | .operation .initFromHost, _ => rfl

theorem Fatal.changesSlot {c : Call} {halt : Halt} (hfatal : Fatal scope o c halt) :
    c.changesSlot = false := by
  cases hfatal <;> rfl

def Objects.SameSlots (o x : Objects) : Prop :=
  x.handlerSlot = o.handlerSlot ∧ x.exitSlot = o.exitSlot

/-- Nothing in this stretch concerns the slots. -/
structure History.LeavesSlots (o : Objects) (h : History Objects) (o' : Objects) : Prop where
  lacks : Lacks Happening.ofSlotCall h
  same : Throughout o.SameSlots h o'

theorem History.LeavesSlots.of_still {x : Objects} (hlacks : Lacks Happening.ofSlotCall h)
    (hstill : Still x h) (hx : o.SameSlots x) (hend : o.SameSlots o') : LeavesSlots o h o' :=
  ⟨hlacks, fun m hm => hstill m hm ▸ hx, hend⟩

section Accumulates

variable {P : Objects → History Objects → Objects → Prop}

theorem Passage.gathers (hleaves : ∀ {o o' h}, LeavesSlots o h o' → P o h o')
    (happend : ∀ {o o' o'' h h'}, P o h o' → P o' h' o'' → P o (h ++ h') o'')
    (hprompt : ∀ {o o' t c r notices}, Prompt scope o c r o' notices →
      P o (⟨.called t c, o⟩ :: (logging notices o' ++ [⟨.returned c r, o'⟩])) o')
    (hpassage : Passage scope part o e o' h) : P o h o' := by
  have hquiet : ∀ {o : Objects} {h : History Objects}, Lacks Happening.ofSlotCall h → Still o h →
      P o h o := fun hlacks hstill => hleaves (.of_still hlacks hstill ⟨rfl, rfl⟩ ⟨rfl, rfl⟩)
  have hclosed : ∀ {o : Objects} {h : History Objects} (e : Outcome Unit),
      Lacks Happening.ofSlotCall h → Still o h → P o (closing e h) o :=
    fun e hlacks hstill => hquiet (hlacks.closing e) (hstill.closing e)
  -- a start-up changes the registry at both ends, and the slots only through its probes
  have hbegun : ∀ {o : Objects} {t : Nat} {c : Call}, c.isInit →
      P o [⟨.called t c, o⟩] o.probing := by
    intro o t c hinit
    refine hleaves (.of_still (x := o) ?_ (by simp) ⟨rfl, rfl⟩ ⟨rfl, rfl⟩)
    simp [Call.changesSlot_of_isInit hinit]
  induction hpassage with
  | stop => exact hquiet lacks_nil still_nil
  | append _ _ ihfirst ihrest => exact happend ihfirst ihrest
  | stuck _ _ ih => exact ih
  | elsewhere _ ih => exact ih
  | noted => exact hquiet (by simp) (by simp)
  | stored => exact hquiet (by simp) (by simp)
  | made _ ih => exact ih
  | prompt hcall => exact hprompt hcall
  | fatal hfatal => exact hquiet (by simp [hfatal.changesSlot]) (by simp)
  | waiting hinit _ => exact hquiet (by simp [Call.changesSlot_of_isInit hinit]) (by simp)
  | @init _ _ _ o x s _ hinit _ _ ih =>
      refine happend (h := [_]) (hbegun hinit) (happend ih ?_)
      refine hleaves (.of_still (x := x.publish o.registry.serial s) ?_ (by simp) ⟨rfl, rfl⟩
        ⟨rfl, rfl⟩)
      simp [Call.changesSlot_of_isInit hinit]
  | initStuck hinit _ _ _ ih => exact happend (h := [_]) (hbegun hinit) ih
  | notify _ _ ih =>
      exact happend (h := [_, _, _]) (hquiet (by simp [Call.changesSlot]) (by simp))
        (happend ih (hclosed _ (by simp [Call.changesSlot]) (by simp)))
  | dispatch _ ih =>
      exact happend (h := [_]) (hquiet (by simp [Call.changesSlot]) (by simp))
        (happend ih (hclosed _ (by simp [Call.changesSlot]) (by simp)))
  | forward _ ih =>
      exact happend (h := [_]) (hquiet (by simp [Call.changesSlot]) (by simp))
        (happend ih (hclosed _ (by simp [Call.changesSlot]) (by simp)))
  | unclaimed _ => exact hquiet (by simp) (by simp)
  | handled _ _ ih =>
      exact happend (h := [_, _]) (hquiet (by simp) (by simp))
        (happend ih (hclosed _ (by simp) (by simp)))
  | askedAll => exact hquiet lacks_nil still_nil
  | asks _ _ ihprobe ihrest =>
      exact happend (h := [_]) (hquiet (by simp) (by simp))
        (happend (hquiet (lacks_heralding (by simp) _ _) (still_heralding _ _))
          (happend ihprobe (happend (h := [_]) (hquiet (by simp) (by simp))
            (happend (hquiet (lacks_logging (by simp) _) (still_logging _)) ihrest))))
  | askStuck _ _ ih =>
      exact happend (h := [_]) (hquiet (by simp) (by simp))
        (happend (hquiet (lacks_heralding (by simp) _ _) (still_heralding _ _)) ih)

theorem Passage.accumulates {kept : Component}
    (hleaves : ∀ {o o' h}, LeavesSlots o h o' → P o h o')
    (happend : ∀ {o o' o'' h h'}, P o h o' → P o' h' o'' → P o (h ++ h') o'')
    (hprompt : ∀ {o o' t c r notices}, Prompt scope o c r o' notices →
      c ≠ .operation (.replace kept) →
        P o (⟨.called t c, o⟩ :: (logging notices o' ++ [⟨.returned c r, o'⟩])) o')
    (hpassage : Passage scope part o e o' h) (hkeeps : h.Keeps kept) : P o h o' := by
  refine hpassage.gathers (P := fun o h o' => h.Keeps kept → P o h o')
    (fun hstretch _ => hleaves hstretch) ?_ (fun hcall hkept => hprompt hcall hkept.called) hkeeps
  intro _ _ _ _ _ hfirst hrest hkept
  obtain ⟨hbefore, hafter⟩ := keeps_append.mp hkept
  exact happend (hfirst hbefore) (hrest hafter)

end Accumulates

/-! ### What stays

A registry that nothing takes the place of goes from idle to probing to ready, and an occupied
handler slot that nothing takes the place of keeps its handler. -/

namespace Objects

variable {component : Component}

theorem replace_registry (o : Objects) (hother : component ≠ .registry) :
    (o.replace component).registry = o.registry := by
  cases component with
  | registry => exact absurd rfl hother
  | handlerSlot => rfl
  | exitSlot => rfl

theorem replace_handlerSlot (o : Objects) (hother : component ≠ .handlerSlot) :
    (o.replace component).handlerSlot = o.handlerSlot := by
  cases component with
  | registry => rfl
  | handlerSlot => exact absurd rfl hother
  | exitSlot => rfl

end Objects

namespace Change

variable {x y : Objects}

theorem serial (hchange : Change .registry x y) : y.registry.serial = x.registry.serial := by
  cases hchange with
  | replace hother => rw [Objects.replace_registry x hother]
  | _ => rfl

theorem ready {s : CapabilitySet} (hchange : Change .registry x y)
    (hready : x.registry.phase = .ready s) : y.registry.phase = .ready s := by
  cases hchange with
  | register hempty => exact hready
  | exit => exact hready
  | begin hidle =>
      rw [hidle] at hready
      exact Registry.Phase.noConfusion hready
  | settle hprobing =>
      rw [hprobing] at hready
      exact Registry.Phase.noConfusion hready
  | replace hother =>
      rw [Objects.replace_registry x hother]
      exact hready

theorem begun (hchange : Change .registry x y) (hbegun : x.registry.phase ≠ .idle) :
    y.registry.phase ≠ .idle := by
  cases hchange with
  | register hempty => exact hbegun
  | exit => exact hbegun
  | begin hidle => exact Registry.Phase.noConfusion
  | settle hprobing => exact Registry.Phase.noConfusion
  | replace hother =>
      rw [Objects.replace_registry x hother]
      exact hbegun

theorem occupied {k : HandlerId} (hchange : Change .handlerSlot x y)
    (hfull : x.handlerSlot.handler = some k) : y.handlerSlot.handler = some k := by
  cases hchange with
  | register hempty =>
      rw [hempty] at hfull
      exact absurd hfull (Option.some_ne_none k).symm
  | exit => exact hfull
  | begin hidle => exact hfull
  | settle hprobing => exact hfull
  | replace hother =>
      rw [Objects.replace_handlerSlot x hother]
      exact hfull

end Change

theorem Passage.begun (hpassage : Passage scope part o e o' h) (hkeeps : h.Keeps .registry)
    (hbegun : o.registry.phase ≠ .idle) : o'.registry.phase ≠ .idle :=
  ((hpassage.evolves hkeeps).throughout (fun _ _ => Change.begun) hbegun).2

theorem Passage.serial (hpassage : Passage scope part o e o' h) (hkeeps : h.Keeps .registry) :
    Throughout (fun x => x.registry.serial = o.registry.serial) h o' :=
  (hpassage.evolves hkeeps).throughout (fun _ _ hchange => hchange.serial.trans) rfl

/-- While a registry is probing, whatever runs finds it probing and leaves it so. -/
theorem Passage.probing (hpassage : Passage scope part o e o' h) (hkeeps : h.Keeps .registry)
    (hprobing : o.registry.phase = .probing) :
    Throughout (fun x => x.registry.phase = .probing) h o' := by
  have hserial := hpassage.serial hkeeps
  have hfilling := hpassage.filling (Or.inl ⟨rfl, hprobing⟩)
  have hstate : ∀ x : Objects, x.registry.serial = o.registry.serial →
      x.Filling o.registry.serial → x.registry.phase = .probing := by
    rintro x hsame (⟨-, hx⟩ | hlater)
    · exact hx
    · exact absurd hsame (Nat.ne_of_gt hlater)
  exact ⟨fun m hm => hstate _ (hserial.1 m hm) (hfilling.1 m hm),
    hstate _ hserial.2 hfilling.2⟩

end PlatformLayer
