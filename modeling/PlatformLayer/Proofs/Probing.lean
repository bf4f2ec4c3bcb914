import PlatformLayer.Proofs.Replies

/-!
# When probes are asked

A registry that nothing takes the place of is filled once. From the moment its first start-up begins
no other start-up asks anything, and the first one asks about every capability in turn, so over a
whole run each capability is asked about at most once, and all of them in one start-up.
-/

namespace PlatformLayer

open History

variable {scope : Scope} {part : Part} {o o' : Objects} {e : Outcome Unit}
  {h h' : History Objects}

/-- What is still to be asked about. -/
def Part.due : Part → List Capability
  | asking _ cs _ _ => cs
  | _ => []

/-- Asking a probe, as the registry records it or as the probe sees it. -/
@[simp] def Happening.isAsk (what : Happening) : Bool := what.asked?.isSome || what.probed?.isSome

namespace History

variable {c : Capability}

theorem asked_append : asked (h ++ h') = asked h ++ asked h' := List.filterMap_append

theorem probed_append : probed (h ++ h') = probed h ++ probed h' := List.filterMap_append

theorem asked_of_lacks (hlacks : Lacks Happening.isAsk h) : asked h = [] := by
  refine List.filterMap_eq_nil_iff.mpr fun m hm => ?_
  have hno := hlacks m hm
  simp only [Happening.isAsk, Bool.or_eq_false_iff, Option.isSome_eq_false_iff,
    Option.isNone_iff_eq_none] at hno
  exact hno.1

theorem probed_of_lacks (hlacks : Lacks Happening.isAsk h) : probed h = [] := by
  refine List.filterMap_eq_nil_iff.mpr fun m hm => ?_
  have hno := hlacks m hm
  simp only [Happening.isAsk, Bool.or_eq_false_iff, Option.isSome_eq_false_iff,
    Option.isNone_iff_eq_none] at hno
  exact hno.2

theorem asked_heralding (heralded : Bool) (o : Objects) : asked (heralding heralded c o) = [] := by
  cases heralded <;> rfl

/-- Exactly these are asked about, in this order, unless the stretch is cut off before. -/
def AsksFor (cs : List Capability) (e : Outcome Unit) (h : History Objects) : Prop :=
  asked h <+: cs ∧ (e = .returned () → asked h = cs)

namespace AsksFor

variable {cs : List Capability}

theorem of_lacks (hlacks : Lacks Happening.isAsk h) : AsksFor [] e h := by
  rw [AsksFor, asked_of_lacks hlacks]
  exact ⟨List.prefix_rfl, fun _ => rfl⟩

theorem quiet (hasks : AsksFor [] e h) : asked h = [] := List.prefix_nil.mp hasks.1

theorem prepend {opening : History Objects} (hquiet : asked opening = [])
    (hasks : AsksFor cs e h) : AsksFor cs e (opening ++ h) := by
  rw [AsksFor, asked_append, hquiet, List.nil_append]
  exact hasks

theorem append {tail : History Objects} (hasks : AsksFor cs e h) (hquiet : asked tail = []) :
    AsksFor cs e (h ++ tail) := by
  rw [AsksFor, asked_append, hquiet, List.append_nil]
  exact hasks

theorem cons {c : Capability} {x : Objects} (hasks : AsksFor cs e h) :
    AsksFor (c :: cs) e (⟨.asked c, x⟩ :: h) :=
  ⟨List.prefix_cons_inj c |>.mpr hasks.1, fun he => congrArg (c :: ·) (hasks.2 he)⟩

theorem answered {c : Capability} (a : Answer) (x : Objects) (hasks : AsksFor cs e h) :
    AsksFor cs e (⟨.answered c a, x⟩ :: h) := hasks

theorem of_stuck (hstuck : e ≠ .returned ()) (hquiet : asked h = []) : AsksFor cs e h := by
  rw [AsksFor, hquiet]
  exact ⟨List.nil_prefix, fun he => absurd he hstuck⟩

theorem bracket (opening records : History Objects) (hopening : Lacks Happening.isAsk opening)
    (hrecords : Lacks Happening.isAsk records) (hasks : AsksFor cs e h) :
    AsksFor cs e (opening ++ (h ++ closing e records)) :=
  (hasks.append (asked_of_lacks (hrecords.closing e))).prepend (asked_of_lacks hopening)

end AsksFor

/-- A client's probe is entered only for what the registry asks about, and only once for each time
it asks. -/
def EntersAsAsked (h : History Objects) : Prop := (probed h).Sublist (asked h)

namespace EntersAsAsked

theorem of_lacks (hlacks : Lacks Happening.isAsk h) : EntersAsAsked h := by
  rw [EntersAsAsked, probed_of_lacks hlacks]
  exact List.nil_sublist _

theorem of_asked (heralded : Bool) (c : Capability) (o : Objects) :
    EntersAsAsked (⟨.asked c, o⟩ :: heralding heralded c o) := by
  cases heralded with
  | false => exact List.nil_sublist [c]
  | true => exact List.Sublist.refl [c]

theorem append (hfirst : EntersAsAsked h) (hrest : EntersAsAsked h') : EntersAsAsked (h ++ h') := by
  rw [EntersAsAsked, probed_append, asked_append]
  exact List.Sublist.append hfirst hrest

theorem bracket (opening records : History Objects) (hopening : Lacks Happening.isAsk opening)
    (hrecords : Lacks Happening.isAsk records) (hbody : EntersAsAsked h) :
    EntersAsAsked (opening ++ (h ++ closing e records)) :=
  (of_lacks hopening).append (hbody.append (of_lacks (hrecords.closing e)))

end EntersAsAsked

/-- One start-up, of a registry that had none before, asks about every capability in turn, and
nothing is asked before or after it. -/
def AsksInOne (h : History Objects) : Prop :=
  ∃ before t c x during s y after,
    h = before ++ (⟨.called t c, x⟩ :: (during ++ (⟨.returned c (.capabilities s), y⟩ :: after))) ∧
      c.isInit ∧ x.registry.phase = .idle ∧
      asked before = [] ∧ asked during = Capability.all ∧ asked after = []

namespace AsksInOne

variable {opening tail : History Objects}

theorem of_init {t : Nat} {c : Call} {x y : Objects} {s : CapabilitySet} {n : Notice}
    (hinit : c.isInit) (hidle : x.registry.phase = .idle) (hasked : asked h = Capability.all) :
    AsksInOne (⟨.called t c, x⟩ ::
      (h ++ [⟨.event (.logged n), y⟩, ⟨.returned c (.capabilities s), y⟩])) := by
  refine ⟨[], t, c, x, h ++ [⟨.event (.logged n), y⟩], s, y, [], ?_, hinit, hidle, rfl, ?_, rfl⟩
  · rw [List.nil_append, List.append_assoc, List.singleton_append]
  · rw [asked_append, hasked]
    rfl

theorem prepend (hone : AsksInOne h) (hquiet : asked opening = []) :
    AsksInOne (opening ++ h) := by
  obtain ⟨before, t, c, x, during, s, y, after, rfl, hinit, hidle, hbefore, hduring, hafter⟩ := hone
  refine ⟨opening ++ before, t, c, x, during, s, y, after, ?_, hinit, hidle, ?_, hduring, hafter⟩
  · rw [List.append_assoc]
  · rw [asked_append, hquiet, hbefore, List.append_nil]

theorem append (hone : AsksInOne h) (hquiet : asked tail = []) : AsksInOne (h ++ tail) := by
  obtain ⟨before, t, c, x, during, s, y, after, rfl, hinit, hidle, hbefore, hduring, hafter⟩ := hone
  refine ⟨before, t, c, x, during, s, y, after ++ tail, ?_, hinit, hidle, hbefore, hduring, ?_⟩
  · simp only [List.append_assoc, List.cons_append]
  · rw [asked_append, hquiet, hafter, List.append_nil]

end AsksInOne

/-- Nothing is asked; or what is asked is asked in one start-up, which leaves the registry begun. -/
def AsksOnce (e : Outcome Unit) (o' : Objects) (h : History Objects) : Prop :=
  asked h = [] ∨ o'.registry.phase ≠ .idle ∧ asked h <+: Capability.all ∧
    (e = .returned () → AsksInOne h)

namespace AsksOnce

theorem of_lacks (hlacks : Lacks Happening.isAsk h) : AsksOnce e o' h :=
  Or.inl (asked_of_lacks hlacks)

theorem prepend {opening : History Objects} (hquiet : asked opening = [])
    (honce : AsksOnce e o' h) : AsksOnce e o' (opening ++ h) := by
  rw [AsksOnce, asked_append, hquiet, List.nil_append]
  exact honce.imp_right fun ⟨hbegun, hleading, hone⟩ =>
    ⟨hbegun, hleading, fun he => (hone he).prepend hquiet⟩

theorem append {tail : History Objects} (honce : AsksOnce e o' h) (hquiet : asked tail = []) :
    AsksOnce e o' (h ++ tail) := by
  rw [AsksOnce, asked_append, hquiet, List.append_nil]
  exact honce.imp_right fun ⟨hbegun, hleading, hone⟩ =>
    ⟨hbegun, hleading, fun he => (hone he).append hquiet⟩

theorem bracket (opening records : History Objects) (hopening : Lacks Happening.isAsk opening)
    (hrecords : Lacks Happening.isAsk records) (honce : AsksOnce e o' h) :
    AsksOnce e o' (opening ++ (h ++ closing e records)) :=
  (honce.append (asked_of_lacks (hrecords.closing e))).prepend (asked_of_lacks hopening)

end AsksOnce

end History

namespace Passage

theorem asks_while_probing (hpassage : Passage scope part o e o' h) (hkeeps : h.Keeps .registry)
    (hdue : part.due ≠ [] → o.registry.phase = .probing) :
    OnlyWhile Happening.isAsk (fun x => x.registry.phase = .probing) h := by
  induction hpassage with
  | stop => exact .of_lacks lacks_nil
  | append first rest ihfirst ihrest =>
      obtain ⟨hfirst, hrest⟩ := keeps_append.mp hkeeps
      exact (ihfirst hfirst (absurd rfl)).append (ihrest hrest (absurd rfl))
  | stuck _ _ ih => exact ih hkeeps (absurd rfl)
  | elsewhere _ ih => exact ih hkeeps (absurd rfl)
  | noted => exact .of_lacks (by simp)
  | stored => exact .of_lacks (by simp)
  | made _ ih => exact ih hkeeps (absurd rfl)
  | prompt hprompt =>
      exact .append (h := [_]) (.of_lacks (by simp))
        (.append (.of_lacks (lacks_logging (by simp) _)) (.of_lacks (by simp)))
  | fatal hfatal => exact .of_lacks (by simp)
  | waiting hinit hprobing => exact .of_lacks (by simp)
  | init hinit hidle body ih =>
      simp only [keeps_cons, keeps_append] at hkeeps
      exact .append (h := [_]) (.of_lacks (by simp))
        ((ih hkeeps.2.1 fun _ => rfl).append (.of_lacks (by simp)))
  | initStuck hinit hidle hstuck body ih =>
      obtain ⟨-, hbody⟩ := keeps_cons.mp hkeeps
      exact .append (h := [_]) (.of_lacks (by simp)) (ih hbody fun _ => rfl)
  | notify hslot body ih =>
      simp only [keeps_cons, keeps_append] at hkeeps
      exact .append (h := [_, _, _]) (.of_lacks (by simp))
        ((ih hkeeps.2.2.2.1 (absurd rfl)).append (.of_lacks (Lacks.closing (by simp) _)))
  | dispatch body ih =>
      simp only [keeps_cons, keeps_append] at hkeeps
      exact .append (h := [_]) (.of_lacks (by simp))
        ((ih hkeeps.2.1 (absurd rfl)).append (.of_lacks (Lacks.closing (by simp) _)))
  | forward body ih =>
      simp only [keeps_cons, keeps_append] at hkeeps
      exact .append (h := [_]) (.of_lacks (by simp))
        ((ih hkeeps.2.1 (absurd rfl)).append (.of_lacks (Lacks.closing (by simp) _)))
  | unclaimed hslot => exact .of_lacks (by simp)
  | handled hslot body ih =>
      simp only [keeps_cons, keeps_append] at hkeeps
      exact .append (h := [_, _]) (.of_lacks (by simp))
        ((ih hkeeps.2.2.1 (absurd rfl)).append (.of_lacks (Lacks.closing (by simp) _)))
  | askedAll => exact .of_lacks lacks_nil
  | asks probe rest ihprobe ihrest =>
      simp only [keeps_cons, keeps_append] at hkeeps
      obtain ⟨-, -, hprobe, -, -, hrest⟩ := hkeeps
      have hprobing := hdue (List.cons_ne_nil _ _)
      have hstill := (probe.probing hprobe hprobing).2
      exact .append (h := [_]) (.of_still (by simp) hprobing)
        (.append (.of_still (still_heralding _ _) hprobing)
          ((ihprobe hprobe (absurd rfl)).append (.append (h := [_]) (.of_lacks (by simp))
            (.append (.of_still (still_logging _) hstill) (ihrest hrest fun _ => hstill)))))
  | askStuck hstuck probe ih =>
      simp only [keeps_cons, keeps_append] at hkeeps
      have hprobing := hdue (List.cons_ne_nil _ _)
      exact .append (h := [_]) (.of_still (by simp) hprobing)
        (.append (.of_still (still_heralding _ _) hprobing) (ih hkeeps.2.2 (absurd rfl)))

/-- Once a start-up has begun, only what it still has to ask about is asked about. -/
theorem asks_due (hpassage : Passage scope part o e o' h) (hkeeps : h.Keeps .registry)
    (hbegun : o.registry.phase ≠ .idle) : AsksFor part.due e h := by
  induction hpassage with
  | stop => exact .of_lacks lacks_nil
  | append first rest ihfirst ihrest =>
      obtain ⟨hfirst, hrest⟩ := keeps_append.mp hkeeps
      exact (ihrest hrest (first.begun hfirst hbegun)).prepend (ihfirst hfirst hbegun).quiet
  | stuck _ _ ih => exact ih hkeeps hbegun
  | elsewhere _ ih => exact ih hkeeps hbegun
  | noted => exact .of_lacks (by simp)
  | stored => exact .of_lacks (by simp)
  | made _ ih => exact ih hkeeps hbegun
  | prompt hprompt =>
      exact .bracket [_] [_] (by simp) (by simp) (.of_lacks (lacks_logging (by simp) _))
  | fatal hfatal => exact .of_lacks (by simp)
  | waiting hinit hprobing => exact .of_lacks (by simp)
  | init hinit hidle body ih => exact absurd hidle hbegun
  | initStuck hinit hidle hstuck body ih => exact absurd hidle hbegun
  | notify hslot body ih =>
      simp only [keeps_cons, keeps_append] at hkeeps
      exact .bracket [_, _, _] [_, _] (by simp) (by simp) (ih hkeeps.2.2.2.1 hbegun)
  | dispatch body ih =>
      simp only [keeps_cons, keeps_append] at hkeeps
      exact .bracket [_] [_] (by simp) (by simp) (ih hkeeps.2.1 hbegun)
  | forward body ih =>
      simp only [keeps_cons, keeps_append] at hkeeps
      exact .bracket [_] [_] (by simp) (by simp) (ih hkeeps.2.1 hbegun)
  | unclaimed hslot => exact .of_lacks (by simp)
  | handled hslot body ih =>
      simp only [keeps_cons, keeps_append] at hkeeps
      exact .bracket [_, _] [_, _, _] (by simp) (by simp) (ih hkeeps.2.2.1 hbegun)
  | askedAll => exact .of_lacks lacks_nil
  | asks probe rest ihprobe ihrest =>
      simp only [keeps_cons, keeps_append] at hkeeps
      obtain ⟨-, -, hprobe, -, -, hrest⟩ := hkeeps
      have hquiet := (ihprobe hprobe hbegun).quiet
      have hlater := ihrest hrest (probe.begun hprobe hbegun)
      exact .cons (.prepend (asked_heralding _ _) (.prepend hquiet (.answered _ _
        (.prepend (asked_of_lacks (lacks_logging (by simp) _)) hlater))))
  | askStuck hstuck probe ih =>
      simp only [keeps_cons, keeps_append] at hkeeps
      have hquiet := (ih hkeeps.2.2 hbegun).quiet
      exact .cons (.prepend (asked_heralding _ _) (.of_stuck hstuck hquiet))

/-- **Each capability is asked about at most once.** -/
theorem asks_once (hpassage : Passage scope part o e o' h) (hkeeps : h.Keeps .registry)
    (hdue : part.due = []) : AsksOnce e o' h := by
  induction hpassage with
  | stop => exact .of_lacks lacks_nil
  | append first rest ihfirst ihrest =>
      obtain ⟨hfirst, hrest⟩ := keeps_append.mp hkeeps
      rcases ihfirst hfirst rfl with hquiet | ⟨hbegun, hleading, hone⟩
      · exact (ihrest hrest rfl).prepend hquiet
      · have hquiet := (rest.asks_due hrest hbegun).quiet
        refine Or.inr ⟨rest.begun hrest hbegun, ?_, fun _ => (hone rfl).append hquiet⟩
        rw [asked_append, hquiet, List.append_nil]
        exact hleading
  | stuck _ _ ih => exact ih hkeeps rfl
  | elsewhere _ ih => exact ih hkeeps rfl
  | noted => exact .of_lacks (by simp)
  | stored => exact .of_lacks (by simp)
  | made _ ih => exact ih hkeeps rfl
  | prompt hprompt =>
      exact .bracket [_] [_] (by simp) (by simp) (.of_lacks (lacks_logging (by simp) _))
  | fatal hfatal => exact .of_lacks (by simp)
  | waiting hinit hprobing => exact .of_lacks (by simp)
  | @init _ _ _ o o' _ _ hinit hidle body ih =>
      simp only [keeps_cons, keeps_append] at hkeeps
      have hasked := body.asks_due hkeeps.2.1 Registry.Phase.noConfusion
      have hserial : o'.registry.serial = o.registry.serial := (body.serial hkeeps.2.1).2
      refine Or.inr ⟨?_, ?_, fun _ => .of_init hinit hidle (hasked.2 rfl)⟩
      · rw [Objects.publish_eq hserial]
        exact Registry.Phase.noConfusion
      · exact (hasked.bracket [_] [_, _] (by simp) (by simp)).1
  | initStuck hinit hidle hstuck body ih =>
      obtain ⟨-, hbody⟩ := keeps_cons.mp hkeeps
      have hasked := body.asks_due hbody Registry.Phase.noConfusion
      have hbegun := body.begun hbody Registry.Phase.noConfusion
      exact Or.inr ⟨hbegun, hasked.1, fun he => absurd he hstuck⟩
  | notify hslot body ih =>
      simp only [keeps_cons, keeps_append] at hkeeps
      exact .bracket [_, _, _] [_, _] (by simp) (by simp) (ih hkeeps.2.2.2.1 rfl)
  | dispatch body ih =>
      simp only [keeps_cons, keeps_append] at hkeeps
      exact .bracket [_] [_] (by simp) (by simp) (ih hkeeps.2.1 rfl)
  | forward body ih =>
      simp only [keeps_cons, keeps_append] at hkeeps
      exact .bracket [_] [_] (by simp) (by simp) (ih hkeeps.2.1 rfl)
  | unclaimed hslot => exact .of_lacks (by simp)
  | handled hslot body ih =>
      simp only [keeps_cons, keeps_append] at hkeeps
      exact .bracket [_, _] [_, _, _] (by simp) (by simp) (ih hkeeps.2.2.1 rfl)
  | askedAll => exact .of_lacks lacks_nil
  | asks probe rest ihprobe ihrest => exact absurd hdue (List.cons_ne_nil _ _)
  | askStuck hstuck probe ih => exact absurd hdue (List.cons_ne_nil _ _)

theorem enters_as_asked (hpassage : Passage scope part o e o' h) : EntersAsAsked h := by
  induction hpassage with
  | stop => exact .of_lacks lacks_nil
  | append first rest ihfirst ihrest => exact ihfirst.append ihrest
  | stuck _ _ ih => exact ih
  | elsewhere _ ih => exact ih
  | noted => exact .of_lacks (by simp)
  | stored => exact .of_lacks (by simp)
  | made _ ih => exact ih
  | prompt hprompt =>
      exact .append (h := [_]) (.of_lacks (by simp))
        (.append (.of_lacks (lacks_logging (by simp) _)) (.of_lacks (by simp)))
  | fatal hfatal => exact .of_lacks (by simp)
  | waiting hinit hprobing => exact .of_lacks (by simp)
  | init hinit hidle body ih =>
      exact .append (h := [_]) (.of_lacks (by simp)) (ih.append (.of_lacks (by simp)))
  | initStuck hinit hidle hstuck body ih => exact .append (h := [_]) (.of_lacks (by simp)) ih
  | notify hslot body ih => exact .bracket [_, _, _] [_, _] (by simp) (by simp) ih
  | dispatch body ih => exact .bracket [_] [_] (by simp) (by simp) ih
  | forward body ih => exact .bracket [_] [_] (by simp) (by simp) ih
  | unclaimed hslot => exact .of_lacks (by simp)
  | handled hslot body ih => exact .bracket [_, _] [_, _, _] (by simp) (by simp) ih
  | askedAll => exact .of_lacks lacks_nil
  | asks probe rest ihprobe ihrest =>
      exact (EntersAsAsked.of_asked _ _ _).append (ihprobe.append
        (.append (h := [_]) (.of_lacks (by simp))
          (.append (.of_lacks (lacks_logging (by simp) _)) ihrest)))
  | askStuck hstuck probe ih => exact (EntersAsAsked.of_asked _ _ _).append ih

end Passage

end PlatformLayer
