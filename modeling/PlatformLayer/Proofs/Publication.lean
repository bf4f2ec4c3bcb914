import PlatformLayer.Proofs.StartUp

/-!
# Capabilities are published at once

While a first start-up is asking, nothing of what it has heard so far can be seen, by the code of
the probes or anything that code sets off. When the last probe has answered, the registry goes over
to the full set in one step, which touches nothing else.
-/

namespace PlatformLayer

open History

/-! ### What the methods say before -/

namespace Scope

variable {scope : Scope} {x : Objects}

end Scope

/-! ### While a registry is probing -/

/-- A start-up publishes, or it returns. -/
@[simp] def Happening.endsStartUp : Happening → Bool
  | event (.logged (.capabilitiesPublished _)) => true
  | returned c _ => c.isInit
  | _ => false

/-- Up to a call that replaces it the registry is `r`, and no start-up comes to its end. -/
def History.Hushed (r : Registry) : History Objects → Objects → Prop
  | [], o' => o'.registry = r
  | m :: h, o' => m.state.registry = r ∧ m.what.endsStartUp = false ∧
      (m.what.replaces .registry = false → Hushed r h o')

variable {scope : Scope} {part : Part} {o o' : Objects} {e : Outcome Unit} {r : Registry}
  {h h' : History Objects}

namespace History.Hushed

theorem cons {what : Happening} (ho : o.registry = r) (hquiet : what.endsStartUp = false)
    (hrest : Hushed r h o') : Hushed r (⟨what, o⟩ :: h) o' :=
  ⟨ho, hquiet, fun _ => hrest⟩

theorem append (hfirst : Hushed r h o) (hrest : o.registry = r → Hushed r h' o') :
    Hushed r (h ++ h') o' := by
  induction h with
  | nil => exact hrest hfirst
  | cons m h ih =>
      obtain ⟨hm, hquiet, hlater⟩ := hfirst
      exact ⟨hm, hquiet, fun hkept => ih (hlater hkept)⟩

theorem of_still (hstill : Still o h) (hlacks : Lacks Happening.endsStartUp h)
    (ho : o.registry = r) : Hushed r h o := by
  induction h with
  | nil => exact ho
  | cons m h ih =>
      obtain ⟨rfl, hrest⟩ := still_cons.mp hstill
      obtain ⟨hquiet, hlater⟩ := lacks_cons.mp hlacks
      exact .cons ho hquiet (ih hrest hlater)

theorem append_closing (hbody : Hushed r h o) (hstill : Still o h')
    (hlacks : Lacks Happening.endsStartUp h') (e : Outcome Unit) :
    Hushed r (h ++ closing e h') o :=
  hbody.append (.of_still (hstill.closing e) (hlacks.closing e))

theorem site {before later : History Objects} {m : Moment Objects}
    (hhushed : Hushed r (before ++ m :: later) o') (hkeeps : before.Keeps .registry) :
    m.state.registry = r ∧ m.what.endsStartUp = false := by
  induction before with
  | nil => exact ⟨hhushed.1, hhushed.2.1⟩
  | cons a before ih =>
      obtain ⟨ha, hrest⟩ := keeps_cons.mp hkeeps
      exact ih (hhushed.2.2 ha) hrest

end History.Hushed

namespace Prompt

variable {c : Call} {reply : Reply} {notices : List Notice}

end Prompt

end PlatformLayer
