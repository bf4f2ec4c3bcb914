import PlatformLayer.Proofs.Passage

/-!
# Finding calls in a history

A moment and all that follows it is an ending of the history. Where a call is on record, the passage
of that call starts there, however deep in nested client code that is; where a reply is on record,
the passage of the call that got it ends there. A call that does not return is the last thing that
happens.
-/

namespace PlatformLayer

open History

namespace History

variable {m : Moment Objects} {after h h' : History Objects}

theorem mem_of_ending (hsite : m :: after <:+ h) : m ∈ h :=
  hsite.subset List.mem_cons_self

/-- A moment of two stretches lies in the second or in the first. -/
theorem split_append {before : History Objects} (hsplit : h ++ h' = before ++ m :: after) :
    (∃ front, before = h ++ front ∧ h' = front ++ m :: after) ∨
      ∃ rest, h = before ++ m :: rest ∧ after = rest ++ h' := by
  rcases List.append_eq_append_iff.mp hsplit with hlater | ⟨tail, rfl, hhere⟩
  · exact Or.inl hlater
  · cases tail with
    | nil => exact Or.inl ⟨[], by simp, hhere.symm⟩
    | cons m' rest =>
        obtain ⟨rfl, hafter⟩ := List.cons.inj hhere
        exact Or.inr ⟨rest, rfl, hafter⟩

/-- An ending of two stretches starts in the second or reaches back into the first. -/
theorem ending_append (hsite : m :: after <:+ h ++ h') :
    m :: after <:+ h' ∨ ∃ rest, m :: rest <:+ h ∧ after = rest ++ h' := by
  obtain ⟨before, hsplit⟩ := hsite
  rcases split_append hsplit.symm with ⟨front, -, rfl⟩ | ⟨rest, rfl, hafter⟩
  · exact Or.inl (List.suffix_append front _)
  · exact Or.inr ⟨rest, List.suffix_append before _, hafter⟩

def Lacks (p : Happening → Bool) (h : History Objects) : Prop := ∀ m ∈ h, p m.what = false

section Lacks

variable {p : Happening → Bool}

@[simp] theorem lacks_nil : Lacks p [] := fun _ hm => absurd hm List.not_mem_nil

@[simp] theorem lacks_cons : Lacks p (m :: h) ↔ p m.what = false ∧ Lacks p h :=
  List.forall_mem_cons

@[simp] theorem lacks_append : Lacks p (h ++ h') ↔ Lacks p h ∧ Lacks p h' :=
  List.forall_mem_append

theorem Lacks.closing (hlacks : Lacks p h) (e : Outcome Unit) :
    Lacks p (History.closing e h) := by
  cases e with
  | returned => exact hlacks
  | halted => exact lacks_nil
  | hung => exact lacks_nil

theorem lacks_logging {notices : List Notice} (hp : ∀ n ∈ notices, p (.event (.logged n)) = false)
    (o : Objects) : Lacks p (logging notices o) := by
  intro m hm
  obtain ⟨n, hn, rfl⟩ := List.mem_map.mp hm
  exact hp n hn

theorem lacks_heralding {c : Capability} (hp : p (.event (.probeAsked c)) = false)
    (heralded : Bool) (o : Objects) : Lacks p (heralding heralded c o) := by
  cases heralded with
  | false => exact lacks_nil
  | true => simpa [heralding] using hp

theorem Lacks.not_ending (hlacks : Lacks p h) (hm : p m.what) : ¬ m :: after <:+ h := by
  intro hsite
  rw [hlacks m (mem_of_ending hsite)] at hm
  exact Bool.noConfusion hm

theorem Lacks.ending_append (hlacks : Lacks p h') (hm : p m.what)
    (hsite : m :: after <:+ h ++ h') : ∃ rest, m :: rest <:+ h ∧ after = rest ++ h' :=
  (History.ending_append hsite).resolve_left (hlacks.not_ending hm)

theorem ending_of_append (hlacks : Lacks p h) (hm : p m.what)
    (hsite : m :: after <:+ h ++ h') : m :: after <:+ h' := by
  rcases History.ending_append hsite with hsecond | ⟨rest, hfirst, -⟩
  · exact hsecond
  · exact absurd hfirst (hlacks.not_ending hm)

theorem ending_of_cons {a : Moment Objects} (ha : p a.what = false) (hm : p m.what)
    (hsite : m :: after <:+ a :: h) : m :: after <:+ h := by
  rcases List.suffix_cons_iff.mp hsite with heq | hsite
  · obtain ⟨rfl, -⟩ := List.cons.inj heq
    rw [ha] at hm
    exact Bool.noConfusion hm
  · exact hsite

end Lacks

/-- An ending that starts with a call starts at the first moment, or after it. -/
theorem ending_called {t t' : Nat} {c c' : Call} {x o : Objects}
    (hsite : ⟨.called t c, x⟩ :: after <:+ ⟨.called t' c', o⟩ :: h) :
    (t = t' ∧ c = c' ∧ x = o ∧ after = h) ∨ ⟨.called t c, x⟩ :: after <:+ h := by
  rcases List.suffix_cons_iff.mp hsite with heq | hsite
  · cases heq
    exact Or.inl ⟨rfl, rfl, rfl, rfl⟩
  · exact Or.inr hsite

end History

variable {scope : Scope} {part : Part} {o o' : Objects} {e : Outcome Unit}
  {h : History Objects}

/-- What follows where a call is made: its own passage, and more only if it returned. -/
def Sited (scope : Scope) (t : Nat) (c : Call) (x : Objects) (e : Outcome Unit) (o' : Objects)
    (after : History Objects) : Prop :=
  ∃ frame left e' x' body rest,
    Passage scope (.call t c frame left) x e' x' (⟨.called t c, x⟩ :: body) ∧
      after = body ++ rest ∧ (e' = .returned () ∨ rest = [] ∧ e' = e ∧ x' = o')

namespace Sited

variable {t : Nat} {c : Call} {x : Objects} {after : History Objects}

theorem append (hsited : Sited scope t c x (.returned ()) o after) (e : Outcome Unit)
    (o' : Objects) (tail : History Objects) : Sited scope t c x e o' (after ++ tail) := by
  obtain ⟨frame, left, e', x', body, rest, hcall, rfl, hend⟩ := hsited
  refine ⟨frame, left, e', x', body, rest ++ tail, hcall, List.append_assoc _ _ _, Or.inl ?_⟩
  rcases hend with hreturned | ⟨-, hreturned, -⟩
  · exact hreturned
  · exact hreturned

theorem append_closing (hsited : Sited scope t c x e o' after) (tail : History Objects) :
    Sited scope t c x e o' (after ++ closing e tail) := by
  by_cases hreturned : e = .returned ()
  · subst hreturned
    exact hsited.append _ _ _
  · rw [closing_of_stuck hreturned, List.append_nil]
    exact hsited

theorem of_call (frame left : Option Frame) {h : History Objects}
    (hcall : Passage scope (.call t c frame left) x e o' (⟨.called t c, x⟩ :: h)) :
    Sited scope t c x e o' h :=
  ⟨frame, left, e, o', h, [], hcall, (List.append_nil h).symm, Or.inr ⟨rfl, rfl, rfl⟩⟩

end Sited

@[simp] def Happening.isCall : Happening → Bool
  | called _ _ => true
  | _ => false

@[simp] def Happening.isReply : Happening → Bool
  | returned _ _ => true
  | _ => false

theorem Passage.call_site (hpassage : Passage scope part o e o' h) {t : Nat} {c : Call}
    {x : Objects} {after : History Objects} (hsite : ⟨.called t c, x⟩ :: after <:+ h) :
    Sited scope t c x e o' after := by
  have hcalled : Happening.isCall (.called t c) := rfl
  induction hpassage generalizing after with
  | stop => exact absurd hsite (by simp)
  | append first rest ihfirst ihrest =>
      rcases ending_append hsite with hsecond | ⟨between, hfirst, rfl⟩
      · exact ihrest hsecond
      · exact (ihfirst hfirst).append _ _ _
  | stuck _ _ ih => exact ih hsite
  | elsewhere _ ih => exact ih hsite
  | noted => exact absurd hsite (Lacks.not_ending (by simp) hcalled)
  | stored => exact absurd hsite (Lacks.not_ending (by simp) hcalled)
  | made _ ih => exact ih hsite
  | prompt hprompt =>
      rcases ending_called hsite with ⟨rfl, rfl, rfl, rfl⟩ | hlater
      · exact .of_call none none (.prompt hprompt)
      · have hlogging := ending_of_append
          (lacks_logging (by simp) _) hcalled hlater
        exact absurd hlogging (Lacks.not_ending (by simp) hcalled)
  | fatal hfatal =>
      rcases ending_called hsite with ⟨rfl, rfl, rfl, rfl⟩ | hlater
      · exact .of_call none none (.fatal hfatal)
      · exact absurd hlater (Lacks.not_ending (by simp) hcalled)
  | waiting hinit hprobing =>
      rcases ending_called hsite with ⟨rfl, rfl, rfl, rfl⟩ | hlater
      · exact .of_call none none (.waiting hinit hprobing)
      · exact absurd hlater (by simp)
  | init hinit hidle body ih =>
      rcases ending_called hsite with ⟨rfl, rfl, rfl, rfl⟩ | hlater
      · exact .of_call none none (.init hinit hidle body)
      · obtain ⟨between, hbody, rfl⟩ :=
          Lacks.ending_append (by simp) hcalled hlater
        exact (ih hbody).append _ _ _
  | initStuck hinit hidle hstuck body ih =>
      rcases ending_called hsite with ⟨rfl, rfl, rfl, rfl⟩ | hlater
      · exact .of_call none none (.initStuck hinit hidle hstuck body)
      · exact ih hlater
  | notify hslot body ih =>
      rcases ending_called hsite with ⟨rfl, rfl, rfl, rfl⟩ | hlater
      · exact .of_call none none (.notify hslot body)
      · have hentered := ending_of_cons (by simp) hcalled hlater
        have hinside := ending_of_cons (by simp) hcalled hentered
        obtain ⟨between, hbody, rfl⟩ := Lacks.ending_append
          (Lacks.closing (by simp) _) hcalled hinside
        exact (ih hbody).append_closing _
  | dispatch body ih =>
      rcases ending_called hsite with ⟨rfl, rfl, rfl, rfl⟩ | hlater
      · exact .of_call none none (.dispatch body)
      · obtain ⟨between, hbody, rfl⟩ := Lacks.ending_append
          (Lacks.closing (by simp) _) hcalled hlater
        exact (ih hbody).append_closing _
  | forward body ih =>
      rcases ending_called hsite with ⟨rfl, rfl, rfl, rfl⟩ | hlater
      · exact .of_call _ _ (.forward body)
      · obtain ⟨between, hbody, rfl⟩ := Lacks.ending_append
          (Lacks.closing (by simp) _) hcalled hlater
        exact (ih hbody).append_closing _
  | unclaimed hslot => exact absurd hsite (Lacks.not_ending (by simp) hcalled)
  | handled hslot body ih =>
      have hentered := ending_of_cons (by simp) hcalled hsite
      have hinside := ending_of_cons (by simp) hcalled hentered
      obtain ⟨between, hbody, rfl⟩ := Lacks.ending_append
        (Lacks.closing (by simp) _) hcalled hinside
      exact (ih hbody).append_closing _
  | askedAll => exact absurd hsite (by simp)
  | asks probe rest ihprobe ihrest =>
      have hheralded := ending_of_cons (by simp) hcalled hsite
      have hinside := ending_of_append
        (lacks_heralding (by simp) _ _) hcalled hheralded
      rcases ending_append hinside with hlater | ⟨between, hprobe, rfl⟩
      · have hlogged := ending_of_cons (by simp) hcalled hlater
        exact ihrest (ending_of_append
          (lacks_logging (by simp) _) hcalled hlogged)
      · exact (ihprobe hprobe).append _ _ _
  | askStuck hstuck probe ih =>
      have hheralded := ending_of_cons (by simp) hcalled hsite
      exact ih (ending_of_append
        (lacks_heralding (by simp) _ _) hcalled hheralded)

/-- The passage that ended with a reply, and where it lies. -/
def Answered (scope : Scope) (c : Call) (r : Reply) (x : Objects)
    (after h : History Objects) : Prop :=
  ∃ t frame left y front,
    Passage scope (.call t c frame left) y (.returned ()) x (front ++ [⟨.returned c r, x⟩]) ∧
      front ++ ⟨.returned c r, x⟩ :: after <:+ h

namespace Answered

variable {c : Call} {r : Reply} {x : Objects} {after : History Objects}

theorem prepend (hanswered : Answered scope c r x after h) (opening : History Objects) :
    Answered scope c r x after (opening ++ h) := by
  obtain ⟨t, frame, left, y, front, hcall, hsite⟩ := hanswered
  exact ⟨t, frame, left, y, front, hcall, hsite.trans (List.suffix_append opening h)⟩

theorem append (hanswered : Answered scope c r x after h) (tail : History Objects) :
    Answered scope c r x (after ++ tail) (h ++ tail) := by
  obtain ⟨t, frame, left, y, front, hcall, hsite⟩ := hanswered
  have htail : (front ++ ⟨.returned c r, x⟩ :: after) ++ tail <:+ h ++ tail :=
    List.suffix_append_self_iff.mpr hsite
  rw [List.append_assoc, List.cons_append] at htail
  exact ⟨t, frame, left, y, front, hcall, htail⟩

/-- A reply inside the passage of a call is the reply to that call, or lies in the client code that
the call ran. -/
theorem of_bracket {t : Nat} (frame left : Option Frame) {y o' : Objects} {c' : Call}
    {r' : Reply} (opening records : History Objects)
    (hcall : Passage scope (.call t c' frame left) y (.returned ()) o'
      (opening ++ (h ++ (records ++ [⟨.returned c' r', o'⟩]))))
    (hopening : Lacks Happening.isReply opening) (hrecords : Lacks Happening.isReply records)
    (ih : ∀ {after}, ⟨.returned c r, x⟩ :: after <:+ h → Answered scope c r x after h)
    (hsite : ⟨.returned c r, x⟩ :: after <:+
      opening ++ (h ++ (records ++ [⟨.returned c' r', o'⟩]))) :
    Answered scope c r x after (opening ++ (h ++ (records ++ [⟨.returned c' r', o'⟩]))) := by
  have hreply : Happening.isReply (.returned c r) := rfl
  rcases ending_append (ending_of_append hopening hreply hsite) with hlast | ⟨rest, hbody, rfl⟩
  · have hlast := ending_of_append hrecords hreply hlast
    rcases List.suffix_cons_iff.mp hlast with heq | hnil
    · cases heq
      refine ⟨t, frame, left, y, opening ++ (h ++ records), ?_, ?_⟩
      · simpa using hcall
      · simp
    · exact absurd hnil (by simp)
  · exact ((ih hbody).append _).prepend _

end Answered

theorem Passage.reply_site (hpassage : Passage scope part o e o' h) {c : Call} {r : Reply}
    {x : Objects} {after : History Objects} (hsite : ⟨.returned c r, x⟩ :: after <:+ h) :
    Answered scope c r x after h := by
  have hreply : Happening.isReply (.returned c r) := rfl
  induction hpassage generalizing after with
  | stop => exact absurd hsite (by simp)
  | append first rest ihfirst ihrest =>
      rcases ending_append hsite with hsecond | ⟨between, hfirst, rfl⟩
      · exact (ihrest hsecond).prepend _
      · exact (ihfirst hfirst).append _
  | stuck _ _ ih => exact ih hsite
  | elsewhere _ ih => exact ih hsite
  | noted => exact absurd hsite (Lacks.not_ending (by simp) hreply)
  | stored => exact absurd hsite (Lacks.not_ending (by simp) hreply)
  | made _ ih => exact ih hsite
  | prompt hprompt =>
      exact .of_bracket none none [_] (logging _ _) (h := []) (.prompt hprompt) (by simp)
        (lacks_logging (by simp) _) (fun hnil => absurd hnil (by simp)) hsite
  | fatal hfatal => exact absurd hsite (Lacks.not_ending (by simp) hreply)
  | waiting hinit hprobing => exact absurd hsite (Lacks.not_ending (by simp) hreply)
  | init hinit hidle body ih =>
      exact .of_bracket none none [_] [_] (.init hinit hidle body) (by simp) (by simp) ih hsite
  | initStuck hinit hidle hstuck body ih =>
      exact (ih (ending_of_cons (by simp) hreply hsite)).prepend [_]
  | @notify _ _ _ _ _ e _ hslot body ih =>
      by_cases hreturned : e = .returned ()
      · subst hreturned
        exact .of_bracket none none [_, _, _] [_] (.notify hslot body) (by simp) (by simp) ih hsite
      · rw [closing_of_stuck hreturned, List.append_nil] at hsite ⊢
        exact (ih (ending_of_append (h := [_, _, _]) (by simp) hreply hsite)).prepend [_, _, _]
  | @dispatch _ _ _ _ _ _ _ _ _ e _ body ih =>
      by_cases hreturned : e = .returned ()
      · subst hreturned
        exact .of_bracket none none [_] [] (.dispatch body) (by simp) (by simp) ih hsite
      · rw [closing_of_stuck hreturned, List.append_nil] at hsite ⊢
        exact (ih (ending_of_cons (by simp) hreply hsite)).prepend [_]
  | @forward _ _ _ _ _ _ _ e _ body ih =>
      by_cases hreturned : e = .returned ()
      · subst hreturned
        exact .of_bracket _ _ [_] [] (.forward body) (by simp) (by simp) ih hsite
      · rw [closing_of_stuck hreturned, List.append_nil] at hsite ⊢
        exact (ih (ending_of_cons (by simp) hreply hsite)).prepend [_]
  | unclaimed hslot => exact absurd hsite (Lacks.not_ending (by simp) hreply)
  | handled hslot body ih =>
      have hinside := ending_of_append (h := [_, _]) (by simp) hreply hsite
      obtain ⟨between, hbody, rfl⟩ := Lacks.ending_append
        (Lacks.closing (by simp) _) hreply hinside
      exact ((ih hbody).append _).prepend [_, _]
  | askedAll => exact absurd hsite (by simp)
  | asks probe rest ihprobe ihrest =>
      have hheralded := ending_of_cons (by simp) hreply hsite
      have hinside := ending_of_append (lacks_heralding (by simp) _ _) hreply hheralded
      rcases ending_append hinside with hlater | ⟨between, hprobe, rfl⟩
      · have hlogged := ending_of_cons (by simp) hreply hlater
        have hrest := ihrest (ending_of_append (lacks_logging (by simp) _) hreply hlogged)
        exact ((((hrest.prepend _).prepend [_]).prepend _).prepend _).prepend [_]
      · exact (((ihprobe hprobe).append _).prepend _).prepend [_]
  | askStuck hstuck probe ih =>
      have hheralded := ending_of_cons (by simp) hreply hsite
      have hprobe := ih (ending_of_append (lacks_heralding (by simp) _ _) hreply hheralded)
      exact (hprobe.prepend _).prepend [_]

end PlatformLayer
