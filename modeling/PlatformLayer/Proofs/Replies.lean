import PlatformLayer.Proofs.Evolution

/-!
# What calls do and how they are answered

The passages of a call, taken apart by the kind of call: a plain call answers or halts at once, and
what a start-up does depends on the registry it finds. Replies found in a history are traced back to
the states they were given in.
-/

namespace PlatformLayer

open History

/-- Calls that may enter a handler or a callback. -/
def Call.entersClient : Call → Bool
  | operation (.dispatch _ _) => true
  | operation .notify => true
  | forward _ => true
  | _ => false

/-- Calls that read one object and change none. -/
def Operation.isQuery : Operation → Bool
  | has _ => true
  | hasBits _ => true
  | isReady => true
  | snapshot => true
  | getHandler => true
  | isRegistered => true
  | _ => false

theorem Call.plain_of_isQuery {op : Operation} (hquery : op.isQuery) :
    (Call.operation op).isInit = false ∧ (Call.operation op).entersClient = false := by
  cases op with
  | initFromHost => exact absurd hquery Bool.false_ne_true
  | dispatch fault context => exact absurd hquery Bool.false_ne_true
  | notify => exact absurd hquery Bool.false_ne_true
  | _ => exact ⟨rfl, rfl⟩

theorem Objects.publish_eq {o : Objects} {serial : Nat} (hserial : o.registry.serial = serial)
    (s : CapabilitySet) :
    o.publish serial s = { o with registry := { o.registry with phase := .ready s } } := by
  rw [Objects.publish, Registry.publish, if_pos hserial]

/-- Wherever this call is made, this is what happens next, in the state it was made in. -/
def History.FollowedBy (c : Call) (next : List Happening) (h : History Objects) : Prop :=
  ∀ t x after, ⟨.called t c, x⟩ :: after <:+ h → ∃ rest, after = next.map (⟨·, x⟩) ++ rest

/-- If this moment is a call of `op`, the reply follows it. -/
def Moment.Answers (op : Operation) (reply : Reply) (m : Moment Objects)
    (later : History Objects) : Prop :=
  ∀ t, m.what = .called t (.operation op) →
    ∃ rest, later = ⟨.returned (.operation op) reply, m.state⟩ :: rest

variable {scope : Scope} {part : Part} {t : Nat} {c : Call} {frame left : Option Frame}
  {o o' : Objects} {e : Outcome Unit} {h : History Objects}

namespace Prompt

variable {op : Operation} {r : Reply} {notices : List Notice} {s : CapabilitySet}

theorem of_query (hprompt : Prompt scope o (.operation op) r o' notices) (hquery : op.isQuery) :
    o' = o ∧ notices = [] := by
  cases hprompt with
  | kept hinit hpublished =>
      rw [(Call.plain_of_isQuery hquery).1] at hinit
      exact absurd hinit Bool.false_ne_true
  | registered hempty => exact absurd hquery Bool.false_ne_true
  | refused hfull => exact absurd hquery Bool.false_ne_true
  | setExit => exact absurd hquery Bool.false_ne_true
  | clearExit howner => exact absurd hquery Bool.false_ne_true
  | replace howner => exact absurd hquery Bool.false_ne_true
  | _ => exact ⟨rfl, rfl⟩

/-- The only prompt reply to a start-up is the set that is kept. -/
theorem of_init (hprompt : Prompt scope o c r o' notices) (hinit : c.isInit) :
    ∃ s, o.registry.published = some s ∧ r = .capabilities s ∧ o' = o ∧
      notices = [.capabilitiesKept s] := by
  cases hprompt with
  | kept _ hpublished => exact ⟨_, hpublished, rfl, rfl, rfl⟩
  | @absent op hshared howner =>
      cases op with
      | initFromHost => exact absurd howner Bool.false_ne_true
      | _ => exact absurd hinit Bool.false_ne_true
  | _ => exact absurd hinit Bool.false_ne_true

end Prompt

namespace Passage

theorem of_plain (hcall : Passage scope (.call t c frame left) o e o' h)
    (hinit : c.isInit = false) (hclient : c.entersClient = false) :
    (∃ r notices, Prompt scope o c r o' notices ∧ e = .returned () ∧
        h = ⟨.called t c, o⟩ :: (logging notices o' ++ [⟨.returned c r, o'⟩])) ∨
      ∃ halt, Fatal scope o c halt ∧ e = .halted halt ∧ o' = o ∧
        h = [⟨.called t c, o⟩, ⟨.event (.logged (.halting halt)), o⟩] := by
  cases hcall with
  | prompt hprompt => exact Or.inl ⟨_, _, hprompt, rfl, rfl⟩
  | fatal hfatal => exact Or.inr ⟨_, hfatal, rfl, rfl, rfl⟩
  | waiting htrue _ => exact absurd (hinit.symm.trans htrue) Bool.false_ne_true
  | init htrue _ _ => exact absurd (hinit.symm.trans htrue) Bool.false_ne_true
  | initStuck htrue _ _ _ => exact absurd (hinit.symm.trans htrue) Bool.false_ne_true
  | notify _ _ => exact absurd hclient.symm Bool.false_ne_true
  | dispatch _ => exact absurd hclient.symm Bool.false_ne_true
  | forward _ => exact absurd hclient.symm Bool.false_ne_true

/-- What a start-up does, by the registry that it finds. -/
theorem of_init (hcall : Passage scope (.call t c frame left) o e o' h) (hinit : c.isInit) :
    (∃ s, o.registry.phase = .ready s ∧ e = .returned () ∧ o' = o ∧
        h = [⟨.called t c, o⟩, ⟨.event (.logged (.capabilitiesKept s)), o⟩,
          ⟨.returned c (.capabilities s), o⟩]) ∨
      (o.registry.phase = .probing ∧ e = .hung ∧ h = [⟨.called t c, o⟩]) ∨
      (o.registry.phase = .idle ∧ ∃ s x body,
        Passage scope (.asking c.heralds Capability.all .empty s) o.probing e x body ∧
          (e = .returned () ∧ o' = x.publish o.registry.serial s ∧
              h = ⟨.called t c, o⟩ ::
                (body ++ [⟨.event (.logged (.capabilitiesPublished s)), o'⟩,
                  ⟨.returned c (.capabilities s), o'⟩]) ∨
            e ≠ .returned () ∧ h = ⟨.called t c, o⟩ :: body)) := by
  cases hcall with
  | prompt hprompt =>
      obtain ⟨s, hpublished, rfl, rfl, rfl⟩ := hprompt.of_init hinit
      exact Or.inl ⟨s, Registry.published_eq_some_iff.mp hpublished, rfl, rfl, rfl⟩
  | fatal hfatal =>
      cases hfatal <;> exact absurd hinit Bool.false_ne_true
  | waiting _ hprobing => exact Or.inr (Or.inl ⟨hprobing, rfl, rfl⟩)
  | init _ hidle body =>
      exact Or.inr (Or.inr ⟨hidle, _, _, _, body, Or.inl ⟨rfl, rfl, rfl⟩⟩)
  | initStuck _ hidle hstuck body =>
      exact Or.inr (Or.inr ⟨hidle, _, _, _, body, Or.inr ⟨hstuck, rfl⟩⟩)
  | notify _ _ => exact absurd hinit Bool.false_ne_true
  | dispatch _ => exact absurd hinit Bool.false_ne_true
  | forward _ => exact absurd hinit Bool.false_ne_true

/-- A query on record gets its answer at once, or it halts. -/
theorem query_site (hpassage : Passage scope part o e o' h) {op : Operation}
    (hquery : op.isQuery) {x : Objects} {after : History Objects}
    (hsite : ⟨.called t (.operation op), x⟩ :: after <:+ h) :
    (∃ r rest, Prompt scope x (.operation op) r x [] ∧
        after = ⟨.returned (.operation op) r, x⟩ :: rest) ∨
      ∃ halt, Fatal scope x (.operation op) halt ∧ e = .halted halt ∧
        after = [⟨.event (.logged (.halting halt)), x⟩] := by
  obtain ⟨frame, left, e', x', body, rest, hcall, rfl, hend⟩ := hpassage.call_site hsite
  obtain ⟨hinit, hclient⟩ := Call.plain_of_isQuery hquery
  rcases hcall.of_plain hinit hclient with ⟨r, notices, hprompt, -, hbody⟩ |
    ⟨halt, hfatal, rfl, -, hbody⟩
  · obtain ⟨rfl, rfl⟩ := hprompt.of_query hquery
    cases hbody
    exact Or.inl ⟨r, rest, hprompt, rfl⟩
  · cases hbody
    rcases hend with hreturned | ⟨rfl, rfl, -⟩
    · cases hreturned
    · exact Or.inr ⟨halt, hfatal, rfl, rfl⟩

theorem answers_query (hpassage : Passage scope part o e o' h) {op : Operation}
    (hquery : op.isQuery) {m : Moment Objects} {later : History Objects}
    (hsite : m :: later <:+ h) {reply : Reply}
    (hsafe : ∀ halt, ¬ Fatal scope m.state (.operation op) halt)
    (hreply : ∀ r, Prompt scope m.state (.operation op) r m.state [] → r = reply) :
    m.Answers op reply later := by
  obtain ⟨what, x⟩ := m
  rintro t rfl
  rcases hpassage.query_site hquery hsite with ⟨r, rest, hprompt, rfl⟩ | ⟨halt, hfatal, -⟩
  · rw [hreply r hprompt]
    exact ⟨rest, rfl⟩
  · exact absurd hfatal (hsafe halt)

theorem query_followed (hpassage : Passage scope part o e o' h) {op : Operation}
    (hquery : op.isQuery) {after : History Objects} (hafter : after <:+ h) {r : Reply}
    (hsafe : ∀ m ∈ after, ∀ halt, ¬ Fatal scope m.state (.operation op) halt)
    (hreply : ∀ m ∈ after, ∀ r', Prompt scope m.state (.operation op) r' m.state [] → r' = r) :
    FollowedBy (.operation op) [.returned (.operation op) r] after := by
  intro t x rest hsite
  have hmem := mem_of_ending hsite
  exact hpassage.answers_query hquery (hsite.trans hafter) (hsafe _ hmem) (hreply _ hmem) t rfl

/-! ### Replies on record -/

variable {r : Reply} {x : Objects}

theorem of_reply (hpassage : Passage scope part o e o' h) (hmem : ⟨.returned c r, x⟩ ∈ h) :
    ∃ after, Answered scope c r x after h := by
  obtain ⟨front, after, rfl⟩ := List.append_of_mem hmem
  exact ⟨after, hpassage.reply_site (List.suffix_append front _)⟩

theorem init_reply (hpassage : Passage scope part o e o' h) (hkeeps : h.Keeps .registry)
    (hinit : c.isInit) {s : CapabilitySet} (hmem : ⟨.returned c (.capabilities s), x⟩ ∈ h) :
    x.registry.phase = .ready s := by
  obtain ⟨after, t, frame, left, y, front, hcall, hsite⟩ := hpassage.of_reply hmem
  have hkept : Keeps .registry (front ++ [⟨.returned c (.capabilities s), x⟩]) := by
    rw [List.append_cons] at hsite
    exact hkeeps.mono fun m hm => hsite.subset (List.mem_append_left after hm)
  rcases hcall.of_init hinit with ⟨s', hready, -, rfl, hfront⟩ | ⟨-, he, -⟩ |
    ⟨-, s', z, body, hbody, ⟨-, rfl, hfront⟩ | ⟨hstuck, -⟩⟩
  · have hlast := congrArg List.getLast? hfront
    rw [List.getLast?_concat] at hlast
    cases hlast
    exact hready
  · cases he
  · rw [hfront, keeps_cons, keeps_append] at hkept
    have hserial : z.registry.serial = y.registry.serial := (hbody.serial hkept.2.1).2
    have hlast := congrArg List.getLast? hfront
    rw [List.getLast?_concat, List.getLast?_cons, List.getLast?_append] at hlast
    cases hlast
    rw [Objects.publish_eq hserial]
  · exact absurd rfl hstuck

/-- **The set of a start-up that returned is the set for good.** -/
theorem ready_after (hpassage : Passage scope part o e o' h) (hkeeps : h.Keeps .registry)
    (hinit : c.isInit) {s : CapabilitySet} {after : History Objects}
    (hsite : ⟨.returned c (.capabilities s), x⟩ :: after <:+ h) :
    Throughout (fun y => y.registry.phase = .ready s) after o' := by
  have hready := hpassage.init_reply hkeeps hinit (mem_of_ending hsite)
  exact ((hpassage.evolves hkeeps).of_ending hsite).throughout (fun _ _ => Change.ready) hready

end Passage

/-! ### Calls that find the registry published -/

@[simp] def Happening.isStartUpReply : Happening → Bool
  | returned c (.capabilities _) => c.isInit
  | _ => false

theorem Happening.of_isStartUpReply {what : Happening} (hreply : what.isStartUpReply) :
    ∃ c s, what = .returned c (.capabilities s) ∧ c.isInit := by
  match what, hreply with
  | .returned c (.capabilities s), hinit => exact ⟨c, s, rfl, hinit⟩

namespace History

def StartedUp (h : History Objects) : Prop := ∃ m ∈ h, m.what.isStartUpReply

/-- A call finds the registry published only if this was known before or a start-up has returned
since. -/
def Informed (known : Prop) : History Objects → Prop
  | [] => True
  | m :: h => (m.what.isCall → m.state.registry.published ≠ none → known) ∧
      Informed (known ∨ m.what.isStartUpReply) h

section Informed

variable {known known' : Prop} {h' : History Objects}

theorem startedUp_append : StartedUp (h ++ h') ↔ StartedUp h ∨ StartedUp h' := by
  simp only [StartedUp, List.mem_append, or_and_right, exists_or]

theorem startedUp_cons {m : Moment Objects} :
    StartedUp (m :: h) ↔ m.what.isStartUpReply ∨ StartedUp h := by
  simp only [StartedUp, List.mem_cons, or_and_right, exists_or, exists_eq_left]

theorem Informed.mono (himp : known → known') (hinformed : Informed known h) :
    Informed known' h := by
  induction h generalizing known known' with
  | nil => trivial
  | cons m h ih =>
      obtain ⟨hm, hrest⟩ := hinformed
      exact ⟨fun hcall hpublished => himp (hm hcall hpublished), ih (Or.imp_left himp) hrest⟩

theorem informed_append :
    Informed known (h ++ h') ↔ Informed known h ∧ Informed (known ∨ StartedUp h) h' := by
  induction h generalizing known with
  | nil => simp [Informed, StartedUp]
  | cons m h ih => simp only [List.cons_append, Informed, ih, startedUp_cons, or_assoc, and_assoc]

theorem Informed.of_lacks (hlacks : Lacks Happening.isCall h) : Informed known h := by
  induction h generalizing known with
  | nil => trivial
  | cons m h ih =>
      obtain ⟨hm, hrest⟩ := lacks_cons.mp hlacks
      refine ⟨fun hcall => ?_, ih hrest⟩
      rw [hm] at hcall
      exact absurd hcall Bool.false_ne_true

end Informed

/-- What a stretch lets one know: that it was informed, and where it leaves the registry published
whether a start-up has returned. -/
def Informs (known : Prop) (e : Outcome Unit) (o' : Objects) (h : History Objects) : Prop :=
  Informed known h ∧ (e = .returned () → o'.registry.published ≠ none → known ∨ StartedUp h)

namespace Informs

variable {known : Prop} {opening records : History Objects}

theorem of_lacks (hlacks : Lacks Happening.isCall h)
    (hknown : o.registry.published ≠ none → known) : Informs known e o h :=
  ⟨.of_lacks hlacks, fun _ hpublished => Or.inl (hknown hpublished)⟩

theorem called {t : Nat} {c : Call} (hknown : o.registry.published ≠ none → known)
    (hinforms : Informs known e o' h) : Informs known e o' (⟨.called t c, o⟩ :: h) := by
  refine ⟨⟨fun _ => hknown, hinforms.1.mono Or.inl⟩, fun he hpublished => ?_⟩
  exact (hinforms.2 he hpublished).imp_right fun hstarted => startedUp_cons.mpr (Or.inr hstarted)

theorem prepend (opening : History Objects) (hlacks : Lacks Happening.isCall opening)
    (hinforms : Informs known e o' h) : Informs known e o' (opening ++ h) := by
  refine ⟨informed_append.mpr ⟨.of_lacks hlacks, hinforms.1.mono Or.inl⟩, fun he hpublished => ?_⟩
  exact (hinforms.2 he hpublished).imp_right fun hstarted => startedUp_append.mpr (Or.inr hstarted)

theorem append (hlacks : Lacks Happening.isCall records) (hinforms : Informs known e o' h) :
    Informs known e o' (h ++ records) := by
  refine ⟨informed_append.mpr ⟨hinforms.1, .of_lacks hlacks⟩, fun he hpublished => ?_⟩
  exact (hinforms.2 he hpublished).imp_right fun hstarted => startedUp_append.mpr (Or.inl hstarted)

theorem trans {h' : History Objects} (hfirst : Informed known h)
    (hrest : Informs (known ∨ StartedUp h) e o' h') : Informs known e o' (h ++ h') := by
  refine ⟨informed_append.mpr ⟨hfirst, hrest.1⟩, fun he hpublished => ?_⟩
  rw [startedUp_append, ← or_assoc]
  exact hrest.2 he hpublished

end Informs

end History

theorem Prompt.published {r : Reply} {notices : List Notice}
    (hprompt : Prompt scope o c r o' notices) (hpublished : o'.registry.published ≠ none) :
    o.registry.published ≠ none := by
  cases hprompt with
  | @replace component howner =>
      cases component with
      | registry => exact absurd rfl hpublished
      | handlerSlot => exact hpublished
      | exitSlot => exact hpublished
  | _ => exact hpublished

/-- A registry is published only by a start-up that then returns. -/
theorem Passage.informs (hpassage : Passage scope part o e o' h) {known : Prop}
    (hknown : o.registry.published ≠ none → known) : Informs known e o' h := by
  induction hpassage generalizing known with
  | stop => exact .of_lacks lacks_nil hknown
  | append first rest ihfirst ihrest =>
      obtain ⟨hinformed, hleft⟩ := ihfirst hknown
      exact .trans hinformed (ihrest (hleft rfl))
  | stuck _ _ ih => exact ih hknown
  | elsewhere _ ih => exact ih hknown
  | noted => exact .of_lacks (by simp) hknown
  | stored => exact .of_lacks (by simp) hknown
  | made _ ih => exact ih hknown
  | prompt hprompt =>
      have hleft := fun hpublished => hknown (hprompt.published hpublished)
      exact .called hknown (.prepend _ (lacks_logging (by simp) _) (.of_lacks (by simp) hleft))
  | fatal hfatal => exact .called hknown (.of_lacks (by simp) hknown)
  | waiting hinit hprobing => exact .called hknown (.of_lacks lacks_nil hknown)
  | init hinit hidle body ih =>
      have hbody : Informs known _ _ _ := ih (absurd rfl)
      refine .called hknown ⟨informed_append.mpr ⟨hbody.1, .of_lacks (by simp)⟩, fun _ _ => ?_⟩
      rw [startedUp_append, startedUp_cons, startedUp_cons]
      exact Or.inr (Or.inr (Or.inr (Or.inl hinit)))
  | initStuck hinit hidle hstuck body ih => exact .called hknown (ih (absurd rfl))
  | notify hslot body ih =>
      exact .called hknown (.prepend [_, _] (by simp)
        (.append (Lacks.closing (by simp) _) (ih hknown)))
  | dispatch body ih =>
      exact .called hknown (.append (Lacks.closing (by simp) _) (ih hknown))
  | forward body ih =>
      exact .called hknown (.append (Lacks.closing (by simp) _) (ih hknown))
  | unclaimed hslot => exact .of_lacks (by simp) hknown
  | handled hslot body ih =>
      exact .prepend [_, _] (by simp) (.append (Lacks.closing (by simp) _) (ih hknown))
  | askedAll => exact .of_lacks lacks_nil hknown
  | asks probe rest ihprobe ihrest =>
      obtain ⟨hinformed, hleft⟩ := ihprobe hknown
      exact .prepend [_] (by simp) (.prepend _ (lacks_heralding (by simp) _ _)
        (.trans hinformed (.prepend [_] (by simp)
          (.prepend _ (lacks_logging (by simp) _) (ihrest (hleft rfl))))))
  | askStuck hstuck probe ih =>
      exact .prepend [_] (by simp) (.prepend _ (lacks_heralding (by simp) _ _) (ih hknown))

/-- A call finds the registry published exactly if a start-up has returned before. -/
theorem Passage.published_iff_startedUp (hpassage : Passage scope part o e o' h)
    (hkeeps : h.Keeps .registry) (hnew : o.registry.published = none)
    {before after : History Objects} {x : Objects}
    (hsplit : h = before ++ ⟨.called t c, x⟩ :: after) :
    x.registry.published ≠ none ↔ StartedUp before := by
  constructor
  · intro hpublished
    have hinformed := (hpassage.informs (fun hsome => hsome hnew)).1
    rw [hsplit, informed_append] at hinformed
    exact (hinformed.2.1 rfl hpublished).resolve_left id
  · rintro ⟨⟨what, y⟩, hreply, hstarted⟩
    obtain ⟨c', s, rfl, hinit⟩ := Happening.of_isStartUpReply hstarted
    obtain ⟨front, rest, rfl⟩ := List.append_of_mem hreply
    have hsite :
        ⟨.returned c' (.capabilities s), y⟩ :: (rest ++ ⟨.called t c, x⟩ :: after) <:+ h := by
      rw [hsplit, List.append_assoc, List.cons_append]
      exact List.suffix_append front _
    have hready := (hpassage.ready_after hkeeps hinit hsite).1 ⟨.called t c, x⟩ (by simp)
    rw [Registry.published_eq_some_iff.mpr hready]
    exact Option.some_ne_none s

end PlatformLayer
