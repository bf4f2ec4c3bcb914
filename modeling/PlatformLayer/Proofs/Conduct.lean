import PlatformLayer.Proofs.RunPassage

/-!
# What code does

A passage tells what is on record, not whose doing it is. The conduct of code follows its tree: each
call is on record with the reply that chose how to go on, each load reads the frame as it is at that
point, and the value returned is the one that the branch taken ends in.
-/

namespace PlatformLayer

open History

variable {scope : Scope} {ρ : Role}

/-- Code that makes a call goes on by the reply. Only where it hands its own registers on does a
call change its frame, and then by nothing but those registers. -/
inductive Program.Makes :
    {ρ : Role} → Program ρ → ρ.Local → Call → Reply → Program ρ → ρ.Local → Prop where
  | operation {ρ : Role} {op : Operation} {next : Reply → Program ρ} {own : ρ.Local} {r : Reply} :
      Makes (.call op next) own (.operation op) r (next r) own
  | init {ρ : Role} {ask : Capability → Program .probe} {skipped : Capability → Answer}
      {next : Reply → Program ρ} {own : ρ.Local} {r : Reply} :
      Makes (.init ask skipped next) own .init r (next r) own
  | forward {f : Fault} {next : Reply → Program .handler} {frame : Frame} {d : Disposition}
      {left : Registers} :
      Makes (.forward f next) frame (.forward f) (.dispatched d left) (next (.dispatched d left))
        ({ frame with registers := left } : Frame)

/-- One step of code: what it puts on record, and where the code is afterwards. -/
inductive Program.Step (scope : Scope) : {ρ : Role} → Program ρ → ρ.Local → Objects →
    History Objects → Program ρ → ρ.Local → Objects → Prop where
  | made {ρ : Role} {program program' : Program ρ} {own own' : ρ.Local} {t : Nat} {c : Call}
      {r : Reply} {o o' : Objects} {h : History Objects}
      (hmakes : program.Makes own c r program' own')
      (call : Passage scope (.call t c (Role.frame? own) (Role.frame? own')) o (.returned ()) o'
        (h ++ [⟨.returned c r, o'⟩])) :
      Step scope program own o (h ++ [⟨.returned c r, o'⟩]) program' own' o'
  | spawned {ρ : Role} {n : Nat} {body : Program .thread} {next : Reply → Program ρ}
      {own : ρ.Local} {results : List (List Reply)} {o o' : Objects} {h : History Objects}
      (threads : Passage scope (.code none none) o (.returned ()) o' h) :
      Step scope (.spawn n body next) own o h (next (.threads results)) own o'
  | noted {ρ : Role} {r : Reply} {next : Program ρ} {own : ρ.Local} {o : Objects} :
      Step scope (.note r next) own o [⟨.event (.noted r), o⟩] next own o
  | loaded {place : Place} {next : UInt64 → Program .handler} {frame : Frame} {o : Objects} :
      Step scope (.load place next) frame o [] (next (frame.load place)) frame o
  | stored {place : Place} {v : UInt64} {next : Program .handler} {frame : Frame} {o : Objects} :
      Step scope (.store place v next) frame o [⟨.stored place v, o⟩] next (frame.store place v) o

/-- The step in the midst of which a run stops. -/
inductive Program.Cut (scope : Scope) : {ρ : Role} → Program ρ → ρ.Local → Objects → Stop →
    Objects → History Objects → Prop where
  | made {ρ : Role} {program program' : Program ρ} {own own' : ρ.Local} {t : Nat} {c : Call}
      {r : Reply} {o o' : Objects} {stop : Stop} {h : History Objects}
      (hmakes : program.Makes own c r program' own')
      (call : Passage scope (.call t c (Role.frame? own) (Role.frame? own')) o stop.outcome o' h) :
      Cut scope program own o stop o' h
  | spawned {ρ : Role} {n : Nat} {body : Program .thread} {next : Reply → Program ρ}
      {own : ρ.Local} {o o' : Objects} {stop : Stop} {h : History Objects}
      (threads : Passage scope (.code none none) o stop.outcome o' h) :
      Cut scope (.spawn n body next) own o stop o' h

/-- Where code can be once it has put a stretch on record. -/
inductive Program.Reaches (scope : Scope) : {ρ : Role} → Program ρ → ρ.Local → Objects →
    History Objects → Program ρ → ρ.Local → Objects → Prop where
  | start {ρ : Role} {program : Program ρ} {own : ρ.Local} {o : Objects} :
      Reaches scope program own o [] program own o
  | step {ρ : Role} {program program' program'' : Program ρ} {own own' own'' : ρ.Local}
      {o o' o'' : Objects} {h h' : History Objects}
      (first : program.Step scope own o h program' own' o')
      (rest : Reaches scope program' own' o' h' program'' own'' o'') :
      Reaches scope program own o (h ++ h') program'' own'' o''

/-- What code does in all: it comes to an end and returns the value that stands there, or it stops
in the midst of a step. -/
inductive Conduct (scope : Scope) {ρ : Role} (program : Program ρ) (own : ρ.Local) (o : Objects) :
    Outcome (ρ.Value × ρ.Local) → Objects → History Objects → Prop where
  | finished {v : ρ.Value} {left : ρ.Local} {o' : Objects} {h : History Objects}
      (hreaches : program.Reaches scope own o h (.ret v) left o') :
      Conduct scope program own o (.returned (v, left)) o' h
  | interrupted {program' : Program ρ} {own' : ρ.Local} {o' o'' : Objects} {stop : Stop}
      {h h' : History Objects} (hreaches : program.Reaches scope own o h program' own' o')
      (hcut : program'.Cut scope own' o' stop o'' h') :
      Conduct scope program own o stop.outcome o'' (h ++ h')

namespace Conduct

variable {program program' : Program ρ} {own own' : ρ.Local} {o o' o'' : Objects}
  {e : Outcome (ρ.Value × ρ.Local)} {h h' : History Objects}

theorem step (first : program.Step scope own o h program' own' o')
    (hrest : Conduct scope program' own' o' e o'' h') :
    Conduct scope program own o e o'' (h ++ h') := by
  cases hrest with
  | finished hreaches => exact .finished (.step first hreaches)
  | interrupted hreaches hcut =>
      rw [← List.append_assoc]
      exact .interrupted (.step first hreaches) hcut

theorem cut {stop : Stop} (hcut : program.Cut scope own o stop o' h) :
    Conduct scope program own o stop.outcome o' h :=
  .interrupted .start hcut

end Conduct

theorem Program.Step.passage {program program' : Program ρ} {own own' : ρ.Local} {o o' : Objects}
    {h : History Objects} (hstep : program.Step scope own o h program' own' o') :
    Passage scope (.code (Role.frame? own) (Role.frame? own')) o (.returned ()) o' h := by
  cases hstep with
  | made _ call => exact .made call
  | spawned threads => exact .elsewhere threads
  | noted => exact .noted
  | loaded => exact .stop
  | stored => exact .stored

theorem Program.Reaches.passage {program program' : Program ρ} {own own' : ρ.Local}
    {o o' : Objects} {h : History Objects}
    (hreaches : program.Reaches scope own o h program' own' o') :
    Passage scope (.code (Role.frame? own) (Role.frame? own')) o (.returned ()) o' h := by
  induction hreaches with
  | start => exact .stop
  | step first _ ih => exact .append first.passage ih

/-! ### Running code is conducting it -/

/-- However it is run, the action is the conduct of this code. -/
def Conducts (x : Action scope.State (ρ.Value × ρ.Local)) (program : Program ρ)
    (own : ρ.Local) : Prop :=
  ∀ w, Conduct scope program own (Scope.objects w.state) (x w).outcome
    (Scope.objects (x w).world.state) (x w).history.seen

/-- A call with its reply, and then whatever the reply leads to. -/
theorem conducts_of_call {program : Program ρ} {own : ρ.Local} {t : Nat} {c : Call}
    {act : Action scope.State Reply} {next : Reply → Program ρ}
    {rest : Reply → Action scope.State (ρ.Value × ρ.Local)}
    (hmakes : ∀ r, program.Makes own c r (next r) own)
    (hcall : ∀ w, (Setting.making t c act w).Traces
      (.call t c (Role.frame? own) (Role.frame? own)) (Scope.objects w.state))
    (hrest : ∀ r, Conducts (rest r) (next r) own) :
    Conducts (Setting.making t c act >>= rest) program own := by
  intro w
  have htraced := hcall w
  obtain ⟨r, w', h, hreport⟩ | ⟨stop, w', h, hreport⟩ := (act w).returned_or_stopped
  · rw [making_of_returned hreport, Report.Traces] at htraced
    rw [Action.bind_of_returned (making_of_returned hreport), seen_append]
    simp only [seen_cons, seen_append, seen_nil] at htraced ⊢
    exact .step (.made (hmakes r) (h := _ :: h.seen) htraced) (hrest r w')
  · rw [making_of_stopped hreport, Report.Traces, Stop.fate_outcome] at htraced
    rw [Action.bind_of_stopped (making_of_stopped hreport)]
    -- no reply came; any will do to say that the code makes this call
    exact .cut (.made (hmakes .done) htraced)

theorem conducts_forward (clients : Clients) (host : Capability → Bool)
    {inner : Option (Runner scope.State)} (hinner : ∀ run ∈ inner, run.Sound) {t : Nat} {f : Fault}
    {frame : Frame} {next : Reply → Program .handler}
    {rest : Reply × Frame → Action scope.State (Role.handler.Value × Role.handler.Local)}
    (hrest : ∀ r, Conducts (rest r) (next r.1) r.2) :
    Conducts ((scope.setting clients host).forwardOwn inner t f frame >>= rest)
      (.forward f next) frame := by
  intro w
  obtain ⟨d, left, w', h, hreport, hcall⟩ | ⟨left, stop, w', h, hreport, hcall⟩ :=
    forwardOwn_cases clients host inner t f hinner frame w
  · have hlater := hrest (.dispatched d left, { frame with registers := left }) w'
    rw [Action.bind_of_returned hreport, seen_append, seen_append]
    exact .step (.made .forward hcall) hlater
  · rw [Action.bind_of_stopped hreport]
    exact .cut (.made (.forward (d := .unhandled)) hcall)

theorem conducts_spawn {n : Nat} {body : Program .thread} {next : Reply → Program ρ}
    {own : ρ.Local} {threads : Action scope.State (List (List Reply))}
    {rest : List (List Reply) → Action scope.State (ρ.Value × ρ.Local)}
    (hthreads : Follows threads none fun _ => none)
    (hrest : ∀ results, Conducts (rest results) (next (.threads results)) own) :
    Conducts (threads >>= rest) (.spawn n body next) own := by
  intro w
  have hpassage := hthreads.passage w
  obtain ⟨results, w', h, hreport⟩ | ⟨stop, w', h, hreport⟩ := (threads w).returned_or_stopped
  · rw [hreport] at hpassage
    rw [Action.bind_of_returned hreport, seen_append]
    exact .step (.spawned hpassage) (hrest results w')
  · rw [hreport, Report.Traces, Stop.fate_outcome] at hpassage
    rw [Action.bind_of_stopped hreport]
    exact .cut (.spawned hpassage)

theorem conducts_exec (clients : Clients) (host : Capability → Bool)
    {inner : Option (Runner scope.State)} (hinner : ∀ run ∈ inner, run.Sound)
    (program : Program ρ) (t : Nat) (own : ρ.Local) :
    Conducts ((scope.setting clients host).exec inner t program own) program own := by
  induction program generalizing t with
  | ret v => exact fun w => .finished .start
  | call op next ih =>
      exact conducts_of_call (fun r => .operation)
        (traced_operation clients host hinner t (Role.frame? own) op) fun r => ih r t own
  | init ask skipped next _ ih =>
      exact conducts_of_call (fun r => .init)
        (traces_init (c := .init) rfl (asks_client hinner t ask skipped) t (Role.frame? own))
        fun r => ih r t own
  | spawn n body next _ ih =>
      have hbody : ∀ t, Follows ((scope.setting clients host).exec inner t body () >>=
          fun r => pure r.1) none fun _ => none := fun t =>
        Follows.bind (follows_exec clients host hinner body t ()) fun r =>
          Follows.ret (fun _ => none) r.1
      exact conducts_spawn (follows_startThreads hbody n) fun results => ih (.threads results) t own
  | note r next ih => exact fun w => .step .noted (ih t own w)
  | load place next ih => exact fun w => .step .loaded (ih (Frame.load own place) t own w)
  | store place v next ih => exact fun w => .step .stored (ih t (Frame.store own place v) w)
  | forward fault next ih => exact conducts_forward clients host hinner fun r => ih r.1 t r.2

end PlatformLayer
