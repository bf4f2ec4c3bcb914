import PlatformLayer.Architecture.Session

/-!
# One protocol on every machine

Code that names registers by their roles runs on every described machine. What it does to a snapshot
it does to three numbers: a program answers on a machine as it answers on plain numbers modulo the
word range. Reducing numbers from one word range to a smaller one commutes with every step, so a
machine with narrow words answers as one with wide words does, reduced.
-/

namespace PlatformLayer

open Session (Index Bank)

/-- The registers that every described machine has. -/
structure GeneralRegisters where
  ip : Nat
  sp : Nat
  fp : Nat
  deriving DecidableEq

/-- What can be done to a snapshot without knowing its machine. -/
inductive GeneralStep where
  | reset
  | resumeAt (ip sp : Nat)
  | ip
  | sp
  | fp
  | setIp (n : Nat)
  | setSp (n : Nat)
  | advance (n : Nat)
  deriving DecidableEq

/-- Steps on several snapshots, each with the snapshot it works on. -/
abbrev GeneralProgram := List (Index × GeneralStep)

/-! ### On a machine -/

namespace Architecture

variable {a : Architecture}

def general (c : a.Snapshot) : Except Halt GeneralRegisters := do
  let stack ← sp c
  let frame ← fp c
  return ⟨ip c, stack, frame⟩

end Architecture

def GeneralStep.on (a : Architecture) : GeneralStep → Session.Operation a
  | .reset => .reset
  | .resumeAt start top => .resumeAt start top
  | .ip => .get .ip
  | .sp => .get .sp
  | .fp => .get .fp
  | .setIp n => .set .ip n
  | .setSp n => .set .sp n
  | .advance n => .advance n

namespace Session

variable {a : Architecture}

/-- The part of an answer that says nothing about the machine. -/
def Answer.general : Answer a → Except Halt (Reply × GeneralRegisters)
  | .replied reply c => (Architecture.general c).map (reply, ·)
  | .halted _ h => .error h

def program (a : Architecture) (steps : GeneralProgram) : List (Index × Operation a) :=
  steps.map fun x => (x.1, x.2.on a)

/-- What a program shows: the reply to every step, and the general registers after it. -/
def trace (bank : Bank a) (steps : GeneralProgram) : List (Except Halt (Reply × GeneralRegisters)) :=
  (run bank (program a steps)).map Answer.general

/-- The snapshots that operations leave, up to the first that halts. -/
def Bank.after (bank : Bank a) : List (Index × Operation a) → Bank a
  | [] => bank
  | (i, op) :: rest =>
    match apply bank i op with
    | .ok (_, c) => after (bank.put i c) rest
    | .error _ => bank

/-- A program answers every step with these results and leaves these registers. -/
structure Bank.Yields (bank : Bank a) (steps : GeneralProgram)
    (results : List (Reply × GeneralRegisters)) (final : Index → GeneralRegisters) : Prop where
  trace_eq : trace bank steps = results.map .ok
  after_eq : ∀ i, Architecture.general (bank.after (program a steps) i) = .ok (final i)

section

variable {bank : Bank a} {i : Index} {step : GeneralStep} {reply : Reply} {c : a.Snapshot}
  (happly : apply bank i (step.on a) = .ok (reply, c)) (rest : GeneralProgram)

include happly

theorem trace_cons :
    trace bank ((i, step) :: rest)
      = (Architecture.general c).map (reply, ·) :: trace (bank.put i c) rest := by
  have hrun : run bank ((i, step.on a) :: program a rest)
      = .replied reply c :: run (bank.put i c) (program a rest) := by
    rw [run, happly]
  exact congrArg (List.map Answer.general) hrun

theorem after_cons :
    bank.after (program a ((i, step) :: rest)) = (bank.put i c).after (program a rest) := by
  rw [program, List.map_cons, Bank.after, happly]
  rfl

end

end Session

/-! ### On plain numbers -/

namespace GeneralRegisters

/-- One step on registers that hold the numbers below `range`. -/
def apply (range : Nat) (g : GeneralRegisters) : GeneralStep → Session.Reply × GeneralRegisters
  | .reset => (.done, ⟨0, 0, 0⟩)
  | .resumeAt ip sp => (.done, ⟨ip % range, sp % range, 0⟩)
  | .ip => (.word g.ip, g)
  | .sp => (.word g.sp, g)
  | .fp => (.word g.fp, g)
  | .setIp n => (.done, { g with ip := n % range })
  | .setSp n => (.done, { g with sp := n % range })
  | .advance n => (.done, { g with ip := (g.ip + n) % range })

def put (bank : Index → GeneralRegisters) (i : Index) (g : GeneralRegisters) :
    Index → GeneralRegisters :=
  fun j => if j = i then g else bank j

/-- The results of a program, and the registers it leaves. -/
def run (range : Nat) (bank : Index → GeneralRegisters) :
    GeneralProgram → List (Session.Reply × GeneralRegisters) × (Index → GeneralRegisters)
  | [] => ([], bank)
  | (i, step) :: rest =>
    let result := apply range (bank i) step
    let later := run range (put bank i result.2) rest
    (result :: later.1, later.2)

theorem run_length (range : Nat) (bank : Index → GeneralRegisters) (steps : GeneralProgram) :
    (run range bank steps).1.length = steps.length := by
  induction steps generalizing bank with
  | nil => rfl
  | cons x rest ih => exact congrArg (· + 1) (ih _)

end GeneralRegisters

/-! ### Every machine refines the numbers -/

namespace Architecture

/-- The roles of a machine are played by different slots, and addresses have one width. -/
structure Conventional (a : Architecture) (roles : StackRegisters a.layout) (width : Nat) :
    Prop where
  described : a.stack = some roles
  ip_width : a.instruction.width = width
  sp_width : roles.sp.width = width
  sp_ne_ip : roles.sp ≠ a.instruction
  fp_ne_ip : roles.fp ≠ a.instruction
  fp_ne_sp : roles.fp ≠ roles.sp

namespace Conventional

variable {a : Architecture} {roles : StackRegisters a.layout} {width : Nat}

/-- The general registers of a machine whose roles are known. -/
def registers (roles : StackRegisters a.layout) (c : a.Snapshot) : GeneralRegisters :=
  ⟨c.read a.instruction, c.read roles.sp, c.read roles.fp⟩

theorem general_eq (h : Conventional a roles width) (c : a.Snapshot) :
    general c = .ok (registers roles c) := by
  rw [general, sp, fp, h.described]
  rfl

theorem registers_eq (h : Conventional a roles width) {c : a.Snapshot} {g : GeneralRegisters}
    (hgeneral : general c = .ok g) : registers roles c = g := by
  rw [h.general_eq] at hgeneral
  exact Except.ok.inj hgeneral

theorem registers_setIp (h : Conventional a roles width) (c : a.Snapshot) (n : Nat) :
    registers roles (setIp c n) = { registers roles c with ip := n % byteRange width } := by
  rw [registers, setIp, Context.read_write_self, h.ip_width, Context.read_write_of_ne c n h.sp_ne_ip,
    Context.read_write_of_ne c n h.fp_ne_ip]
  rfl

theorem registers_write_sp (h : Conventional a roles width) (c : a.Snapshot) (n : Nat) :
    registers roles (c.write roles.sp n) = { registers roles c with sp := n % byteRange width } := by
  rw [registers, Context.read_write_self, h.sp_width, Context.read_write_of_ne c n h.sp_ne_ip.symm,
    Context.read_write_of_ne c n h.fp_ne_sp]
  rfl

theorem registers_zero : registers roles (Context.zero : a.Snapshot) = ⟨0, 0, 0⟩ := by
  simp [registers]

theorem registers_resumeAt (h : Conventional a roles width) (ip sp : Nat) :
    registers roles (a.resumeAt ip sp) = ⟨ip % byteRange width, sp % byteRange width, 0⟩ := by
  rw [resumeAt, h.described]
  dsimp only
  rw [h.registers_write_sp, h.registers_setIp, registers_zero]

/-- No step halts, and on the general registers it is the step on numbers. -/
theorem apply_on (h : Conventional a roles width) (bank : Bank a) (i : Index) (step : GeneralStep) :
    ∃ c, Session.apply bank i (step.on a)
        = .ok (((registers roles (bank i)).apply (byteRange width) step).1, c) ∧
      registers roles c = ((registers roles (bank i)).apply (byteRange width) step).2 := by
  cases step with
  | reset => exact ⟨_, rfl, registers_zero⟩
  | resumeAt ip sp => exact ⟨_, rfl, h.registers_resumeAt ip sp⟩
  | ip => exact ⟨_, rfl, rfl⟩
  | sp =>
      refine ⟨bank i, ?_, rfl⟩
      rw [GeneralStep.on, Session.apply, Session.getRegister, Architecture.sp, h.described]
      rfl
  | fp =>
      refine ⟨bank i, ?_, rfl⟩
      rw [GeneralStep.on, Session.apply, Session.getRegister, Architecture.fp, h.described]
      rfl
  | setIp n => exact ⟨_, rfl, h.registers_setIp (bank i) n⟩
  | setSp n =>
      refine ⟨(bank i).write roles.sp n, ?_, h.registers_write_sp (bank i) n⟩
      rw [GeneralStep.on, Session.apply, Session.setRegister, Architecture.setSp, h.described]
      rfl
  | advance n => exact ⟨_, rfl, h.registers_setIp (bank i) _⟩

theorem registers_put (bank : Bank a) (i : Index) (c : a.Snapshot) :
    (fun j => registers roles (bank.put i c j))
      = GeneralRegisters.put (fun j => registers roles (bank j)) i (registers roles c) := by
  funext j
  rw [Session.Bank.put, GeneralRegisters.put]
  exact apply_ite _ _ _ _

/-- No program halts, and on the general registers it runs as on numbers. -/
theorem yields_run (h : Conventional a roles width) (bank : Bank a) (steps : GeneralProgram) :
    let result := GeneralRegisters.run (byteRange width) (fun i => registers roles (bank i)) steps
    bank.Yields steps result.1 result.2 := by
  induction steps generalizing bank with
  | nil => exact ⟨rfl, fun i => h.general_eq (bank i)⟩
  | cons x rest ih =>
      obtain ⟨i, step⟩ := x
      obtain ⟨c, happly, hregisters⟩ := h.apply_on bank i step
      obtain ⟨htrace, hafter⟩ := ih (bank.put i c)
      rw [registers_put, hregisters] at htrace hafter
      constructor
      · rw [Session.trace_cons happly, htrace, h.general_eq c, hregisters]
        rfl
      · rw [Session.after_cons happly]
        exact hafter

end Conventional

end Architecture

/-! ### Narrower words -/

def GeneralRegisters.reduce (range : Nat) (g : GeneralRegisters) : GeneralRegisters :=
  ⟨g.ip % range, g.sp % range, g.fp % range⟩

def GeneralStep.reduce (range : Nat) : GeneralStep → GeneralStep
  | .resumeAt start top => .resumeAt (start % range) (top % range)
  | .setIp n => .setIp (n % range)
  | .setSp n => .setSp (n % range)
  | .advance n => .advance (n % range)
  | step => step

def Session.Reply.reduce (range : Nat) : Session.Reply → Session.Reply
  | .word n => .word (n % range)
  | reply => reply

/-- The program with every operand reduced. -/
def GeneralProgram.reduce (range : Nat) (steps : GeneralProgram) : GeneralProgram :=
  steps.map (Prod.map id (GeneralStep.reduce range))

theorem GeneralProgram.reduce_cons (range : Nat) (i : Index) (step : GeneralStep)
    (rest : GeneralProgram) :
    reduce range ((i, step) :: rest) = (i, step.reduce range) :: reduce range rest :=
  rfl

namespace GeneralRegisters

/-- A result with its reply and its registers reduced. -/
def reduceResult (range : Nat) (result : Session.Reply × GeneralRegisters) :
    Session.Reply × GeneralRegisters :=
  (result.1.reduce range, result.2.reduce range)

variable {small large : Nat}

theorem apply_reduce (hdvd : small ∣ large) (g : GeneralRegisters) (step : GeneralStep) :
    (g.reduce small).apply small (step.reduce small) = reduceResult small (g.apply large step) := by
  have hmod : ∀ n, n % large % small = n % small % small := by
    intro n
    rw [Nat.mod_mod_of_dvd n hdvd, Nat.mod_mod]
  cases step with
  | reset => simp [apply, GeneralStep.reduce, reduceResult, Session.Reply.reduce, reduce]
  | resumeAt start top =>
      simp [apply, GeneralStep.reduce, reduceResult, Session.Reply.reduce, reduce, hmod]
  | ip => rfl
  | sp => rfl
  | fp => rfl
  | setIp n => simp [apply, GeneralStep.reduce, reduceResult, Session.Reply.reduce, reduce, hmod]
  | setSp n => simp [apply, GeneralStep.reduce, reduceResult, Session.Reply.reduce, reduce, hmod]
  | advance n => simp [apply, GeneralStep.reduce, reduceResult, Session.Reply.reduce, reduce, hmod]

theorem put_reduce (bank : Index → GeneralRegisters) (i : Index) (g : GeneralRegisters) :
    put (fun j => (bank j).reduce small) i (g.reduce small)
      = fun j => (put bank i g j).reduce small := by
  funext j
  exact (apply_ite (reduce small) _ _ _).symm

theorem run_reduce (hdvd : small ∣ large) (bank : Index → GeneralRegisters)
    (steps : GeneralProgram) :
    run small (fun i => (bank i).reduce small) (GeneralProgram.reduce small steps)
      = ((run large bank steps).1.map (reduceResult small),
        fun i => ((run large bank steps).2 i).reduce small) := by
  induction steps generalizing bank with
  | nil => rfl
  | cons x rest ih =>
      obtain ⟨i, step⟩ := x
      have hlater := ih (put bank i ((bank i).apply large step).2)
      rw [← put_reduce] at hlater
      have hresults := congrArg Prod.fst hlater
      have hfinal := congrArg Prod.snd hlater
      rw [GeneralProgram.reduce_cons, run, run, apply_reduce hdvd]
      exact Prod.ext (congrArg (List.cons _) hresults) hfinal

end GeneralRegisters

/-! ### The machines compared -/

namespace Architecture

/-- The machines with 64-bit addresses. -/
def wide : List Architecture := [amd64Unix, amd64, arm64, riscv64]

/-- The machines with 32-bit addresses. -/
def narrow : List Architecture := [arm, x86]

theorem wide_conventional : ∀ a ∈ wide, ∃ roles, Conventional a roles 8 := by
  intro a ha
  simp only [wide, List.mem_cons, List.not_mem_nil, or_false] at ha
  obtain rfl | rfl | rfl | rfl := ha
  all_goals exact ⟨_, rfl, rfl, rfl, by decide, by decide, by decide⟩

theorem narrow_conventional : ∀ a ∈ narrow, ∃ roles, Conventional a roles 4 := by
  intro a ha
  simp only [narrow, List.mem_cons, List.not_mem_nil, or_false] at ha
  obtain rfl | rfl := ha
  all_goals exact ⟨_, rfl, rfl, rfl, by decide, by decide, by decide⟩

/-- **Code that knows no machine sees one protocol.** On a machine with wide words a program computes
with numbers, and so it has the same results on any other such machine. Reduced, they are its results
on a machine with narrow words. -/
theorem one_protocol (steps : GeneralProgram) (a : Architecture) (ha : a ∈ wide) (bank : Bank a) :
    ∃ start, (∀ i, general (bank i) = .ok (start i)) ∧
      let result := GeneralRegisters.run (byteRange 8) start steps
      result.1.length = steps.length ∧
      (∀ b ∈ wide, ∀ other : Bank b, (∀ i, general (other i) = general (bank i)) →
        other.Yields steps result.1 result.2) ∧
      ∀ b ∈ narrow, ∀ other : Bank b,
        (∀ i, general (other i) = (general (bank i)).map (.reduce (byteRange 4))) →
        other.Yields (steps.reduce (byteRange 4))
          (result.1.map (GeneralRegisters.reduceResult (byteRange 4)))
          (fun i => (result.2 i).reduce (byteRange 4)) := by
  obtain ⟨roles, h⟩ := wide_conventional a ha
  let start := fun i => Conventional.registers roles (bank i)
  refine ⟨start, fun i => h.general_eq (bank i), GeneralRegisters.run_length _ _ _, ?_, ?_⟩
  · intro b hb other hother
    obtain ⟨roles', h'⟩ := wide_conventional b hb
    have hstart : (fun i => Conventional.registers roles' (other i)) = start := by
      funext i
      exact h'.registers_eq ((hother i).trans (h.general_eq (bank i)))
    have hyields := h'.yields_run other steps
    rwa [hstart] at hyields
  · intro b hb other hother
    obtain ⟨roles', h'⟩ := narrow_conventional b hb
    have hstart : (fun i => Conventional.registers roles' (other i))
        = fun i => (start i).reduce (byteRange 4) := by
      funext i
      apply h'.registers_eq
      rw [hother, h.general_eq]
      rfl
    have hdvd : byteRange 4 ∣ byteRange 8 := by decide
    have hyields := h'.yields_run other (steps.reduce (byteRange 4))
    rwa [hstart, GeneralRegisters.run_reduce hdvd] at hyields

/-- The instruction pointer wraps on the narrow machine alone, where another register is in use. -/
theorem one_protocol_wrapping :
    let steps : GeneralProgram := [(0, .advance 0xffffffff), (1, .setSp 0x100000020), (0, .ip)]
    let results : List (Session.Reply × GeneralRegisters) :=
      [ (.done, ⟨0x600000002, 0x7fff0010, 0⟩), (.done, ⟨0x500000003, 0x100000020, 0⟩)
      , (.word 0x600000002, ⟨0x600000002, 0x7fff0010, 0⟩) ]
    let wideBank : Bank arm64 := fun _ => arm64.resumeAt 0x500000003 0x7fff0010
    let narrowBank : Bank x86 := fun _ =>
      (x86.resumeAt 3 0x7fff0010).write (Layout.x86.scalarSlot 5 (by decide) (by decide)) 9
    ∃ final, wideBank.Yields steps results final ∧
      narrowBank.Yields (steps.reduce (byteRange 4))
        (results.map (GeneralRegisters.reduceResult (byteRange 4)))
        (fun i => (final i).reduce (byteRange 4)) := by
  intro steps results wideBank narrowBank
  obtain ⟨start, -, -, hwide, hnarrow⟩ := one_protocol steps arm64 (by simp [wide]) wideBank
  have hyields := hwide arm64 (by simp [wide]) wideBank (fun i => rfl)
  have hresults : (GeneralRegisters.run (byteRange 8) start steps).1 = results := by
    have hshown : (Session.trace wideBank steps).map Except.toOption = results.map some := by
      decide +kernel
    rw [hyields.trace_eq, List.map_map] at hshown
    exact (List.map_inj_right fun _ _ => Option.some.inj).mp hshown
  have hreduced : ∀ i, general (narrowBank i)
      = (general (wideBank i)).map (.reduce (byteRange 4)) := by
    intro i
    exact congrArg Except.ok (by decide +kernel :
      (⟨3, 0x7fff0010, 0⟩ : GeneralRegisters) = .reduce (byteRange 4) ⟨0x500000003, 0x7fff0010, 0⟩)
  rw [← hresults]
  exact ⟨_, hyields, hnarrow x86 (by simp [narrow]) narrowBank hreduced⟩

end Architecture

end PlatformLayer
