import PlatformLayer.Proofs.FallbackMachine
import Mathlib.Algebra.Ring.Nat
import Mathlib.Data.List.DropRight

/-!
# Redirecting a snapshot

Code that redirects control reads the registers of a snapshot by their roles and moves its
instruction and stack pointers. Where these two stand is told by the steps alone: by the last value
given and, for the instruction pointer, by the advances since. Every other slot of the snapshot is
what it was, whatever the machine keeps there.
-/

namespace PlatformLayer

open Session (Index Bank)

/-- What a redirection is made of. -/
inductive RoleStep where
  | ip
  | sp
  | fp
  | lr
  | setIp (n : Nat)
  | setSp (n : Nat)
  | advance (n : Nat)
  deriving DecidableEq

namespace RoleStep

def on (a : Architecture) : RoleStep → Session.Operation a
  | .ip => .get .ip
  | .sp => .get .sp
  | .fp => .get .fp
  | .lr => .get .lr
  | .setIp n => .set .ip n
  | .setSp n => .set .sp n
  | .advance n => .advance n

def givenIp? : RoleStep → Option Nat
  | .setIp n => some n
  | _ => none

def givenSp? : RoleStep → Option Nat
  | .setSp n => some n
  | _ => none

def advanced : RoleStep → Nat
  | .advance n => n
  | _ => 0

/-! ### Where the two pointers stand -/

/-- The last value given, or the one at the start where none was. -/
def lastGiven (given? : RoleStep → Option Nat) (start : Nat) (steps : List RoleStep) : Nat :=
  (steps.filterMap given?).getLast?.getD start

def spAfter (start : Nat) (steps : List RoleStep) : Nat :=
  lastGiven givenSp? start steps

/-- The steps since the instruction pointer was last given a value. -/
def sinceGiven (steps : List RoleStep) : List RoleStep :=
  steps.rtakeWhile fun step => step.givenIp?.isNone

def ipAfter (start : Nat) (steps : List RoleStep) : Nat :=
  lastGiven givenIp? start steps + ((sinceGiven steps).map advanced).sum

variable (given? : RoleStep → Option Nat) (start : Nat) (steps : List RoleStep) (step : RoleStep)

theorem lastGiven_concat :
    lastGiven given? start (steps ++ [step])
      = (given? step).getD (lastGiven given? start steps) := by
  rw [lastGiven, List.filterMap_append]
  cases hgiven : given? step with
  | none => simp [hgiven, lastGiven]
  | some n => simp [hgiven]

theorem spAfter_concat :
    spAfter start (steps ++ [step]) = step.givenSp?.getD (spAfter start steps) :=
  lastGiven_concat givenSp? start steps step

theorem ipAfter_concat :
    ipAfter start (steps ++ [step])
      = step.givenIp?.getD (ipAfter start steps) + step.advanced := by
  rw [ipAfter, ipAfter, lastGiven_concat, sinceGiven, List.rtakeWhile_concat]
  cases step with
  | setIp n => simp [givenIp?, advanced]
  | _ => simp [givenIp?, advanced, sinceGiven, Nat.add_assoc]

end RoleStep

/-! ### Stores by number -/

namespace Context

variable {l : Layout} (c : Context l)

theorem write_write (s : l.Slot) (m n : Nat) : (c.write s m).write s n = c.write s n :=
  store_store c s _ _

theorem write_comm {s t : l.Slot} (h : s ≠ t) (m n : Nat) :
    (c.write s m).write t n = (c.write t n).write s m :=
  store_comm c h _ _

theorem write_read (s : l.Slot) : c.write s (c.read s) = c := by
  rw [write, read, Kind.ofBits_toBits, store_value_eq]

theorem write_value_of_ne {s t : l.Slot} (n : Nat) (h : t ≠ s) :
    (c.write s n).value t = c.value t :=
  store_value_of_ne c _ h

theorem write_congr (s : l.Slot) {m n : Nat}
    (h : m % byteRange s.width = n % byteRange s.width) : c.write s m = c.write s n := by
  have hbits : Kind.ofBits s.kind m = Kind.ofBits s.kind n := by
    apply Kind.toBits_injective
    rw [Kind.toBits_ofBits, Kind.toBits_ofBits]
    exact h
  rw [write, write, hbits]

end Context

/-! ### A snapshot with its pointers placed -/

namespace Architecture

variable {a : Architecture}

/-- The snapshot with both pointers replaced. -/
def placed (roles : StackRegisters a.layout) (c : a.Snapshot) (ip sp : Nat) : a.Snapshot :=
  (c.write a.instruction ip).write roles.sp sp

/-- The snapshot that a redirection is to leave. -/
def redirected (roles : StackRegisters a.layout) (c : a.Snapshot) (steps : List RoleStep) :
    a.Snapshot :=
  placed roles c (RoleStep.ipAfter (c.read a.instruction) steps)
    (RoleStep.spAfter (c.read roles.sp) steps)

/-- The reply that a step is to have after the steps `before`, in words of `width` bytes. -/
def redirectionReply (roles : StackRegisters a.layout) (width : Nat) (c : a.Snapshot)
    (before : List RoleStep) : RoleStep → Session.Reply
  | .ip => .word (RoleStep.ipAfter (c.read a.instruction) before % byteRange width)
  | .sp => .word (RoleStep.spAfter (c.read roles.sp) before % byteRange width)
  | .fp => .word (c.read roles.fp)
  | .lr => (roles.lr.map fun s => .word (c.read s)).getD .absent
  | .setIp _ => .done
  | .setSp _ => .done
  | .advance _ => .done

/-- The return address lies in none of the slots that a redirection moves. -/
def KeepsLink (a : Architecture) (roles : StackRegisters a.layout) : Prop :=
  roles.lr ≠ some a.instruction ∧ roles.lr ≠ some roles.sp

namespace Conventional

variable {roles : StackRegisters a.layout} {width : Nat} (h : Conventional a roles width)
  (c : a.Snapshot) (ip sp : Nat)

include h

theorem read_ip_placed : (placed roles c ip sp).read a.instruction = ip % byteRange width := by
  rw [placed, Context.read_write_of_ne _ _ h.sp_ne_ip.symm, Context.read_write_self, h.ip_width]

theorem read_sp_placed : (placed roles c ip sp).read roles.sp = sp % byteRange width := by
  rw [placed, Context.read_write_self, h.sp_width]

omit h in
theorem value_placed_of_ne {s : a.layout.Slot} (hip : s ≠ a.instruction) (hsp : s ≠ roles.sp) :
    (placed roles c ip sp).value s = c.value s := by
  rw [placed, Context.write_value_of_ne _ _ hsp, Context.write_value_of_ne _ _ hip]

omit h in
theorem read_placed_of_ne {s : a.layout.Slot} (hip : s ≠ a.instruction) (hsp : s ≠ roles.sp) :
    (placed roles c ip sp).read s = c.read s :=
  congrArg Kind.toBits (value_placed_of_ne c ip sp hip hsp)

omit h in
theorem setSp_placed (n : Nat) : (placed roles c ip sp).write roles.sp n = placed roles c ip n :=
  Context.write_write _ _ _ _

theorem setIp_placed (n : Nat) : setIp (placed roles c ip sp) n = placed roles c n sp := by
  rw [setIp, placed, ← Context.write_comm c h.sp_ne_ip, Context.write_write,
    Context.write_comm c h.sp_ne_ip]
  rfl

/-- The sum may be taken before it is cut to the word. -/
theorem advance_placed (n : Nat) :
    advance (placed roles c ip sp) n = placed roles c (ip + n) sp := by
  rw [advance, Architecture.ip, h.read_ip_placed, h.setIp_placed, placed, placed]
  have hsum : (ip % byteRange width + n) % byteRange a.instruction.width
      = (ip + n) % byteRange a.instruction.width := by
    rw [h.ip_width, Nat.mod_add_mod]
  rw [c.write_congr a.instruction hsum]

omit h in
theorem redirected_nil : redirected roles c [] = c := by
  have hip : RoleStep.ipAfter (c.read a.instruction) [] = c.read a.instruction := rfl
  have hsp : RoleStep.spAfter (c.read roles.sp) [] = c.read roles.sp := rfl
  rw [redirected, placed, hip, hsp, Context.write_read, Context.write_read]

/-- A redirected snapshot answers a step from the steps so far, and the step redirects it further. -/
theorem apply_redirected (hlink : KeepsLink a roles) (bank : Bank a) (i : Index)
    (before : List RoleStep) (step : RoleStep) (hbank : bank i = redirected roles c before) :
    Session.apply bank i (step.on a)
      = .ok (redirectionReply roles width c before step,
        redirected roles c (before ++ [step])) := by
  have hother : ∀ s, s ≠ a.instruction → s ≠ roles.sp → (bank i).read s = c.read s := by
    intro s hip hsp
    rw [hbank, redirected, read_placed_of_ne c _ _ hip hsp]
  -- a step that only reads leaves both pointers, and so the snapshot
  have hreads : step.givenIp? = none → step.givenSp? = none → step.advanced = 0 →
      redirected roles c (before ++ [step]) = bank i := by
    intro hip hsp hadvanced
    rw [hbank, redirected, RoleStep.ipAfter_concat, RoleStep.spAfter_concat, hip, hsp, hadvanced]
    rfl
  cases step with
  | ip =>
      rw [hreads rfl rfl rfl, redirectionReply, ← h.read_ip_placed c _ _, ← redirected, ← hbank]
      rfl
  | sp =>
      rw [hreads rfl rfl rfl, redirectionReply, ← h.read_sp_placed c _ _, ← redirected, ← hbank,
        RoleStep.on, Session.apply, Session.getRegister, Architecture.sp, h.described]
      rfl
  | fp =>
      rw [hreads rfl rfl rfl, redirectionReply, ← hother _ h.fp_ne_ip h.fp_ne_sp, RoleStep.on,
        Session.apply, Session.getRegister, Architecture.fp, h.described]
      rfl
  | lr =>
      rw [hreads rfl rfl rfl, redirectionReply, RoleStep.on, Session.apply, Session.getRegister,
        Architecture.lr, h.described]
      dsimp only
      cases hslot : roles.lr with
      | none => rfl
      | some s =>
          have hip : s ≠ a.instruction := fun heq => hlink.1 (heq ▸ hslot)
          have hsp : s ≠ roles.sp := fun heq => hlink.2 (heq ▸ hslot)
          rw [Option.map_some, Option.map_some, hother s hip hsp]
          rfl
  | setIp n =>
      rw [RoleStep.on, Session.apply, Session.setRegister, hbank, redirected, h.setIp_placed,
        redirected, RoleStep.ipAfter_concat, RoleStep.spAfter_concat]
      rfl
  | setSp n =>
      rw [RoleStep.on, Session.apply, Session.setRegister, Architecture.setSp, h.described, hbank,
        redirected, redirected, RoleStep.ipAfter_concat, RoleStep.spAfter_concat]
      exact congrArg (fun d => Except.ok (_, d)) (setSp_placed _ _ _ _)
  | advance n =>
      rw [RoleStep.on, Session.apply, hbank, redirected, h.advance_placed, redirected,
        RoleStep.ipAfter_concat, RoleStep.spAfter_concat]
      rfl

end Conventional

end Architecture

/-! ### Sessions of steps -/

namespace Session

variable {a : Architecture}

/-- Steps on several snapshots, as operations. -/
def redirection (a : Architecture) (steps : List (Index × RoleStep)) :
    List (Index × Operation a) :=
  steps.map fun x => (x.1, x.2.on a)

/-- The steps made on one of the snapshots. -/
def madeOn (i : Index) (steps : List (Index × RoleStep)) : List RoleStep :=
  steps.filterMap fun x => if x.1 = i then some x.2 else none

theorem madeOn_append (i : Index) (xs ys : List (Index × RoleStep)) :
    madeOn i (xs ++ ys) = madeOn i xs ++ madeOn i ys :=
  List.filterMap_append

theorem madeOn_singleton_self (i : Index) (step : RoleStep) : madeOn i [(i, step)] = [step] := by
  simp [madeOn]

theorem madeOn_singleton_of_ne {i j : Index} (h : j ≠ i) (step : RoleStep) :
    madeOn i [(j, step)] = [] := by
  simp [madeOn, h]

section

variable {roles : StackRegisters a.layout} (hroles : a.stack = some roles)
include hroles

theorem after_append (bank : Bank a) (xs ys : List (Index × Operation a)) :
    bank.after (xs ++ ys) = (bank.after xs).after ys := by
  induction xs generalizing bank with
  | nil => rfl
  | cons x rest ih =>
      obtain ⟨i, op⟩ := x
      obtain ⟨reply, c, happly⟩ := Architecture.apply_described hroles bank i op
      rw [List.cons_append, Bank.after, Bank.after, happly]
      exact ih (bank.put i c)

theorem run_append (bank : Bank a) (xs ys : List (Index × Operation a)) :
    run bank (xs ++ ys) = run bank xs ++ run (bank.after xs) ys := by
  induction xs generalizing bank with
  | nil => rfl
  | cons x rest ih =>
      obtain ⟨i, op⟩ := x
      obtain ⟨reply, c, happly⟩ := Architecture.apply_described hroles bank i op
      rw [List.cons_append, run, run, Bank.after, happly]
      exact congrArg (List.cons _) (ih (bank.put i c))

theorem run_length (bank : Bank a) (ops : List (Index × Operation a)) :
    (run bank ops).length = ops.length := by
  obtain ⟨results, hrun, hlength⟩ := Architecture.run_described hroles bank ops
  rw [hrun, List.length_map, hlength]

theorem run_drop (bank : Bank a) (xs ys : List (Index × Operation a)) :
    (run bank (xs ++ ys)).drop xs.length = run (bank.after xs) ys := by
  rw [run_append hroles, ← run_length hroles bank xs, List.drop_left]

end

end Session

namespace Architecture

variable {a : Architecture} {roles : StackRegisters a.layout} {width : Nat}

open Session (redirection madeOn)

namespace Conventional

variable (h : Conventional a roles width) (hlink : KeepsLink a roles) (bank : Bank a)
include h hlink

/-- Each snapshot is redirected by the steps made on it. -/
theorem after_redirection (steps : List (Index × RoleStep)) (i : Index) :
    bank.after (redirection a steps) i = redirected roles (bank i) (madeOn i steps) := by
  induction steps using List.reverseRecOn generalizing i with
  | nil => exact (redirected_nil (bank i)).symm
  | append_singleton before x ih =>
      obtain ⟨j, step⟩ := x
      have happly := h.apply_redirected (bank j) hlink _ j (madeOn j before) step (ih j)
      have hlast : bank.after (redirection a (before ++ [(j, step)]))
          = (bank.after (redirection a before)).put j
              (redirected roles (bank j) (madeOn j before ++ [step])) := by
        rw [redirection, List.map_append, Session.after_append h.described]
        change (bank.after (redirection a before)).after [(j, step.on a)] = _
        rw [Session.Bank.after, happly]
        rfl
      rw [hlast, Session.Bank.put, Session.madeOn_append]
      by_cases hsame : i = j
      · subst hsame
        rw [if_pos rfl, Session.madeOn_singleton_self]
      · rw [if_neg hsame, Session.madeOn_singleton_of_ne (Ne.symm hsame), List.append_nil, ih i]

theorem run_redirection_at (before : List (Index × RoleStep)) (i : Index) (step : RoleStep)
    (after : List (Index × RoleStep)) :
    (Session.run bank (redirection a (before ++ (i, step) :: after)))[before.length]?
      = some (.replied (redirectionReply roles width (bank i) (madeOn i before) step)
          (redirected roles (bank i) (madeOn i before ++ [step]))) := by
  have hbefore := h.after_redirection hlink bank before i
  have happly := h.apply_redirected (bank i) hlink _ i (madeOn i before) step hbefore
  have hlength : (Session.run bank (redirection a before)).length = before.length := by
    rw [Session.run_length h.described, redirection, List.length_map]
  rw [redirection, List.map_append, Session.run_append h.described, ← redirection, ← hlength,
    List.getElem?_append_right (Nat.le_refl _), Nat.sub_self, List.map_cons, Session.run, happly]
  rfl

omit h hlink in
/-- Giving one pointer a value does not touch the other. -/
theorem redirected_swap (c : a.Snapshot) (before : List RoleStep) (m n : Nat) :
    redirected roles c (before ++ [.setIp m, .setSp n])
      = redirected roles c (before ++ [.setSp n, .setIp m]) := by
  rw [List.append_cons before (.setIp m), List.append_cons before (.setSp n), redirected,
    redirected]
  simp only [RoleStep.ipAfter_concat, RoleStep.spAfter_concat]
  rfl

theorem after_swap (before : List (Index × RoleStep)) (i j : Index) (m n : Nat) :
    bank.after (redirection a (before ++ [(i, .setIp m), (j, .setSp n)]))
      = bank.after (redirection a (before ++ [(j, .setSp n), (i, .setIp m)])) := by
  funext k
  rw [h.after_redirection hlink, h.after_redirection hlink, Session.madeOn_append,
    Session.madeOn_append]
  by_cases hi : i = k <;> by_cases hj : j = k
  · subst hi hj
    simpa [madeOn] using redirected_swap (bank j) (madeOn j before) m n
  all_goals simp [madeOn, hi, hj]

end Conventional

theorem keepsLink_of_mem {a : Architecture} (ha : a ∈ wide ++ narrow)
    {roles : StackRegisters a.layout} (hroles : a.stack = some roles) : KeepsLink a roles := by
  simp only [wide, narrow, List.cons_append, List.nil_append, List.mem_cons, List.not_mem_nil,
    or_false] at ha
  obtain rfl | rfl | rfl | rfl | rfl | rfl := ha
  all_goals
    cases hroles
    exact ⟨by decide, by decide⟩

/-- **A redirection moves the two pointers and nothing else.** Each snapshot ends as it was but for
them: the stack pointer has the last value given to it, the instruction pointer the last value given
to it and the advances since. Every step is answered by the same rule from the steps before it, and
the frame pointer and return address are read as they were. Values given to the two pointers may be
given in either order. -/
theorem redirection_moves_pointers_only {a : Architecture} {width : Nat}
    (hword : a ∈ wide ∧ width = 8 ∨ a ∈ narrow ∧ width = 4) :
    ∃ roles, a.stack = some roles ∧ a.wordSize = width ∧ byteRange width = 2 ^ (8 * width) ∧
      ∀ (bank : Bank a) (steps : List (Index × RoleStep)),
        let final := bank.after (redirection a steps)
        let answers := Session.run bank (redirection a steps)
        (∀ i, final i = redirected roles (bank i) (madeOn i steps) ∧
          ∀ s, s ≠ a.instruction → s ≠ roles.sp → (final i).value s = (bank i).value s) ∧
        answers.length = steps.length ∧
        (∀ before i step after, steps = before ++ (i, step) :: after →
          answers[before.length]?
            = some (.replied (redirectionReply roles width (bank i) (madeOn i before) step)
                (redirected roles (bank i) (madeOn i before ++ [step])))) ∧
        ∀ i j m n,
          let one := redirection a (steps ++ [(i, .setIp m), (j, .setSp n)])
          let other := redirection a (steps ++ [(j, .setSp n), (i, .setIp m)])
          bank.after one = bank.after other ∧
            ∀ rest, (Session.run bank (one ++ rest)).drop one.length
              = (Session.run bank (other ++ rest)).drop other.length := by
  have hmem : a ∈ wide ++ narrow := by
    rcases hword with ⟨hwide, -⟩ | ⟨hnarrow, -⟩
    · exact List.mem_append_left _ hwide
    · exact List.mem_append_right _ hnarrow
  have hconventional : ∃ roles, Conventional a roles width := by
    rcases hword with ⟨hwide, rfl⟩ | ⟨hnarrow, rfl⟩
    · exact wide_conventional a hwide
    · exact narrow_conventional a hnarrow
  have hrange : byteRange width = 2 ^ (8 * width) := by
    rcases hword with ⟨-, rfl⟩ | ⟨-, rfl⟩
    · rfl
    · rfl
  obtain ⟨roles, h⟩ := hconventional
  have hlink := keepsLink_of_mem hmem h.described
  refine ⟨roles, h.described, h.ip_width, hrange, fun bank steps => ⟨?_, ?_, ?_, ?_⟩⟩
  · intro i
    have hfinal := h.after_redirection hlink bank steps i
    refine ⟨hfinal, fun s hip hsp => ?_⟩
    rw [hfinal]
    exact Conventional.value_placed_of_ne (bank i) _ _ hip hsp
  · rw [Session.run_length h.described, redirection, List.length_map]
  · rintro before i step after rfl
    exact h.run_redirection_at hlink bank before i step after
  · intro i j m n one other
    have hafter : bank.after one = bank.after other := h.after_swap hlink bank steps i j m n
    refine ⟨hafter, fun rest => ?_⟩
    -- whatever follows the pair starts from the same snapshots
    rw [Session.run_drop h.described, Session.run_drop h.described, hafter]

/-- An advance wraps, another snapshot is redirected in between, and a slot that no role names keeps
its value. -/
theorem redirection_moves_pointers_only_wrapping :
    let bank : Bank arm := fun _ =>
      (arm.resumeAt 3 0x100).write (Layout.arm.scalarSlot 12 (by decide) (by decide)) 7
    let steps : List (Index × RoleStep) :=
      [ (0, .setIp 0xfffffff0), (0, .advance 0x20), (1, .setSp 5), (0, .ip), (0, .setSp 8)
      , (0, .advance 1), (1, .sp) ]
    ∃ roles, arm.stack = some roles ∧
      bank.after (redirection arm steps) 0 = placed roles (bank 0) 0x100000011 8 ∧
      bank.after (redirection arm steps) 1 = placed roles (bank 1) 3 5 ∧
      (Session.run bank (redirection arm steps))[3]?
        = some (.replied (.word 0x10) (placed roles (bank 0) 0x100000010 0x100)) := by
  intro bank steps
  obtain ⟨roles, hroles, -, -, h⟩ :=
    redirection_moves_pointers_only (a := arm) (.inr ⟨by simp [narrow], rfl⟩)
  obtain ⟨hfinal, -, hanswers, -⟩ := h bank steps
  have hread := hanswers [(0, .setIp 0xfffffff0), (0, .advance 0x20), (1, .setSp 5)] 0 .ip
    [(0, .setSp 8), (0, .advance 1), (1, .sp)] rfl
  obtain rfl := Option.some.inj hroles
  have hip : RoleStep.ipAfter 3 [.setIp 0xfffffff0, .advance 0x20] % byteRange 4 = 0x10 := by
    decide +kernel
  exact ⟨_, rfl, (hfinal 0).1, (hfinal 1).1, hip ▸ hread⟩

end Architecture

end PlatformLayer
