import PlatformLayer.Proofs.GeneralRegisters
import PlatformLayer.Proofs.MemoryAccess

/-!
# The machine that nothing is known about

A snapshot of the fallback machine is one stored word. Whatever is done to such snapshots is done to
words, however the word is reached: by its role, by its field or as eight bytes of memory. An
operation that needs any other register ends the session there and then. On a described machine
every operation is answered.
-/

namespace PlatformLayer

open Session (Index Bank)

/-- The register that an operation needs besides the instruction pointer, and what it is needed for.
-/
def Session.Operation.needs {a : Architecture} : Session.Operation a → Option RegisterAccess
  | .get .sp => some .getSp
  | .get .fp => some .getFp
  | .get .lr => some .getLr
  | .set .sp _ => some .setSp
  | _ => none

/-! ### Snapshots that are words -/

namespace Fallback

open Architecture (unsupported)

abbrev Snapshot := unsupported.Snapshot

abbrev Operation := Session.Operation unsupported

def word (c : Snapshot) : UInt64 := c.value unsupported.instruction

def ofWord (w : UInt64) : Snapshot := (Context.zero : Snapshot).store unsupported.instruction w

theorem slots_eq : unsupported.layout.slots = [unsupported.instruction] := rfl

theorem slot_eq (s : unsupported.layout.Slot) : s = unsupported.instruction := by
  have hmem := Layout.mem_slots s
  rw [slots_eq] at hmem
  exact List.mem_singleton.mp hmem

theorem snapshot_ext {c d : Snapshot} (h : word c = word d) : c = d := by
  ext s
  obtain rfl := slot_eq s
  exact h

theorem word_ofWord (w : UInt64) : word (ofWord w) = w :=
  Context.store_value_self _ _ _

theorem ofWord_word (c : Snapshot) : ofWord (word c) = c :=
  snapshot_ext (word_ofWord _)

theorem eq_ofWord {c : Snapshot} {w : UInt64} (h : word c = w) : c = ofWord w :=
  snapshot_ext (h.trans (word_ofWord w).symm)

theorem write_eq (c : Snapshot) (s : unsupported.layout.Slot) (n : Nat) :
    c.write s n = ofWord (.ofNat n) := by
  apply eq_ofWord
  obtain rfl := slot_eq s
  exact Context.store_value_self _ _ _

theorem read_eq (c : Snapshot) (s : unsupported.layout.Slot) : c.read s = (word c).toNat := by
  obtain rfl := slot_eq s
  rfl

theorem advance_eq (c : Snapshot) (n : Nat) :
    Architecture.advance c n = ofWord (word c + .ofNat n) := by
  have hsum : UInt64.ofNat ((word c).toNat + n) = word c + .ofNat n := by
    rw [UInt64.ofNat_add, UInt64.ofNat_toNat]
  rw [Architecture.advance, Architecture.setIp, write_eq, Architecture.ip, read_eq, hsum]

theorem zero_eq : (Context.zero : Snapshot) = ofWord 0 :=
  eq_ofWord rfl

/-- The word takes up all of the memory. -/
theorem stretch_word {m : List UInt8} (hm : m.length = 8) :
    stretch m unsupported.instruction.offset unsupported.instruction.width = m := by
  apply List.take_of_length_le
  rw [List.length_drop, hm]
  exact Nat.sub_le 8 _

theorem memory_eq (c : Snapshot) : c.memory = leBytes 8 (word c).toNat := by
  rw [← stretch_word c.memory_length]
  exact c.stretch_memory unsupported.instruction

theorem ofMemory_eq {m : List UInt8} (hm : m.length = 8) :
    (Context.ofMemory m : Snapshot) = ofWord (.ofNat (ofLeBytes m)) := by
  apply eq_ofWord
  calc word (Context.ofMemory m)
    _ = .ofNat (ofLeBytes (stretch m unsupported.instruction.offset
          unsupported.instruction.width)) :=
      Context.value_ofMemory hm unsupported.instruction
    _ = .ofNat (ofLeBytes m) := by rw [stretch_word hm]

/-! ### Operations on words -/

/-- What an operation does to word `i`: its reply and the word it leaves. Operations that need
another register are none of a word's. -/
def step? (words : Index → UInt64) (i : Index) : Operation → Option (Session.Reply × UInt64)
  | .reset => some (.done, 0)
  | .resumeAt ip _ => some (.done, .ofNat ip)
  | .get .ip => some (.word (words i).toNat, words i)
  | .set .ip n => some (.done, .ofNat n)
  | .set .fp _ => some (.absent, words i)
  | .set .lr _ => some (.absent, words i)
  | .advance n => some (.done, words i + .ofNat n)
  | .write _ n => some (.done, .ofNat n)
  | .read _ => some (.word (words i).toNat, words i)
  | .poke start bytes =>
    if start + bytes.length ≤ 8 then
      some (.done, .ofNat (ofLeBytes (splice (leBytes 8 (words i).toNat) start bytes)))
    else some (.outOfBounds, words i)
  | .dump => some (.memory (leBytes 8 (words i).toNat), words i)
  | .copy source => some (.done, words source)
  | .equal other => some (.flag (words i == words other), words i)
  | .print =>
    some (.text (Text.record "UnsupportedContext" [("ip", toString (words i).toNat)]), words i)
  | .printSpread =>
    some (.text (Text.lines (Text.spreadRecord "UnsupportedContext"
      [("ip", [toString (words i).toNat])])), words i)
  | .get _ => none
  | .set .sp _ => none

def put (words : Index → UInt64) (i : Index) (w : UInt64) : Index → UInt64 :=
  fun j => if j = i then w else words j

/-- The replies to operations on words, each with the word it leaves. -/
def run (words : Index → UInt64) : List (Index × Operation) → List (Session.Reply × UInt64)
  | [] => []
  | (i, op) :: rest =>
    match step? words i op with
    | some (reply, w) => (reply, w) :: run (put words i w) rest
    | none => []

/-! ### The machine refines the words -/

variable (bank : Bank unsupported) (i : Index) {op : Operation} {start : Nat} {bytes : List UInt8}

theorem apply_poke_of_fits (hfits : start + bytes.length ≤ 8) :
    Session.apply bank i (.poke start bytes) = .ok (.done,
      ofWord (.ofNat (ofLeBytes (splice (leBytes 8 (word (bank i)).toNat) start bytes)))) := by
  have hpoke := (bank i).poke?_of_fits hfits
  have hlength := (bank i).spliced_length hfits
  rw [ofMemory_eq hlength, memory_eq] at hpoke
  rw [Session.apply, hpoke]

theorem apply_poke_of_not_fits (hlong : ¬ start + bytes.length ≤ 8) :
    Session.apply bank i (.poke start bytes) = .ok (.outOfBounds, bank i) := by
  have hpoke := (bank i).poke?_of_not_fits (Nat.lt_of_not_le hlong)
  rw [Session.apply, hpoke]

theorem decide_eq_iff (c d : Snapshot) : decide (c = d) = (word c == word d) := by
  rw [Bool.eq_iff_iff, decide_eq_true_iff, beq_iff_eq]
  exact ⟨congrArg word, snapshot_ext⟩

/-- An operation that needs no other register works on the words. -/
theorem apply_of_plain (hplain : op.needs = none) :
    ∃ reply w, step? (fun j => word (bank j)) i op = some (reply, w) ∧
      Session.apply bank i op = .ok (reply, ofWord w) := by
  have hsame : ofWord (word (bank i)) = bank i := ofWord_word (bank i)
  cases op with
  | reset => exact ⟨_, _, rfl, by rw [← zero_eq]; rfl⟩
  | resumeAt ip sp =>
      exact ⟨_, _, rfl, by rw [← write_eq Context.zero unsupported.instruction]; rfl⟩
  | get r =>
      cases r with
      | ip => exact ⟨_, _, rfl, by rw [hsame]; rfl⟩
      | sp => cases hplain
      | fp => cases hplain
      | lr => cases hplain
  | set r n =>
      cases r with
      | ip => exact ⟨_, _, rfl, by rw [← write_eq (bank i) unsupported.instruction]; rfl⟩
      | sp => cases hplain
      | fp => exact ⟨_, _, rfl, by rw [hsame]; rfl⟩
      | lr => exact ⟨_, _, rfl, by rw [hsame]; rfl⟩
  | advance n => exact ⟨_, _, rfl, by rw [← advance_eq]; rfl⟩
  | write s n => exact ⟨_, _, rfl, by rw [← write_eq (bank i) s]; rfl⟩
  | read s => exact ⟨_, _, rfl, by rw [hsame, ← read_eq _ s]; rfl⟩
  | poke start bytes =>
      -- bytes that do not fit are refused as a whole and leave the word alone
      by_cases hfits : start + bytes.length ≤ 8
      · exact ⟨_, _, if_pos hfits, apply_poke_of_fits bank i hfits⟩
      · exact ⟨_, _, if_neg hfits, by rw [hsame, apply_poke_of_not_fits bank i hfits]⟩
  | dump => exact ⟨_, _, rfl, by rw [hsame, ← memory_eq]; rfl⟩
  | copy source => exact ⟨_, _, rfl, by rw [ofWord_word]; rfl⟩
  | equal other => exact ⟨_, _, rfl, by rw [hsame, ← decide_eq_iff]; rfl⟩
  | print => exact ⟨_, _, rfl, by rw [hsame]; rfl⟩
  | printSpread => exact ⟨_, _, rfl, by rw [hsame]; rfl⟩

/-- An operation that needs another register is refused. -/
theorem apply_of_needs {access : RegisterAccess} (hneeds : op.needs = some access) :
    Session.apply bank i op = .error (.unimplemented access) := by
  match op, hneeds with
  | .get .sp, rfl => rfl
  | .get .fp, rfl => rfl
  | .get .lr, rfl => rfl
  | .set .sp _, rfl => rfl

theorem put_word (bank : Bank unsupported) (i : Index) (w : UInt64) :
    (fun j => word (bank.put i (ofWord w) j)) = put (fun j => word (bank j)) i w := by
  funext j
  rw [Session.Bank.put, put, apply_ite word, word_ofWord]

/-- The answer to an operation that needs a register the machine does not have. -/
def refusal (access : RegisterAccess) : Session.Answer unsupported :=
  .halted [.halting (.unimplemented access)] (.unimplemented access)

def answer (result : Session.Reply × UInt64) : Session.Answer unsupported :=
  .replied result.1 (ofWord result.2)

theorem run_eq (bank : Bank unsupported) (ops : List (Index × Operation)) :
    let results := run (fun j => word (bank j)) (ops.takeWhile fun x => x.2.needs.isNone)
    Session.run bank ops
        = results.map answer ++ (ops.findSome? fun x => x.2.needs).toList.map refusal ∧
      results.length = (ops.takeWhile fun x => x.2.needs.isNone).length := by
  induction ops generalizing bank with
  | nil => exact ⟨rfl, rfl⟩
  | cons x rest ih =>
      obtain ⟨i, op⟩ := x
      cases hneeds : op.needs with
      | some access =>
          -- the session ends here on both sides, whatever is left of it
          simp [Session.run, apply_of_needs bank i hneeds, hneeds, run, refusal]
      | none =>
          obtain ⟨reply, w, hword, hmachine⟩ := apply_of_plain bank i hneeds
          obtain ⟨hrun, hlength⟩ := ih (bank.put i (ofWord w))
          rw [put_word] at hrun hlength
          simp [Session.run, hmachine, hrun, hneeds, run, hword, hlength, answer]

end Fallback

/-! ### Described machines -/

namespace Architecture

variable {a : Architecture} {roles : StackRegisters a.layout}

/-- A described machine answers every operation. -/
theorem apply_described (hroles : a.stack = some roles) (bank : Bank a) (i : Index)
    (op : Session.Operation a) : ∃ reply c, Session.apply bank i op = .ok (reply, c) := by
  cases op with
  | get r =>
      cases r <;> simp [Session.apply, Session.getRegister, sp, fp, lr, hroles, Except.map]
  | set r n =>
      cases r <;> simp [Session.apply, Session.setRegister, setSp, hroles, Except.map]
  | poke start bytes =>
      rw [Session.apply]
      cases (bank i).poke? start bytes with
      | some c => exact ⟨_, _, rfl⟩
      | none => exact ⟨_, _, rfl⟩
  | _ => exact ⟨_, _, rfl⟩

theorem run_described (hroles : a.stack = some roles) (bank : Bank a)
    (ops : List (Index × Session.Operation a)) :
    ∃ results : List (Session.Reply × a.Snapshot),
      Session.run bank ops = results.map (fun x => .replied x.1 x.2) ∧
      results.length = ops.length := by
  induction ops generalizing bank with
  | nil => exact ⟨[], rfl, rfl⟩
  | cons x rest ih =>
      obtain ⟨i, op⟩ := x
      obtain ⟨reply, c, happly⟩ := apply_described hroles bank i op
      obtain ⟨results, hrun, hlength⟩ := ih (bank.put i c)
      refine ⟨(reply, c) :: results, ?_, congrArg (· + 1) hlength⟩
      rw [Session.run, happly]
      exact congrArg (List.cons _) hrun

theorem described_of_mem {a : Architecture} (ha : a ∈ wide ++ narrow) :
    ∃ roles, a.stack = some roles := by
  rcases List.mem_append.mp ha with hwide | hnarrow
  · obtain ⟨roles, h⟩ := wide_conventional a hwide
    exact ⟨roles, h.described⟩
  · obtain ⟨roles, h⟩ := narrow_conventional a hnarrow
    exact ⟨roles, h.described⟩

end Architecture

/-- **The fallback machine never makes up a register.** Its snapshots are words. Operations are
answered as operations on words are, up to the first that needs another register; there the session
ends with a logged halt that names the access. Sessions of described machines never halt. -/
theorem Fallback.never_makes_up_register :
    (∀ c : Snapshot, ofWord (word c) = c ∧ Architecture.ip c = (word c).toNat) ∧
    (∀ (bank : Bank .unsupported) (ops : List (Index × Operation)),
      let plain := ops.takeWhile fun x => x.2.needs.isNone
      let results := run (fun j => word (bank j)) plain
      Session.run bank ops
          = results.map answer ++ (ops.findSome? fun x => x.2.needs).toList.map refusal ∧
        results.length = plain.length) ∧
    (∀ access, ∃ h : Halt, refusal access = .halted [.halting h] h ∧
      (Notice.halting h).level = .error ∧ (Notice.halting h).text = h.message ∧
      h.message = "portability assert: " ++ access.name) ∧
    [RegisterAccess.getSp, .getFp, .getLr, .setSp].map RegisterAccess.name
      = ["GetSp", "GetFp", "GetLr", "SetSp"] ∧
    ∀ a ∈ Architecture.wide ++ Architecture.narrow, ∀ (bank : Bank a)
      (ops : List (Index × Session.Operation a)), ∃ results : List (Session.Reply × a.Snapshot),
        Session.run bank ops = results.map (fun x => .replied x.1 x.2) ∧
        results.length = ops.length := by
  refine ⟨fun c => ⟨ofWord_word c, read_eq c _⟩, run_eq,
    fun access => ⟨.unimplemented access, rfl, rfl, rfl, rfl⟩, rfl, fun a ha => ?_⟩
  obtain ⟨roles, hroles⟩ := Architecture.described_of_mem ha
  exact Architecture.run_described hroles

/-- The top byte of a copied word is overwritten and the word then wraps; asking it for the stack
pointer ends the session, which a described machine answers. -/
theorem Fallback.never_makes_up_register_after_poke :
    Session.run (Bank.initial .unsupported)
        [ (0, .set .ip 5), (1, .copy 0), (1, .poke 7 [0xff]), (1, .advance 0x0100000000000000)
        , (1, .equal 0), (1, .get .sp), (0, .get .ip) ]
      = [ .replied .done (ofWord 5), .replied .done (ofWord 5)
        , .replied .done (ofWord 0xff00000000000005), .replied .done (ofWord 5)
        , .replied (.flag true) (ofWord 5), refusal .getSp ] ∧
    ∃ results : List (Session.Reply × Architecture.arm.Snapshot),
      Session.run (Bank.initial .arm) [(0, .get .sp), (0, .set .sp 4), (0, .get .lr)]
        = results.map (fun x => .replied x.1 x.2) ∧
      results.length = 3 := by
  constructor
  · refine (never_makes_up_register.2.1 _ _).1.trans ?_
    have hresults : run (fun j => word (Bank.initial .unsupported j))
        [ (0, .set .ip 5), (1, .copy 0), (1, .poke 7 [0xff]), (1, .advance 0x0100000000000000)
        , (1, .equal 0) ]
        = [ (.done, 5), (.done, 5), (.done, 0xff00000000000005), (.done, 5), (.flag true, 5)] := by
      decide +kernel
    exact congrArg (fun results => results.map answer ++ [refusal .getSp]) hresults
  · exact never_makes_up_register.2.2.2.2 _ (by simp [Architecture.narrow]) _ _

end PlatformLayer
