import PlatformLayer.Proofs.CapabilityWords
import PlatformLayer.Proofs.Methods

/-!
# Ways of asking for a capability

A registry can be asked by capability and by bit value, and its published set can be masked, walked
and shown. Every way gives one answer. A bit value is looked up first: unless it is exactly the bit
of one capability it is refused, and what the registry holds is never consulted.
-/

namespace PlatformLayer

/-! ### Numbers in a refusal -/

namespace Hex

/-- A number in lowercase digits of base 16, none of them a needless zero. -/
structure Writes (digits : List Char) (n : Nat) : Prop where
  lower : ∀ d ∈ digits, '0' ≤ d ∧ d ≤ '9' ∨ 'a' ≤ d ∧ d ≤ 'f'
  value : readDigits? 0 digits = some n
  leading : digits.head? = some '0' → digits = ['0']

theorem readDigits?_concat (acc : Nat) (digits : List Char) (d : Char) :
    readDigits? acc (digits ++ [d])
      = (readDigits? acc digits).bind fun n => (digit? d).map (16 * n + ·) := by
  induction digits generalizing acc with
  | nil =>
      rw [List.nil_append, readDigits?, readDigits?, Option.bind_some]
      exact Option.map_eq_bind.symm
  | cons c digits ih =>
      rw [List.cons_append, readDigits?, readDigits?]
      cases digit? c with
      | none => rfl
      | some n => exact ih _

theorem digitChar_lower : ∀ d < 16,
    '0' ≤ Nat.digitChar d ∧ Nat.digitChar d ≤ '9' ∨ 'a' ≤ Nat.digitChar d ∧ Nat.digitChar d ≤ 'f' := by
  decide

theorem Writes.single {n : Nat} (hn : n < 16) : Writes [Nat.digitChar n] n where
  lower d hd := by
    rw [List.mem_singleton.mp hd]
    exact digitChar_lower n hn
  value := by
    rw [readDigits?, digit?_digitChar n hn, Option.bind_some, readDigits?, Nat.mul_zero,
      Nat.zero_add]
  leading hhead := by
    rw [List.head?_singleton] at hhead
    exact congrArg (fun d => [d]) (Option.some.inj hhead)

theorem Writes.concat {digits : List Char} {n : Nat} (h : Writes digits n) (hn : 0 < n) {d : Nat}
    (hd : d < 16) : Writes (digits ++ [Nat.digitChar d]) (16 * n + d) where
  lower c hc := by
    rcases List.mem_append.mp hc with hmem | hlast
    · exact h.lower c hmem
    · rw [List.mem_singleton.mp hlast]
      exact digitChar_lower d hd
  value := by
    rw [readDigits?_concat, h.value, Option.bind_some, digit?_digitChar d hd, Option.map_some]
  leading hhead := by
    have hvalue := h.value
    -- a leading zero would be all that was written so far, and that is more than zero
    have hzero : digits = ['0'] → False := by
      rintro rfl
      have hread : some 0 = some n := hvalue
      exact absurd (Option.some.inj hread) (Nat.ne_of_lt hn)
    cases digits with
    | nil => exact absurd (Option.some.inj hvalue) (Nat.ne_of_lt hn)
    | cons c digits => exact absurd (h.leading hhead) hzero

theorem writes_toDigits (n : Nat) : Writes (Nat.toDigits 16 n) n := by
  induction n using Nat.strongRecOn with
  | ind n ih =>
      by_cases hsmall : n < 16
      · rw [Nat.toDigits_of_lt_base hsmall]
        exact Writes.single hsmall
      · have hdigits : Nat.toDigits 16 n
            = Nat.toDigits 16 (n / 16) ++ [Nat.digitChar (n % 16)] := by
          rw [Nat.toDigits_eq_if (by decide), if_neg hsmall]
        have hconcat := (ih (n / 16) (by omega)).concat (d := n % 16) (by omega) (by omega)
        rwa [← hdigits, Nat.div_add_mod] at hconcat

theorem ofNat_eq (n : Nat) : ofNat n = "0x" ++ String.ofList (Nat.toDigits 16 n) := by
  have hmark : "0x" = String.ofList ['0', 'x'] := by decide +kernel
  rw [hmark, ← String.ofList_append]
  rfl

end Hex

theorem Halt.unknownCapability_message (b : UInt32) :
    (Halt.unknownCapability b).message
      = "portability assert: unknown capability 0x" ++ String.ofList (Nat.toDigits 16 b.toNat) := by
  have hopening : "portability assert: unknown capability 0x"
      = "portability assert: " ++ ("unknown capability " ++ "0x") := by decide +kernel
  calc (Halt.unknownCapability b).message
    _ = "portability assert: " ++ ("unknown capability " ++ Hex.ofNat b.toNat) := rfl
    _ = "portability assert: " ++ ("unknown capability " ++ "0x")
          ++ String.ofList (Nat.toDigits 16 b.toNat) := by
      rw [Hex.ofNat_eq, String.append_assoc, String.append_assoc]
    _ = _ := by rw [hopening]

/-! ### The ways agree -/

namespace Registry

variable {σ : Type} (cell : Cell σ Registry) (w : World σ) (b : UInt32)

theorem isReady_iff_snapshot :
    (isReady cell w).outcome = .returned true ↔
      ∃ s, (snapshot cell w).outcome = .returned (some s) := by
  rw [isReady_apply, snapshot_apply]
  cases (cell.get w.state).published with
  | none => simp
  | some s => simp

variable {cell w}

theorem published_of_snapshot {s : CapabilitySet}
    (hsnapshot : (snapshot cell w).outcome = .returned (some s)) :
    (cell.get w.state).published = some s :=
  Outcome.returned.inj hsnapshot

theorem unpublished_of_not_ready (hready : (isReady cell w).outcome ≠ .returned true) :
    (cell.get w.state).published = none := by
  by_contra hsome
  obtain ⟨s, hs⟩ := Option.ne_none_iff_exists'.mp hsome
  apply hready
  rw [isReady_apply, hs]
  rfl

/-- An answer by bit value is an answer by capability. -/
theorem hasBits_returns_iff :
    (∃ answer, (hasBits cell b w).outcome = .returned answer) ↔
      (isReady cell w).outcome = .returned true ∧ ∃ c : Capability, c.bits = b := by
  constructor
  · rintro ⟨answer, houtcome⟩
    cases hknown : Capability.ofBits? b with
    | none =>
        rw [hasBits_of_unknown hknown] at houtcome
        cases houtcome
    | some c =>
        refine ⟨?_, c, (Capability.ofBits?_eq_some_iff.mp hknown).symm⟩
        by_contra hready
        have hnone := unpublished_of_not_ready hready
        rw [hasBits_of_known hknown, has_of_unpublished hnone] at houtcome
        cases houtcome
  · rintro ⟨hready, c, rfl⟩
    obtain ⟨s, hsnapshot⟩ := (isReady_iff_snapshot cell w).mp hready
    rw [hasBits_of_known (Capability.ofBits?_bits c),
      has_of_published (published_of_snapshot hsnapshot)]
    exact ⟨_, rfl⟩

variable (cell w)

/-- **All ways of asking agree.** A bit value is answered exactly when the registry has published and
the value is one capability's bit. The answer is the one given for that capability, and what masking,
walking and showing the published set tell. Any other value is refused before the registry is looked
at. -/
theorem queries_agree :
    ((∃ answer, (hasBits cell b w).outcome = .returned answer) ↔
      (isReady cell w).outcome = .returned true ∧ ∃ c : Capability, c.bits = b) ∧
    ((isReady cell w).outcome = .returned true ↔
      ∃ s, (snapshot cell w).outcome = .returned (some s)) ∧
    (∀ c : Capability, c.bits = b →
      Capability.ofBits? b = some c ∧ (∀ d : Capability, d.bits = b → d = c) ∧
      hasBits cell b w = has cell c w ∧
      (∀ s, (snapshot cell w).outcome = .returned (some s) →
        ∃ answer, hasBits cell b w = ⟨.returned answer, w, []⟩ ∧
          s.contains c = answer ∧ decide (c ∈ s.toList) = answer ∧
          decide (c.name ∈ s.shownNames) = answer ∧ (s.bits &&& b != 0) = answer) ∧
      ((isReady cell w).outcome ≠ .returned true →
        hasBits cell b w = ⟨.halted (.queriedTooEarly c), w,
          [⟨.event (.logged (.halting (.queriedTooEarly c))), w.state⟩]⟩)) ∧
    ((∀ c : Capability, c.bits ≠ b) →
      hasBits cell b w = ⟨.halted (.unknownCapability b), w,
        [⟨.event (.logged (.halting (.unknownCapability b))), w.state⟩]⟩ ∧
      ∃ digits, (Halt.unknownCapability b).message
          = "portability assert: unknown capability 0x" ++ String.ofList digits ∧
        Hex.Writes digits b.toNat) := by
  refine ⟨hasBits_returns_iff b, isReady_iff_snapshot cell w, ?_, ?_⟩
  · rintro c rfl
    have hknown : Capability.ofBits? c.bits = some c := Capability.ofBits?_bits c
    have hsame : hasBits cell c.bits = has cell c := hasBits_of_known hknown
    refine ⟨hknown, fun d => Capability.bits_inj.mp, congrFun hsame w, ?_, ?_⟩
    · intro s hsnapshot
      refine ⟨s.contains c, ?_, rfl, ?_, ?_, rfl⟩
      · rw [hsame, has_of_published (published_of_snapshot hsnapshot)]
      · rw [Bool.eq_iff_iff, decide_eq_true_iff, s.mem_toList_iff]
      · rw [Bool.eq_iff_iff, decide_eq_true_iff, s.name_mem_shownNames_iff]
    · intro hready
      rw [hsame, has_of_unpublished (unpublished_of_not_ready hready)]
      rfl
  · intro hother
    have hunknown : Capability.ofBits? b = none := by
      refine Option.eq_none_iff_forall_ne_some.mpr fun c hsome => ?_
      exact hother c (Capability.ofBits?_eq_some_iff.mp hsome).symm
    exact ⟨hasBits_of_unknown hunknown w, _, Halt.unknownCapability_message b,
      Hex.writes_toDigits b.toNat⟩

/-- Two published bits: each is answered, and both at once are refused although the mask finds them.
-/
theorem queries_agree_two_bits :
    let cell : Cell Registry Registry := ⟨id, fun r _ => r⟩
    let w : World Registry := ⟨⟨0, .ready ⟨5⟩⟩, [], 0⟩
    (hasBits cell 4 w).outcome = .returned true ∧
      (hasBits cell 5 w).outcome = .halted (.unknownCapability 5) := by
  intro cell w
  obtain ⟨-, -, hknown, -⟩ := queries_agree cell w 4
  obtain ⟨-, -, -, hunknown⟩ := queries_agree cell w 5
  obtain ⟨-, -, -, hanswer, -⟩ := hknown .currentProcessorNumber rfl
  obtain ⟨answer, hreport, hcontains, -⟩ := hanswer ⟨5⟩ rfl
  obtain ⟨hhalted, -⟩ := hunknown (by intro c; cases c <;> decide)
  have htrue : answer = true := hcontains.symm.trans (by decide)
  exact ⟨by rw [hreport, htrue], by rw [hhalted]⟩

end Registry

end PlatformLayer
