import PlatformLayer.Proofs.CapabilityWords
import Mathlib.Algebra.Ring.Nat
import Mathlib.Data.List.Sort

/-!
# Walking the bits of a word

A set is walked by pulling bit indexes from an iterator over its word and looking each bit up. Of the
iterator only this is asked: that it yields the indexes of the set bits, once each and lowest first,
and then ends. Whatever else is in the word, the walk then ends as well, passes over the bits that
mean nothing, and comes upon the capabilities that a mask finds.
-/

namespace PlatformLayer

/-! ### The set bits of a word -/

namespace CapabilitySet

variable {w : UInt32} {i : Nat}

theorem lt_of_testBit (hbit : w.toNat.testBit i = true) : i < 32 := by
  by_contra hi
  have hpow : 2 ^ 32 ≤ 2 ^ i := Nat.pow_le_pow_right (by decide) (Nat.le_of_not_lt hi)
  rw [Nat.testBit_lt_two_pow (Nat.lt_of_lt_of_le w.toNat_lt hpow)] at hbit
  exact Bool.false_ne_true hbit

theorem mem_bitIndexes : i ∈ bitIndexes w ↔ w.toNat.testBit i = true := by
  rw [bitIndexes, List.mem_filter, List.mem_range]
  exact and_iff_right_of_imp lt_of_testBit

theorem bitIndexes_pairwise (w : UInt32) : (bitIndexes w).Pairwise (· < ·) :=
  List.pairwise_lt_range.filter _

theorem bitIndexes_length_le (w : UInt32) : (bitIndexes w).length ≤ 32 :=
  (List.length_filter_le _ _).trans_eq List.length_range

/-- Order and members leave no choice. -/
theorem eq_bitIndexes {indexes : List Nat} (hascending : indexes.Pairwise (· < ·))
    (hmem : ∀ i, i ∈ indexes ↔ w.toNat.testBit i = true) : indexes = bitIndexes w := by
  apply hascending.eq_of_mem_iff (bitIndexes_pairwise w)
  intro i
  rw [hmem, mem_bitIndexes]

end CapabilitySet

/-! ### Iterators over bits -/

namespace BitScan

open CapabilitySet

variable {σ : Type} {next : σ → Option (Nat × σ)}

/-- Pulled from `start` on, the iterator gives these numbers and then ends. -/
inductive Yields (next : σ → Option (Nat × σ)) : (start : σ) → List Nat → Prop
  | ended {start : σ} (hnext : next start = none) : Yields next start []
  | pulled {start later : σ} {i : Nat} {rest : List Nat} (hnext : next start = some (i, later))
      (hrest : Yields next later rest) : Yields next start (i :: rest)

/-- What is asked of an iterator over the bits of `w`. -/
structure Scans (next : σ → Option (Nat × σ)) (start : σ) (w : UInt32) (indexes : List Nat) :
    Prop where
  yields : Yields next start indexes
  ascending : indexes.Pairwise (· < ·)
  mem_iff : ∀ i, i ∈ indexes ↔ w.toNat.testBit i = true

/-- Takes the lowest set bit off a word. -/
def strip (w : UInt32) : Option (Nat × UInt32) :=
  ((List.range 32).find? fun i => w.toNat.testBit i).map fun i => (i, w ^^^ 1 <<< UInt32.ofNat i)

theorem strip_eq (w : UInt32) :
    strip w = (bitIndexes w).head?.map fun i => (i, w ^^^ 1 <<< UInt32.ofNat i) := by
  rw [strip, bitIndexes, List.head?_filter]

theorem bitIndexes_stripped {w : UInt32} {i : Nat} {rest : List Nat}
    (hindexes : bitIndexes w = i :: rest) : bitIndexes (w ^^^ 1 <<< UInt32.ofNat i) = rest := by
  have hascending := bitIndexes_pairwise w
  rw [hindexes, List.pairwise_cons] at hascending
  have hi : i < 32 := by
    apply lt_of_testBit (w := w)
    rw [← mem_bitIndexes, hindexes]
    exact List.mem_cons_self
  symm
  -- what is left is still in order, so only its members have to be compared
  apply eq_bitIndexes hascending.2
  intro j
  have hword : w.toNat.testBit j = true ↔ j = i ∨ j ∈ rest := by
    rw [← mem_bitIndexes, hindexes, List.mem_cons]
  rw [UInt32.toNat_xor, toNat_one_shiftLeft hi, Nat.testBit_xor, Nat.testBit_two_pow]
  by_cases heq : i = j
  · subst heq
    have hout : i ∉ rest := fun hmem => Nat.lt_irrefl i (hascending.1 i hmem)
    rw [hword.mpr (Or.inl rfl)]
    simpa using hout
  · rw [decide_eq_false heq, Bool.xor_false, hword]
    exact (or_iff_right (Ne.symm heq)).symm

theorem yields_strip {indexes : List Nat} {w : UInt32} (hindexes : bitIndexes w = indexes) :
    Yields strip w indexes := by
  induction indexes generalizing w with
  | nil =>
      apply Yields.ended
      rw [strip_eq, hindexes]
      rfl
  | cons i rest ih =>
      refine Yields.pulled ?_ (ih (bitIndexes_stripped hindexes))
      rw [strip_eq, hindexes]
      rfl

theorem scans_strip (w : UInt32) : Scans strip w w (bitIndexes w) :=
  ⟨yields_strip rfl, bitIndexes_pairwise w, fun _ => mem_bitIndexes⟩

end BitScan

/-! ### The walk -/

/-- The capability whose bit has index `i`, if there is one. -/
def Capability.atBit? (i : Nat) : Option Capability := ofBits? (1 <<< UInt32.ofNat i)

namespace CapabilitySet

open BitScan

variable {σ : Type}

/-- The capabilities that come up when indexes are pulled from `start` on, if the iterator ends
within `pulls` of them. -/
def walk (next : σ → Option (Nat × σ)) : (pulls : Nat) → (start : σ) → Option (List Capability)
  | 0, _ => none
  | pulls + 1, start =>
    match next start with
    | none => some []
    | some (i, later) =>
      match Capability.atBit? i with
      | some c => (walk next pulls later).map (c :: ·)
      | none => walk next pulls later

variable {next : σ → Option (Nat × σ)}

/-- The walk ends with the iterator, one pull after its last index. -/
theorem walk_of_yields {start : σ} {indexes : List Nat} (hyields : Yields next start indexes)
    (pulls : Nat) :
    walk next pulls start =
      if indexes.length < pulls then some (indexes.filterMap Capability.atBit?) else none := by
  induction hyields generalizing pulls with
  | ended hnext =>
      cases pulls with
      | zero => rfl
      | succ pulls =>
          rw [walk, hnext]
          rfl
  | @pulled start later i rest hnext _ ih =>
      cases pulls with
      | zero => rfl
      | succ pulls =>
          have hlength : (i :: rest).length < pulls + 1 ↔ rest.length < pulls := by
            rw [List.length_cons, Nat.succ_lt_succ_iff]
          rw [walk, hnext, if_congr hlength rfl rfl]
          -- a bit that means nothing costs a pull and adds nothing to the list
          cases hfound : Capability.atBit? i with
          | none => simp only [hfound, ih, List.filterMap_cons_none hfound]
          | some c =>
              simp only [hfound, ih, List.filterMap_cons_some hfound]
              split <;> rfl

theorem walk_of_scans {start : σ} {w : UInt32} {indexes : List Nat}
    (hscans : Scans next start w indexes) (pulls : Nat) :
    walk next pulls start = if indexes.length < pulls then some (toList ⟨w⟩) else none := by
  rw [walk_of_yields hscans.yields, eq_bitIndexes hscans.ascending hscans.mem_iff]
  rfl

end CapabilitySet

/-! ### The bits collected -/

namespace Capability

theorem testBit_bits (c : Capability) (i : Nat) : c.bits.toNat.testBit i = true ↔ c.place = i := by
  rw [c.bits_eq_shift, CapabilitySet.toNat_one_shiftLeft c.place_lt, Nat.testBit_two_pow,
    decide_eq_true_iff]

theorem place_inj {c d : Capability} : c.place = d.place ↔ c = d := by
  rw [← testBit_bits, testBit_place, decide_eq_true_iff]

/-- The mask has the bits of the capabilities and no others. -/
theorem testBit_mask (i : Nat) :
    (0x7 : UInt32).toNat.testBit i = true ↔ ∃ c : Capability, c.place = i := by
  have hseven : (0x7 : UInt32).toNat = 2 ^ 3 - 1 := rfl
  rw [hseven, Nat.testBit_two_pow_sub_one, decide_eq_true_iff]
  constructor
  · intro hi
    match i with
    | 0 => exact ⟨writeWatch, rfl⟩
    | 1 => exact ⟨lowMemoryNotification, rfl⟩
    | 2 => exact ⟨currentProcessorNumber, rfl⟩
  · rintro ⟨c, rfl⟩
    cases c <;> decide

end Capability

namespace CapabilitySet

theorem testBit_foldl_insert (s : CapabilitySet) (cs : List Capability) (i : Nat) :
    (cs.foldl insert s).bits.toNat.testBit i = true ↔
      s.bits.toNat.testBit i = true ∨ ∃ c ∈ cs, c.place = i := by
  induction cs generalizing s with
  | nil => simp
  | cons c cs ih =>
      rw [List.foldl_cons, ih, insert, UInt32.toNat_or, Nat.testBit_or, Bool.or_eq_true,
        Capability.testBit_bits, or_assoc, List.exists_mem_cons_iff]

theorem testBit_ofList (cs : List Capability) (i : Nat) :
    (ofList cs).bits.toNat.testBit i = true ↔ ∃ c ∈ cs, c.place = i := by
  rw [ofList, testBit_foldl_insert]
  apply or_iff_right
  simp [empty]

theorem contains_ofList {cs : List Capability} {c : Capability} :
    (ofList cs).contains c = true ↔ c ∈ cs := by
  rw [contains_eq_testBit_place, testBit_ofList]
  constructor
  · rintro ⟨d, hd, hplace⟩
    exact Capability.place_inj.mp hplace ▸ hd
  · intro hc
    exact ⟨c, hc, rfl⟩

variable (s : CapabilitySet)

/-- Collecting the members of a word keeps its known bits and drops the others. -/
theorem bits_ofList_toList : (ofList s.toList).bits = s.bits &&& 0x7 := by
  apply UInt32.toNat_inj.mp
  apply Nat.eq_of_testBit_eq
  intro i
  rw [Bool.eq_iff_iff, testBit_ofList, UInt32.toNat_and, Nat.testBit_and, Bool.and_eq_true,
    Capability.testBit_mask]
  constructor
  · rintro ⟨c, hc, rfl⟩
    rw [mem_toList_iff, contains_eq_testBit_place] at hc
    exact ⟨hc, c, rfl⟩
  · rintro ⟨hbit, c, rfl⟩
    refine ⟨c, ?_, rfl⟩
    rw [mem_toList_iff, contains_eq_testBit_place, hbit]

theorem toList_pairwise : s.toList.Pairwise fun c d => c.bits < d.bits := by
  have hall : Capability.all.Pairwise fun c d => c.bits < d.bits := by decide
  rw [toList_eq_filter]
  exact hall.filter _

theorem toList_nodup : s.toList.Nodup := by
  apply s.toList_pairwise.imp
  rintro c d hlt rfl
  exact UInt32.lt_irrefl c.bits hlt

theorem toList_congr {s t : CapabilitySet} (h : ∀ c, s.contains c = true ↔ t.contains c = true) :
    s.toList = t.toList := by
  rw [toList_eq_filter, toList_eq_filter]
  apply List.filter_congr
  intro c _
  exact Bool.eq_iff_iff.mpr (h c)

theorem toList_ofList_toList : (ofList s.toList).toList = s.toList := by
  apply toList_congr
  intro c
  rw [contains_ofList, mem_toList_iff]

/-- **A walk over any word is exact.** Whichever iterator yields the set bits, the walk ends with it,
within 33 pulls. No bit that is looked up has been shifted out of the word. The capabilities come up
once each in the order of their bits, and are those that the mask finds. -/
theorem walk_exact {σ : Type} (next : σ → Option (Nat × σ)) (start : σ) (w : UInt32)
    (indexes : List Nat) (hscans : BitScan.Scans next start w indexes) :
    (indexes.length ≤ 32 ∧ ∀ pulls, walk next pulls start =
      if indexes.length < pulls then some (toList ⟨w⟩) else none) ∧
    (∀ i ∈ indexes, i < 32 ∧ (1 <<< UInt32.ofNat i : UInt32).toNat = 2 ^ i) ∧
    (∀ c, c ∈ toList ⟨w⟩ ↔ w &&& c.bits ≠ 0) ∧
    (toList ⟨w⟩).Nodup ∧ (toList ⟨w⟩).Pairwise (fun c d => c.bits < d.bits) ∧
    (ofList (toList ⟨w⟩)).bits = w &&& 0x7 ∧
    (ofList (toList ⟨w⟩)).toList = toList ⟨w⟩ ∧
    (∀ c, contains ⟨w⟩ c = true ↔ c ∈ toList ⟨w⟩) := by
  refine ⟨⟨?_, walk_of_scans hscans⟩, ?_, ?_, toList_nodup ⟨w⟩, toList_pairwise ⟨w⟩,
    bits_ofList_toList ⟨w⟩, toList_ofList_toList ⟨w⟩, fun c => (mem_toList_iff ⟨w⟩).symm⟩
  · rw [eq_bitIndexes hscans.ascending hscans.mem_iff]
    exact bitIndexes_length_le w
  · intro i hi
    have hlt : i < 32 := lt_of_testBit ((hscans.mem_iff i).mp hi)
    exact ⟨hlt, toNat_one_shiftLeft hlt⟩
  · intro c
    rw [mem_toList_iff, contains, bne_iff_ne]

/-- The lowest and the highest bit of a word are set, with a bit between them that means nothing. -/
theorem walk_exact_stripping :
    walk BitScan.strip 33 0x80000015 = some [.writeWatch, .currentProcessorNumber] ∧
      walk BitScan.strip 4 0x80000015 = none ∧
      (ofList [.writeWatch, .currentProcessorNumber]).bits = 0x80000015 &&& 0x7 := by
  obtain ⟨⟨-, hwalk⟩, -, -, -, -, hbits, -⟩ :=
    walk_exact BitScan.strip 0x80000015 0x80000015 _ (BitScan.scans_strip 0x80000015)
  have hmembers : toList ⟨0x80000015⟩ = [.writeWatch, .currentProcessorNumber] := by decide
  have hlength : (bitIndexes 0x80000015).length = 4 := by decide
  rw [hmembers] at hwalk hbits
  rw [hlength] at hwalk
  exact ⟨hwalk 33, hwalk 4, hbits⟩

end CapabilitySet

end PlatformLayer
