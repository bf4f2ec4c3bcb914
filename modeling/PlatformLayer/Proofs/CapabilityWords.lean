import PlatformLayer.Capability.Set
import Mathlib.Data.List.Basic
import Mathlib.Data.Nat.Bitwise

/-!
# Capabilities in a word

A set is one word, and there are several ways to look into it: a mask, a walk over its bits, and the
names that it is shown by. The walk passes over every bit that means nothing, so all of them find the
same capabilities in every word.
-/

namespace PlatformLayer

/-! ### Single bits -/

namespace Capability

/-- Where the bit of a capability stands in a word. -/
def place : Capability → Nat
  | writeWatch => 0
  | lowMemoryNotification => 1
  | currentProcessorNumber => 2

theorem place_lt (c : Capability) : c.place < 32 := by
  cases c <;> decide

theorem bits_eq_shift (c : Capability) : c.bits = 1 <<< UInt32.ofNat c.place := by
  cases c <;> rfl

theorem testBit_place (c d : Capability) : c.bits.toNat.testBit d.place = decide (c = d) := by
  cases c <;> cases d <;> rfl

end Capability

namespace CapabilitySet

variable (s : CapabilitySet) {c : Capability}

/-- No bit of a word is lost when one is shifted to its place. -/
theorem toNat_one_shiftLeft {i : Nat} (hi : i < 32) :
    (1 <<< UInt32.ofNat i : UInt32).toNat = 2 ^ i := by
  have hpow : 2 ^ i < 2 ^ 32 := Nat.pow_lt_pow_right (by decide) hi
  have hindex : (UInt32.ofNat i).toNat = i := by
    rw [UInt32.toNat_ofNat']
    omega
  rw [UInt32.toNat_shiftLeft, hindex, Nat.mod_eq_of_lt hi, UInt32.toNat_one, Nat.shiftLeft_eq,
    Nat.one_mul, Nat.mod_eq_of_lt hpow]

theorem mask_bit_ne_zero (w : UInt32) {i : Nat} (hi : i < 32) :
    (w &&& 1 <<< UInt32.ofNat i != 0) = w.toNat.testBit i := by
  have hmask : (w &&& 1 <<< UInt32.ofNat i).toNat = (w.toNat.testBit i).toNat * 2 ^ i := by
    rw [UInt32.toNat_and, toNat_one_shiftLeft hi, Nat.and_two_pow]
  rw [Bool.eq_iff_iff, bne_iff_ne, ne_eq, ← UInt32.toNat_inj, hmask]
  cases w.toNat.testBit i <;> simp

theorem contains_eq_testBit {i : Nat} (hi : i < 32) (hbits : c.bits = 1 <<< UInt32.ofNat i) :
    s.contains c = s.bits.toNat.testBit i := by
  rw [contains, hbits, mask_bit_ne_zero s.bits hi]

theorem contains_eq_testBit_place (c : Capability) :
    s.contains c = s.bits.toNat.testBit c.place :=
  s.contains_eq_testBit c.place_lt c.bits_eq_shift

theorem contains_insert (c d : Capability) :
    (s.insert c).contains d = (s.contains d || decide (c = d)) := by
  rw [contains_eq_testBit_place, contains_eq_testBit_place, insert, UInt32.toNat_or, Nat.testBit_or,
    Capability.testBit_place]

/-! ### The walk over the bits -/

/-- Of all the bits there are, those of the capabilities come up in their order. -/
theorem filterMap_ofBits?_range :
    (List.range 32).filterMap (fun i => Capability.ofBits? (1 <<< UInt32.ofNat i))
      = Capability.all := by
  decide

theorem toList_eq_filter : s.toList = Capability.all.filter s.contains := by
  rw [toList, bitIndexes, List.filterMap_filter, ← filterMap_ofBits?_range, List.filter_filterMap]
  apply List.filterMap_congr
  intro i hi
  cases hfound : Capability.ofBits? (1 <<< UInt32.ofNat i) with
  | none => simp
  | some c =>
      have hbits := Capability.ofBits?_eq_some_iff.mp hfound
      have hcontains := s.contains_eq_testBit (List.mem_range.mp hi) hbits.symm
      rw [Option.filter_some, hcontains]

theorem mem_toList_iff : c ∈ s.toList ↔ s.contains c = true := by
  rw [toList_eq_filter, List.mem_filter]
  exact and_iff_right (Capability.mem_all c)

end CapabilitySet

/-! ### Texts between bars -/

namespace Text

/-- The parts of a text, which the separator `" | "` stands between. -/
def pieces : List Char → List (List Char)
  | ' ' :: '|' :: ' ' :: rest => [] :: pieces rest
  | c :: rest => (pieces rest).modifyHead (c :: ·)
  | [] => [[]]

def separator : List Char := [' ', '|', ' ']

/-- A character is read as part of a piece unless a bar comes next. -/
theorem pieces_cons {c : Char} {rest : List Char} (h : rest.head? ≠ some '|') :
    pieces (c :: rest) = (pieces rest).modifyHead (c :: ·) := by
  rw [pieces]
  rintro tail rfl rfl
  exact h rfl

theorem pieces_of_plain {x : List Char} (hbar : '|' ∉ x) : pieces x = [x] := by
  induction x with
  | nil => rfl
  | cons c rest ih =>
      have hrest : '|' ∉ rest := fun hmem => hbar (List.mem_cons_of_mem c hmem)
      have hnext : rest.head? ≠ some '|' := fun hhead => hrest (List.mem_of_head? hhead)
      rw [pieces_cons hnext, ih hrest]
      rfl

theorem pieces_append_separator {x : List Char} (hbar : '|' ∉ x) (rest : List Char) :
    pieces (x ++ separator ++ rest) = x :: pieces rest := by
  induction x with
  | nil => rfl
  | cons c x ih =>
      have hx : '|' ∉ x := fun hmem => hbar (List.mem_cons_of_mem c hmem)
      have hnext : (x ++ separator ++ rest).head? ≠ some '|' := by
        cases x with
        | nil => simp [separator]
        | cons d x =>
            intro hhead
            exact hx (List.mem_of_head? hhead)
      rw [List.cons_append, List.cons_append, pieces_cons hnext, ih hx]
      rfl

/-- Joined texts come apart again where none of them has a bar of its own. -/
theorem pieces_intercalate {xs : List (List Char)} (hne : xs ≠ []) (hbar : ∀ x ∈ xs, '|' ∉ x) :
    pieces (separator.intercalate xs) = xs := by
  induction xs with
  | nil => exact absurd rfl hne
  | cons x rest ih =>
      have hx := hbar x List.mem_cons_self
      cases rest with
      | nil => rw [List.intercalate_singleton, pieces_of_plain hx]
      | cons y rest =>
          have hrest : ∀ z ∈ y :: rest, '|' ∉ z := fun z hz => hbar z (List.mem_cons_of_mem x hz)
          rw [List.intercalate_cons_cons, pieces_append_separator hx,
            ih (List.cons_ne_nil y rest) hrest]

end Text

/-! ### The names shown -/

theorem Capability.name_injective : Function.Injective Capability.name := by
  intro c d h
  cases c <;> cases d <;> first | rfl | exact absurd h (by decide)

theorem Capability.bar_not_mem_name (c : Capability) : '|' ∉ c.name.toList := by
  cases c <;> decide

namespace CapabilitySet

/-- The names that a set is shown by, read off its text. -/
def shownNames (s : CapabilitySet) : List String :=
  (Text.pieces s.display.toList).map String.ofList

variable (s : CapabilitySet) {c : Capability}

theorem shownNames_of_toList_ne_nil (h : s.toList ≠ []) :
    s.shownNames = s.toList.map Capability.name := by
  have hempty : s.isEmpty = false := by
    by_contra hempty
    have hbits : s.bits = 0 := beq_iff_eq.mp (Bool.of_not_eq_false hempty)
    apply h
    rw [toList, hbits]
    rfl
  have hdisplay : s.display.toList
      = Text.separator.intercalate (s.toList.map fun c => c.name.toList) := by
    rw [display, hempty, if_neg Bool.false_ne_true, String.toList_intercalate, List.map_map]
    rfl
  have hne : (s.toList.map fun c => c.name.toList) ≠ [] := fun hnil => h (List.map_eq_nil_iff.mp hnil)
  rw [shownNames, hdisplay, Text.pieces_intercalate hne]
  · rw [List.map_map]
    apply List.map_congr_left
    intro c _
    exact String.ofList_toList
  · intro x hx
    obtain ⟨c, -, rfl⟩ := List.mem_map.mp hx
    exact c.bar_not_mem_name

/-- A word without capabilities is shown as one text that is nobody's name. -/
theorem shownNames_of_toList_eq_nil (h : s.toList = []) :
    s.shownNames = [if s.isEmpty then "(none)" else ""] := by
  rw [shownNames, display, h]
  cases s.isEmpty <;> rfl

theorem name_mem_shownNames_iff : c.name ∈ s.shownNames ↔ s.contains c = true := by
  rw [← mem_toList_iff]
  by_cases h : s.toList = []
  · rw [s.shownNames_of_toList_eq_nil h, h]
    cases s.isEmpty <;> cases c <;> decide
  · rw [s.shownNames_of_toList_ne_nil h]
    exact List.mem_map_of_injective Capability.name_injective

end CapabilitySet

end PlatformLayer
