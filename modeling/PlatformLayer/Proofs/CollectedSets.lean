import PlatformLayer.Proofs.BitWalk

/-!
# Collected sets

Sets are only ever made by inserting capabilities, so their words have no unknown bits. Such a set is
settled by which capabilities occur, whatever their order and however often they are repeated, and it
can be told from any other by its word, by its members and by the text that it is shown as.
-/

namespace PlatformLayer.CapabilitySet

variable {cs ds : List Capability}

/-- The set collected from `cs`, with `more` inserted afterwards. -/
def collected (cs more : List Capability) : CapabilitySet :=
  more.foldl insert (ofList cs)

theorem collected_eq (cs more : List Capability) : collected cs more = ofList (cs ++ more) := by
  rw [collected, ofList, ofList, List.foldl_append]

/-! ### No unknown bits -/

theorem bits_ofList_mask (cs : List Capability) :
    (ofList cs).bits &&& 0x7 = (ofList cs).bits := by
  apply UInt32.toNat_inj.mp
  apply Nat.eq_of_testBit_eq
  intro i
  rw [Bool.eq_iff_iff, UInt32.toNat_and, Nat.testBit_and, Bool.and_eq_true,
    Capability.testBit_mask]
  apply and_iff_left_of_imp
  intro hbit
  obtain ⟨c, -, hplace⟩ := (testBit_ofList cs i).mp hbit
  exact ⟨c, hplace⟩

theorem testBit_ofList_iff_exists_bits (cs : List Capability) (i : Nat) :
    (ofList cs).bits.toNat.testBit i = true ↔ ∃ c ∈ cs, c.bits.toNat.testBit i = true := by
  rw [testBit_ofList]
  simp only [Capability.testBit_bits]

theorem ofList_toList_ofList (cs : List Capability) : ofList (ofList cs).toList = ofList cs := by
  have hbits : (ofList (ofList cs).toList).bits = (ofList cs).bits := by
    rw [bits_ofList_toList, bits_ofList_mask]
  exact congrArg mk hbits

theorem mem_toList_ofList {c : Capability} : c ∈ (ofList cs).toList ↔ c ∈ cs := by
  rw [mem_toList_iff, contains_ofList]

/-! ### Telling sets apart -/

/-- Where members agree, the walks agree, and a set without unknown bits is what its walk collects. -/
theorem ofList_eq_of_contains
    (h : ∀ c, (ofList cs).contains c = true ↔ (ofList ds).contains c = true) :
    ofList cs = ofList ds := by
  rw [← ofList_toList_ofList cs, toList_congr h, ofList_toList_ofList]

theorem ofList_eq_iff_mem : ofList cs = ofList ds ↔ ∀ c, c ∈ cs ↔ c ∈ ds := by
  constructor
  · intro h c
    rw [← contains_ofList, h, contains_ofList]
  · intro h
    apply ofList_eq_of_contains
    intro c
    rw [contains_ofList, contains_ofList, h]

/-- The names in a text are the members' names, so the text gives the members away. -/
theorem contains_of_display_eq {s t : CapabilitySet} (h : s.display = t.display) (c : Capability) :
    s.contains c = true ↔ t.contains c = true := by
  have hnames : s.shownNames = t.shownNames := by rw [shownNames, shownNames, h]
  rw [← name_mem_shownNames_iff, hnames, name_mem_shownNames_iff]

theorem ofList_eq_iff_display : ofList cs = ofList ds ↔ (ofList cs).display = (ofList ds).display :=
  ⟨congrArg display, fun h => ofList_eq_of_contains (contains_of_display_eq h)⟩

/-- **A collected set depends only on which capabilities occur.** Its word is the union of their
bits, and asking, walking and collecting again all find just these. Two sets are the same exactly if
the same capabilities occur in them, and exactly if their words or their texts are the same. -/
theorem collected_settled_by_occurrence (cs more : List Capability) :
    (collected cs more).bits &&& 0x7 = (collected cs more).bits ∧
    (∀ i, (collected cs more).bits.toNat.testBit i = true ↔
      ∃ c, (c ∈ cs ∨ c ∈ more) ∧ c.bits.toNat.testBit i = true) ∧
    (∀ c, (collected cs more).contains c = true ↔ c ∈ cs ∨ c ∈ more) ∧
    (∀ c, c ∈ (collected cs more).toList ↔ c ∈ cs ∨ c ∈ more) ∧
    (collected cs more).toList.Nodup ∧
    (collected cs more).toList.Pairwise (fun c d => c.bits < d.bits) ∧
    ofList (collected cs more).toList = collected cs more ∧
    ∀ cs' more', (collected cs more = collected cs' more' ↔
        ∀ c, (c ∈ cs ∨ c ∈ more) ↔ (c ∈ cs' ∨ c ∈ more')) ∧
      (collected cs more = collected cs' more' ↔
        (collected cs more).bits = (collected cs' more').bits) ∧
      (collected cs more = collected cs' more' ↔
        (collected cs more).display = (collected cs' more').display) := by
  simp only [collected_eq, ← List.mem_append]
  refine ⟨bits_ofList_mask _, testBit_ofList_iff_exists_bits _, fun _ => contains_ofList,
    fun _ => mem_toList_ofList, toList_nodup _, toList_pairwise _, ofList_toList_ofList _, ?_⟩
  intro cs' more'
  exact ⟨ofList_eq_iff_mem, ⟨congrArg bits, congrArg mk⟩, ofList_eq_iff_display⟩

end PlatformLayer.CapabilitySet
