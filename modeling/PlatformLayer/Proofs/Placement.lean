import PlatformLayer.Architecture.Catalog

/-!
# Where slots lie

In any layout the slots follow one another in declaration order and do not overlap, because a field
starts where the one before it has ended, or later. In the layouts of the known machines it never
starts later, and nothing is left over at the end, so there every byte belongs to exactly one slot.
-/

namespace PlatformLayer.Layout

variable {l : Layout}

/-! ### Slots do not overlap -/

theorem extent_concat (fields : List Field) (f : Field) :
    extent (fields ++ [f]) = roundUp (extent fields) f.kind.align + f.size := by
  simp [extent, List.foldl_append]

theorem extent_take_succ (i : Fin l.fields.length) :
    extent (l.fields.take (i + 1)) = l.fieldOffset i + (l.fields.get i).size := by
  rw [List.take_succ_eq_append_getElem i.isLt, extent_concat]
  rfl

theorem extent_le_fieldOffset (i : Fin l.fields.length) :
    extent (l.fields.take i) ≤ l.fieldOffset i :=
  Nat.le_add_right _ _

theorem extent_take_le_succ (i : Nat) :
    extent (l.fields.take i) ≤ extent (l.fields.take (i + 1)) := by
  by_cases hi : i < l.fields.length
  · calc extent (l.fields.take i)
        ≤ l.fieldOffset ⟨i, hi⟩ := extent_le_fieldOffset ⟨i, hi⟩
      _ ≤ l.fieldOffset ⟨i, hi⟩ + (l.fields.get ⟨i, hi⟩).size := Nat.le_add_right _ _
      _ = extent (l.fields.take (i + 1)) := (extent_take_succ ⟨i, hi⟩).symm
  · have hall : l.fields.take i = l.fields.take (i + 1) := by
      rw [List.take_of_length_le (by omega), List.take_of_length_le (by omega)]
    exact Nat.le_of_eq (congrArg extent hall)

theorem extent_take_mono {i j : Nat} (hij : i ≤ j) :
    extent (l.fields.take i) ≤ extent (l.fields.take j) := by
  induction hij with
  | refl => exact Nat.le_refl _
  | step _ ih => exact Nat.le_trans ih (extent_take_le_succ _)

namespace Slot

variable {s t : l.Slot}

theorem stop_le_extent (s : l.Slot) :
    s.offset + s.width ≤ extent (l.fields.take (s.field + 1)) := by
  have helement : (s.element + 1) * s.kind.size ≤ (l.fields.get s.field).size :=
    Nat.mul_le_mul_right _ s.element.isLt
  rw [Nat.succ_mul] at helement
  rw [extent_take_succ, offset, width]
  omega

/-- A slot of an earlier field ends before one of a later field starts. -/
theorem stop_le_of_field_lt (hfield : s.field < t.field) : s.offset + s.width ≤ t.offset :=
  calc s.offset + s.width
      ≤ extent (l.fields.take (s.field + 1)) := s.stop_le_extent
    _ ≤ extent (l.fields.take t.field) := extent_take_mono hfield
    _ ≤ l.fieldOffset t.field := extent_le_fieldOffset t.field
    _ ≤ t.offset := Nat.le_add_right _ _

theorem stop_le_of_element_lt (hfield : s.field = t.field) (helement : s.element.val < t.element) :
    s.offset + s.width ≤ t.offset := by
  obtain ⟨i, e⟩ := s
  obtain ⟨j, e'⟩ := t
  obtain rfl : i = j := hfield
  have hnext : (e + 1) * (l.fields.get i).kind.size ≤ e' * (l.fields.get i).kind.size :=
    Nat.mul_le_mul_right _ helement
  rw [Nat.succ_mul] at hnext
  simp only [offset, width, kind]
  omega

theorem disjoint (hne : s ≠ t) : s.offset + s.width ≤ t.offset ∨ t.offset + t.width ≤ s.offset := by
  rcases Nat.lt_trichotomy s.field t.field with hlt | heq | hgt
  · exact Or.inl (stop_le_of_field_lt hlt)
  · have hfield : s.field = t.field := Fin.ext heq
    rcases Nat.lt_trichotomy s.element t.element with hlt | heq' | hgt
    · exact Or.inl (stop_le_of_element_lt hfield hlt)
    · refine absurd ?_ hne
      obtain ⟨i, e⟩ := s
      obtain ⟨j, e'⟩ := t
      obtain rfl : i = j := hfield
      obtain rfl : e = e' := Fin.ext heq'
      rfl
    · exact Or.inr (stop_le_of_element_lt hfield.symm hgt)
  · exact Or.inr (stop_le_of_field_lt hgt)

theorem within (s : l.Slot) : s.offset + s.width ≤ l.size :=
  calc s.offset + s.width
      ≤ extent (l.fields.take (s.field + 1)) := s.stop_le_extent
    _ ≤ extent (l.fields.take l.fields.length) := extent_take_mono s.field.isLt
    _ = extent l.fields := by rw [List.take_length]
    _ ≤ l.size := Nat.le_add_right _ _

end Slot

/-! ### Slots leave no gap -/

/-- No field needs padding before it, and none is needed at the end. -/
structure Packed (l : Layout) : Prop where
  fieldOffset : ∀ i, l.fieldOffset i = extent (l.fields.take i)
  size : l.size = extent l.fields

instance instDecidablePacked (l : Layout) : Decidable l.Packed :=
  decidable_of_iff ((∀ i, l.fieldOffset i = extent (l.fields.take i)) ∧ l.size = extent l.fields)
    ⟨fun h => ⟨h.1, h.2⟩, fun h => ⟨h.1, h.2⟩⟩

/-- The layouts of all machines, and that of a vector save slot. -/
def known : List Layout :=
  [amd64Unix, amd64, arm64, riscv64, arm, x86, unsupported, vector]

theorem packed_of_known : ∀ l ∈ known, l.Packed := by
  decide

example : known.map (·.size) = [80, 256, 192, 232, 112, 28, 8, 16] := by decide

/-- The field in which a byte lies. -/
theorem exists_field {b n : Nat} (hn : n ≤ l.fields.length) (hb : b < extent (l.fields.take n)) :
    ∃ i : Fin l.fields.length,
      extent (l.fields.take i) ≤ b ∧ b < extent (l.fields.take (i + 1)) := by
  induction n with
  | zero => exact absurd hb (Nat.not_lt_zero b)
  | succ n ih =>
      by_cases hbefore : b < extent (l.fields.take n)
      · exact ih (by omega) hbefore
      · exact ⟨⟨n, hn⟩, Nat.le_of_not_lt hbefore, hb⟩

/-- The element of an array in which a byte lies. -/
theorem exists_element {b count width : Nat} (hwidth : 0 < width) (hb : b < count * width) :
    ∃ e : Fin count, e * width ≤ b ∧ b < e * width + width :=
  ⟨⟨b / width, Nat.div_lt_of_lt_mul (Nat.mul_comm count width ▸ hb)⟩, Nat.div_mul_le_self b width,
    Nat.lt_div_mul_add hwidth⟩

theorem Packed.exists_slot (hpacked : l.Packed) {b : Nat} (hb : b < l.size) :
    ∃ s : l.Slot, s.offset ≤ b ∧ b < s.offset + s.width := by
  rw [hpacked.size, ← List.take_length (l := l.fields)] at hb
  obtain ⟨i, hstart, hstop⟩ := exists_field (Nat.le_refl _) hb
  rw [← hpacked.fieldOffset] at hstart
  rw [extent_take_succ, Field.size] at hstop
  obtain ⟨e, hlow, hhigh⟩ : ∃ e : Fin (l.fields.get i).count,
      e * (l.fields.get i).kind.size ≤ b - l.fieldOffset i ∧
        b - l.fieldOffset i < e * (l.fields.get i).kind.size + (l.fields.get i).kind.size :=
    exists_element (Kind.size_pos _) (by omega)
  refine ⟨⟨i, e⟩, ?_, ?_⟩
  · simp only [Slot.offset, Slot.kind]
    omega
  · simp only [Slot.offset, Slot.width, Slot.kind]
    omega

/-- Every byte belongs to exactly one slot. -/
theorem Packed.existsUnique_slot (hpacked : l.Packed) {b : Nat} (hb : b < l.size) :
    ∃ s : l.Slot, (s.offset ≤ b ∧ b < s.offset + s.width) ∧
      ∀ t : l.Slot, t.offset ≤ b ∧ b < t.offset + t.width → t = s := by
  obtain ⟨s, hs⟩ := hpacked.exists_slot hb
  refine ⟨s, hs, fun t ht => ?_⟩
  by_cases heq : t = s
  · exact heq
  · rcases Slot.disjoint heq with hbefore | hafter <;> omega

end PlatformLayer.Layout
