import BoardEval.Fault

/-!
# Slot maps

A slot map holds one entry per live slot number. Inserting under a number that
is in use replaces its entry, so the numbers of a map never repeat.
-/

namespace BoardEval

/-- Entries under distinct slot numbers, the newest first. -/
structure SlotMap (α : Type) where
  entries : List (Int × α)
  deriving DecidableEq, Repr

namespace SlotMap

variable {α : Type}

/-- No slot is in use. -/
def empty : SlotMap α := ⟨[]⟩

/-- The entry of a slot, if it is in use. -/
def get? (m : SlotMap α) (slot : Int) : Option α := m.entries.lookup slot

/-- Whether a slot is in use. -/
def contains (m : SlotMap α) (slot : Int) : Bool := (m.get? slot).isSome

/-- Give a slot back; one that is not in use makes no difference. -/
def erase (m : SlotMap α) (slot : Int) : SlotMap α :=
  ⟨m.entries.filter fun entry => entry.1 != slot⟩

/-- Enter a value under a slot. An older entry of that slot is dropped, which is
what keeps the numbers distinct. -/
def insert (m : SlotMap α) (slot : Int) (value : α) : SlotMap α :=
  ⟨(slot, value) :: (m.erase slot).entries⟩

/-- Number of live slots. -/
def size (m : SlotMap α) : Nat := m.entries.length

/-- The slot numbers in use. -/
def slots (m : SlotMap α) : List Int := m.entries.map (·.1)

/-- A slot holds what was entered last. -/
theorem get?_insert_self (m : SlotMap α) (slot : Int) (value : α) :
    (m.insert slot value).get? slot = some value := by
  simp [get?, insert]

/-- An empty map has no entry to give. -/
theorem get?_empty (slot : Int) : (empty : SlotMap α).get? slot = none := rfl

section

variable {m : SlotMap α} {slot : Int} {value : α}

/-- Every entry is listed under its slot. -/
theorem mem_slots (listed : (slot, value) ∈ m.entries) : slot ∈ m.slots :=
  List.mem_map_of_mem listed

/-- Asking for a slot and looking for it among the numbers in use are the same
question. -/
theorem contains_iff : m.contains slot = true ↔ slot ∈ m.slots := by
  unfold contains get? slots
  induction m.entries with
  | nil => simp
  | cons entry rest inductionHypothesis =>
    rw [List.lookup_cons, List.map_cons, List.mem_cons, ← inductionHypothesis]
    by_cases same : slot = entry.1
    · simp [same]
    · simp [same, beq_eq_false_iff_ne.mpr same]

/-- The entry of a slot is found, if no slot is listed twice. -/
theorem get?_of_mem (apart : m.slots.Nodup) (listed : (slot, value) ∈ m.entries) :
    m.get? slot = some value := by
  unfold get?
  unfold slots at apart
  induction entries : m.entries generalizing m with
  | nil => simp [entries] at listed
  | cons entry rest inductionHypothesis =>
    rw [entries, List.map_cons, List.nodup_cons] at apart
    rw [entries, List.mem_cons] at listed
    rw [List.lookup_cons]
    rcases listed with rfl | later
    · simp
    · have other : slot ≠ entry.1 := fun same => apart.1 (List.mem_map.mpr ⟨_, later, same⟩)
      simp only [beq_eq_false_iff_ne.mpr other]
      exact @inductionHypothesis ⟨rest⟩ apart.2 later rfl

/-- An erased slot is not in use. -/
theorem get?_erase_self (m : SlotMap α) (slot : Int) : (m.erase slot).get? slot = none := by
  have unused : slot ∉ (m.erase slot).slots := by simp [slots, erase]
  rw [← contains_iff, contains, Option.not_isSome_iff_eq_none] at unused
  exact unused

/-- Erasing a slot leaves the entries of the others alone. -/
theorem get?_erase_other {other : Int} (apart : slot ≠ other) :
    (m.erase other).get? slot = m.get? slot := by
  simp only [get?, erase]
  induction m.entries with
  | nil => rfl
  | cons entry rest inductionHypothesis =>
    by_cases gone : entry.1 = other
    · have missed : slot ≠ entry.1 := gone ▸ apart
      rw [List.filter_cons_of_neg (by simp [gone]), inductionHypothesis, List.lookup_cons,
        beq_eq_false_iff_ne.mpr missed]
    · rw [List.filter_cons_of_pos (by simpa using gone), List.lookup_cons, List.lookup_cons,
        inductionHypothesis]

/-- So does inserting one. -/
theorem get?_insert_other {other : Int} (apart : slot ≠ other) :
    (m.insert other value).get? slot = m.get? slot := by
  have later : (m.insert other value).get? slot = (m.erase other).get? slot := by
    rw [get?, insert, List.lookup_cons, beq_eq_false_iff_ne.mpr apart]
    rfl
  exact later.trans (get?_erase_other apart)

/-- Erasing a slot that is not in use changes nothing. -/
theorem erase_unused (unused : slot ∉ m.slots) : m.erase slot = m := by
  have kept : m.entries.filter (fun entry => entry.1 != slot) = m.entries := by
    rw [List.filter_eq_self]
    intro entry listed
    have other : entry.1 ≠ slot := by
      rintro rfl
      exact unused (List.mem_map_of_mem listed)
    simpa using other
  rw [erase, kept]

/-- Erasing a slot takes its one entry away. -/
theorem erase_perm (apart : m.slots.Nodup) (listed : (slot, value) ∈ m.entries) :
    m.entries.Perm ((slot, value) :: (m.erase slot).entries) := by
  obtain ⟨front, back, split⟩ := List.append_of_mem listed
  have moved : m.entries.Perm ((slot, value) :: (front ++ back)) := split ▸ List.perm_middle
  have apart' : (((slot, value) :: (front ++ back)).map (·.1)).Nodup :=
    (moved.map _).nodup_iff.mp apart
  have kept := @erase_unused _ ⟨front ++ back⟩ slot (List.nodup_cons.mp apart').1
  have erased : (m.erase slot).entries = front ++ back := by
    have filtered := congrArg SlotMap.entries kept
    simpa [erase, split, List.filter_append] using filtered
  rw [erased]
  exact moved

end

end SlotMap

/-- Slot numbers are 32-bit integers; this is one more than the largest. -/
def slotLimit : Int := 0x80000000

end BoardEval
