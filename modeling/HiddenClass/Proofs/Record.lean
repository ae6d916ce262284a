import HiddenClass.Proofs.Shape.Layout
import HiddenClass.Store
import Mathlib.Logic.Function.Basic

/-!
Records: the content of a store without its shape, as a layout and the slot at each offset. What a
store answers and does is that of its record.
-/

namespace HiddenClass

def KeyFilter.includes (filter : KeyFilter) (slot : Slot) : Bool :=
  filter = .all || slot.flags.enumerable

namespace Slot

/-- What a definition answers about one property, and what becomes of it. -/
def define (current : Option Slot) (desc : Descriptor) (extensible : Bool) :
    Verdict × Option Slot :=
  match current with
  | some slot =>
    match slot.validate desc with
    | .accepted => (.accepted, some (slot.merge desc))
    | .rejected reason => (.rejected reason, current)
  | none =>
    if extensible then (.accepted, some (.ofDescriptor desc)) else (.rejected .notExtensible, none)

/-- What a deletion answers about one property, and what becomes of it. -/
def delete (current : Option Slot) : Verdict × Option Slot :=
  match current with
  | some slot =>
    if slot.flags.configurable then (.accepted, none) else (.rejected .notDeletable, current)
  | none => (.accepted, none)

/-- A refusal changes nothing. -/
theorem define_rejected {current : Option Slot} {desc : Descriptor} {extensible : Bool}
    {reason : Rejection} (rejected : (define current desc extensible).1 = .rejected reason) :
    (define current desc extensible).2 = current := by
  unfold define at rejected ⊢
  cases current with
  | none =>
    by_cases allowed : extensible = true
    · simp only [if_pos allowed] at rejected
      cases rejected
    · simp only [if_neg allowed]
  | some slot =>
    cases verdict : slot.validate desc with
    | accepted =>
      simp only [verdict] at rejected
      cases rejected
    | rejected reason => simp only [verdict]

end Slot

structure Record where
  layout : Layout := {}
  slot : Nat → Slot := fun _ => .vacant

namespace Record

def find? (record : Record) (key : Key) : Option Slot :=
  (record.layout.offset? key).map record.slot

def set (record : Record) (offset : Nat) (slot : Slot) : Record :=
  { record with slot := Function.update record.slot offset slot }

def insert (record : Record) (key : Key) (slot : Slot) : Record :=
  { layout := record.layout.add key
    slot := Function.update record.slot record.layout.next slot }

def erase (record : Record) (key : Key) (offset : Nat) : Record :=
  { layout := record.layout.remove key
    slot := Function.update record.slot offset .vacant }

def define (record : Record) (key : Key) (desc : Descriptor) (extensible : Bool) :
    Verdict × Record :=
  match record.layout.offset? key with
  | some offset =>
    match (record.slot offset).validate desc with
    | .accepted => (.accepted, record.set offset ((record.slot offset).merge desc))
    | .rejected reason => (.rejected reason, record)
  | none =>
    if extensible then (.accepted, record.insert key (.ofDescriptor desc))
    else (.rejected .notExtensible, record)

def delete (record : Record) (key : Key) : Verdict × Record :=
  match record.layout.offset? key with
  | none => (.accepted, record)
  | some offset =>
    if (record.slot offset).flags.configurable then (.accepted, record.erase key offset)
    else (.rejected .notDeletable, record)

def keys (record : Record) (filter : KeyFilter) : List Key :=
  (record.layout.table.filter fun entry => filter.includes (record.slot entry.2)).map Prod.fst

/-- No deletion takes away what the key has: there is no property, or it is not configurable. -/
def Keeps (record : Record) (key : Key) : Prop :=
  ∀ slot, record.find? key = some slot → slot.flags.configurable = false

/-- An offset without a name holds nothing. -/
structure Sound (record : Record) : Prop where
  layout : record.layout.Sound
  vacant : ∀ offset, (∀ key, record.layout.offset? key ≠ some offset) →
    record.slot offset = .vacant

variable {record : Record} {key other : Key} {offset : Nat} {slot : Slot} {desc : Descriptor}
  {extensible : Bool}

theorem sound_empty : Sound {} := ⟨Layout.sound_empty, fun _ _ => rfl⟩

theorem find?_of_offset? (found : record.layout.offset? key = some offset) :
    record.find? key = some (record.slot offset) := by
  rw [find?, found, Option.map_some]

theorem find?_eq_none_iff : record.find? key = none ↔ record.layout.offset? key = none := by
  rw [find?, Option.map_eq_none_iff]

namespace Sound

variable (sound : record.Sound)
include sound

theorem find?_set (found : record.layout.offset? key = some offset) (slot : Slot) (other : Key) :
    (record.set offset slot).find? other = if other = key then some slot else record.find? other := by
  unfold find? set
  by_cases same : other = key
  · rw [same, found, if_pos rfl]
    exact congrArg some (Function.update_self ..)
  · rw [if_neg same]
    cases present : record.layout.offset? other with
    | none => rfl
    | some place =>
      have different : place ≠ offset := fun equal =>
        same (sound.layout.offset_injective present (equal ▸ found))
      exact congrArg some (Function.update_of_ne different ..)

theorem find?_insert (absent : record.layout.offset? key = none) (slot : Slot) (other : Key) :
    (record.insert key slot).find? other =
      if other = key then some slot else record.find? other := by
  unfold find? insert
  rw [Layout.offset?_add sound.layout absent]
  by_cases same : other = key
  · rw [if_pos same, if_pos same]
    exact congrArg some (Function.update_self ..)
  · rw [if_neg same, if_neg same]
    cases present : record.layout.offset? other with
    | none => rfl
    | some place =>
      have different := sound.layout.offset_ne_next present
      exact congrArg some (Function.update_of_ne different ..)

theorem find?_erase (found : record.layout.offset? key = some offset) (other : Key) :
    (record.erase key offset).find? other = if other = key then none else record.find? other := by
  unfold find? erase
  rw [Layout.offset?_remove]
  by_cases same : other = key
  · rw [if_pos same, if_pos same, Option.map_none]
  · rw [if_neg same, if_neg same]
    cases present : record.layout.offset? other with
    | none => rfl
    | some place =>
      have different : place ≠ offset := fun equal =>
        same (sound.layout.offset_injective present (equal ▸ found))
      exact congrArg some (Function.update_of_ne different ..)

theorem set (found : record.layout.offset? key = some offset) (slot : Slot) :
    (record.set offset slot).Sound := by
  refine ⟨sound.layout, fun place absent => ?_⟩
  have different : place ≠ offset := fun equal => absent key (equal ▸ found)
  exact (Function.update_of_ne different ..).trans (sound.vacant place absent)

theorem insert (absent : record.layout.offset? key = none) (slot : Slot) :
    (record.insert key slot).Sound := by
  have added := Layout.offset?_add sound.layout absent
  refine ⟨Layout.sound_add sound.layout absent, fun place unnamed => ?_⟩
  have different : place ≠ record.layout.next := by
    intro equal
    refine unnamed key ?_
    rw [equal]
    exact (added key).trans (if_pos rfl)
  refine (Function.update_of_ne different ..).trans (sound.vacant place fun other present => ?_)
  refine unnamed other ((added other).trans ?_)
  rw [if_neg, present]
  intro same
  rw [same, absent] at present
  cases present

theorem erase (found : record.layout.offset? key = some offset) :
    (record.erase key offset).Sound := by
  refine ⟨Layout.sound_remove sound.layout key, fun place unnamed => ?_⟩
  by_cases same : place = offset
  · rw [same]
    exact Function.update_self ..
  · refine (Function.update_of_ne same ..).trans (sound.vacant place fun other present => ?_)
    refine unnamed other ((Layout.offset?_remove ..).trans ?_)
    rw [if_neg, present]
    intro equal
    rw [equal, found] at present
    exact same (Option.some.inj present).symm

theorem define (key : Key) (desc : Descriptor) (extensible : Bool) :
    (record.define key desc extensible).2.Sound := by
  unfold Record.define
  cases found : record.layout.offset? key with
  | none =>
    by_cases allowed : extensible = true
    · simp only [if_pos allowed]
      exact sound.insert found _
    · simp only [if_neg allowed]
      exact sound
  | some offset =>
    cases verdict : (record.slot offset).validate desc with
    | accepted =>
      simp only [verdict]
      exact sound.set found _
    | rejected reason =>
      simp only [verdict]
      exact sound

theorem delete (key : Key) : (record.delete key).2.Sound := by
  unfold Record.delete
  cases found : record.layout.offset? key with
  | none => exact sound
  | some offset =>
    by_cases deletable : (record.slot offset).flags.configurable = true
    · simp only [if_pos deletable]
      exact sound.erase found
    · simp only [if_neg deletable]
      exact sound

/-- A definition concerns one key only, and answers from what is there. -/
theorem define_eq (key : Key) (desc : Descriptor) (extensible : Bool) :
    (record.define key desc extensible).1 = (Slot.define (record.find? key) desc extensible).1 ∧
      ∀ other, (record.define key desc extensible).2.find? other =
        if other = key then (Slot.define (record.find? key) desc extensible).2
        else record.find? other := by
  unfold Record.define
  cases found : record.layout.offset? key with
  | none =>
    have absent : record.find? key = none := find?_eq_none_iff.mpr found
    rw [absent, Slot.define]
    by_cases allowed : extensible = true
    · simp only [if_pos allowed]
      exact ⟨trivial, sound.find?_insert found _⟩
    · simp only [if_neg allowed]
      refine ⟨trivial, fun other => ?_⟩
      by_cases same : other = key
      · rw [if_pos same, same, absent]
      · rw [if_neg same]
  | some offset =>
    have present := find?_of_offset? found
    rw [present, Slot.define]
    cases verdict : (record.slot offset).validate desc with
    | accepted =>
      simp only [verdict]
      exact ⟨trivial, sound.find?_set found _⟩
    | rejected reason =>
      simp only [verdict]
      refine ⟨trivial, fun other => ?_⟩
      by_cases same : other = key
      · rw [if_pos same, same, present]
      · rw [if_neg same]

/-- Where a record has nothing, it gets what the descriptor makes of nothing. -/
theorem define_new (absent : record.find? key = none) (desc : Descriptor) :
    (record.define key desc true).1 = .accepted ∧
      ∀ other, (record.define key desc true).2.find? other =
        if other = key then some (.ofDescriptor desc) else record.find? other := by
  have defined := sound.define_eq key desc true
  rw [absent] at defined
  exact defined

/-- A deletion concerns one key only, and answers from what is there. -/
theorem delete_eq (key : Key) :
    (record.delete key).1 = (Slot.delete (record.find? key)).1 ∧
      ∀ other, (record.delete key).2.find? other =
        if other = key then (Slot.delete (record.find? key)).2 else record.find? other := by
  unfold Record.delete
  cases found : record.layout.offset? key with
  | none =>
    have absent : record.find? key = none := find?_eq_none_iff.mpr found
    rw [absent, Slot.delete]
    refine ⟨rfl, fun other => ?_⟩
    by_cases same : other = key
    · rw [if_pos same, same, absent]
    · rw [if_neg same]
  | some offset =>
    have present := find?_of_offset? found
    rw [present, Slot.delete]
    by_cases deletable : (record.slot offset).flags.configurable = true
    · simp only [if_pos deletable]
      exact ⟨trivial, sound.find?_erase found⟩
    · simp only [if_neg deletable]
      refine ⟨trivial, fun other => ?_⟩
      by_cases same : other = key
      · rw [if_pos same, same, present]
      · rw [if_neg same]

theorem find?_define_of_ne (different : other ≠ key) (desc : Descriptor) (extensible : Bool) :
    (record.define key desc extensible).2.find? other = record.find? other := by
  rw [(sound.define_eq key desc extensible).2, if_neg different]

theorem find?_delete_of_ne (different : other ≠ key) :
    (record.delete key).2.find? other = record.find? other := by
  rw [(sound.delete_eq key).2, if_neg different]

theorem find?_delete_of_keeps (spared : other ≠ key ∨ record.Keeps other) :
    (record.delete key).2.find? other = record.find? other := by
  by_cases same : other = key
  · have keeps : record.Keeps key := same ▸ spared.resolve_left fun different => different same
    rw [(sound.delete_eq key).2, if_pos same, same]
    cases present : record.find? key with
    | none => rfl
    | some slot =>
      have fixed : ¬slot.flags.configurable = true := Bool.eq_false_iff.mp (keeps slot present)
      rw [Slot.delete, if_neg fixed]
  · exact sound.find?_delete_of_ne same

theorem mem_keys {filter : KeyFilter} : key ∈ record.keys filter ↔
    ∃ slot, record.find? key = some slot ∧ filter.includes slot = true := by
  unfold keys find?
  simp only [List.mem_map, List.mem_filter, Option.map_eq_some_iff, sound.layout.mem_table]
  constructor
  · rintro ⟨⟨name, offset⟩, ⟨member, included⟩, rfl⟩
    exact ⟨record.slot offset, ⟨offset, member, rfl⟩, included⟩
  · rintro ⟨slot, ⟨offset, member, rfl⟩, included⟩
    exact ⟨(key, offset), ⟨member, included⟩, rfl⟩

theorem keys_nodup (filter : KeyFilter) : (record.keys filter).Nodup :=
  sound.layout.distinct.sublist (List.filter_sublist.map Prod.fst)

end Sound

end Record

end HiddenClass
