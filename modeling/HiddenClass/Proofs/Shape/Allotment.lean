import HiddenClass.Proofs.Arena
import HiddenClass.Proofs.Shape.Layout
import Mathlib.Data.List.Sort

/-!
What a history of added and removed names makes of the slots, told without shapes: the slots stand in
a row, and a name takes the one freed last or else a new one at the end. The layouts that shapes stand
for are those of their histories.
-/

namespace HiddenClass

/-- A change of layout. Removing a missing name changes nothing. -/
inductive Edit where
  | add (key : Key)
  | remove (key : Key)
deriving DecidableEq, Repr

/-- The slots in a row, each with its name or empty, and the empty ones, the one freed last in
front. -/
structure Allotment where
  slots : List (Option Key) := []
  freed : List Nat := []
deriving DecidableEq, Repr

namespace Allotment

def size (allotment : Allotment) : Nat := allotment.slots.length

def offset? (allotment : Allotment) (key : Key) : Option Nat :=
  allotment.slots.findIdx? fun slot => slot == some key

/-- The names with their offsets, by ascending offset. -/
def names (allotment : Allotment) : List (Key × Nat) :=
  allotment.slots.zipIdx.filterMap fun (slot, offset) => slot.map fun key => (key, offset)

def add (allotment : Allotment) (key : Key) : Allotment :=
  match allotment.freed with
  | [] => { allotment with slots := allotment.slots ++ [some key] }
  | offset :: rest => { slots := allotment.slots.set offset (some key), freed := rest }

def remove (allotment : Allotment) (key : Key) : Allotment :=
  match allotment.offset? key with
  | some offset => { slots := allotment.slots.set offset none, freed := offset :: allotment.freed }
  | none => allotment

def edit (allotment : Allotment) : Edit → Allotment
  | .add key => allotment.add key
  | .remove key => allotment.remove key

def ofHistory (history : List Edit) : Allotment := history.foldl edit {}

theorem ofHistory_concat (history : List Edit) (last : Edit) :
    ofHistory (history ++ [last]) = (ofHistory history).edit last :=
  List.foldl_concat ..

variable {allotment : Allotment} {key : Key} {offset : Nat}

theorem mem_names : (key, offset) ∈ allotment.names ↔ allotment.slots[offset]? = some (some key) := by
  simp only [names, List.mem_filterMap, Prod.exists, List.mem_zipIdx_iff_getElem?,
    Option.map_eq_some_iff, Prod.mk.injEq]
  constructor
  · rintro ⟨slot, index, present, name, filled, rfl, rfl⟩
    rw [present, filled]
  · intro present
    exact ⟨some key, offset, present, key, rfl, rfl, rfl⟩

theorem names_ordered (allotment : Allotment) :
    allotment.names.Pairwise fun first second => first.2 < second.2 := by
  unfold names
  rw [List.pairwise_filterMap]
  apply (zipIdx_ascending allotment.slots).imp
  intro first second before entry held other heldOther
  obtain ⟨_, _, rfl⟩ := Option.map_eq_some_iff.mp held
  obtain ⟨_, _, rfl⟩ := Option.map_eq_some_iff.mp heldOther
  exact before

theorem slot_of_offset? (found : allotment.offset? key = some offset) :
    allotment.slots[offset]? = some (some key) := by
  obtain ⟨bound, named, _⟩ := List.findIdx?_eq_some_iff_getElem.mp found
  rw [List.getElem?_eq_getElem bound, eq_of_beq named]

theorem not_mem_slots (absent : allotment.offset? key = none) : some key ∉ allotment.slots := by
  intro member
  have different := List.findIdx?_eq_none_iff.mp absent (some key) member
  rw [beq_self_eq_true] at different
  cases different

end Allotment

namespace Layout

variable {layout : Layout} {allotment : Allotment} {history : List Edit} {key : Key}

/-- A layout puts its names where the row of slots has them. -/
structure Fills (layout : Layout) (allotment : Allotment) : Prop where
  slot : ∀ key offset,
    allotment.slots[offset]? = some (some key) ↔ layout.offset? key = some offset
  freed : allotment.freed = layout.freed
  size_eq : allotment.slots.length = layout.size

theorem fills_empty : Fills {} {} where
  slot := fun key offset => by simp [offset?, Table.find?]
  freed := rfl
  size_eq := rfl

namespace Fills

variable (fills : layout.Fills allotment)
include fills

theorem offset?_eq (key : Key) : allotment.offset? key = layout.offset? key := by
  cases found : allotment.offset? key with
  | some offset => exact ((fills.slot key offset).mp (Allotment.slot_of_offset? found)).symm
  | none =>
    apply Eq.symm
    rw [Option.eq_none_iff_forall_ne_some]
    intro offset placed
    have occupied := (fills.slot key offset).mpr placed
    exact Allotment.not_mem_slots found (List.mem_of_getElem? occupied)

theorem names_eq (sound : layout.Sound) : allotment.names = layout.table := by
  have distinct {names : List (Key × Nat)}
      (ordered : names.Pairwise fun first second => first.2 < second.2) : names.Nodup :=
    ordered.imp fun before same => absurd (congrArg Prod.snd same) (Nat.ne_of_lt before)
  have perm : allotment.names.Perm layout.table := by
    apply (List.perm_ext_iff_of_nodup (distinct allotment.names_ordered) (distinct sound.ordered)).mpr
    intro entry
    rw [Allotment.mem_names, fills.slot, sound.mem_table]
  apply perm.eq_of_pairwise _ allotment.names_ordered sound.ordered
  intro first second _ _ before after
  omega

theorem slot_add (sound : layout.Sound) (offset : Nat) :
    (allotment.add key).slots[offset]? =
      if offset = layout.next then some (some key) else allotment.slots[offset]? := by
  unfold Allotment.add
  rw [fills.freed]
  cases free : layout.freed with
  | nil =>
    have next : layout.next = allotment.slots.length := by
      rw [Layout.next, free, fills.size_eq]
      rfl
    rw [next]
    rcases Nat.lt_trichotomy offset allotment.slots.length with before | here | beyond
    · rw [List.getElem?_append_left before, if_neg (Nat.ne_of_lt before)]
    · rw [here, List.getElem?_concat_length, if_pos rfl]
    · rw [if_neg (Nat.ne_of_gt beyond), List.getElem?_eq_none beyond.le, List.getElem?_eq_none]
      rw [List.length_append, List.length_singleton]
      exact beyond
  | cons first rest =>
    have bound : first < allotment.slots.length := by
      rw [fills.size_eq, sound.lt_size_iff, free]
      exact Or.inr (List.mem_cons_self ..)
    have next : layout.next = first := by
      rw [Layout.next, free]
      rfl
    rw [next]
    by_cases here : offset = first
    · rw [if_pos here, here, List.getElem?_set_self bound]
    · rw [if_neg here, List.getElem?_set_ne (Ne.symm here)]

theorem add (sound : layout.Sound) (absent : layout.offset? key = none) :
    (layout.add key).Fills (allotment.add key) where
  slot := by
    intro other offset
    rw [fills.slot_add sound, offset?_add sound absent]
    by_cases here : offset = layout.next
    · subst here
      rw [if_pos rfl, Option.some.injEq, Option.some.injEq]
      by_cases same : other = key
      · rw [if_pos same, same]
        exact ⟨fun _ => rfl, fun _ => rfl⟩
      · rw [if_neg same]
        constructor
        · intro equal
          exact absurd equal.symm same
        · intro placed
          exact absurd rfl (sound.offset_ne_next placed)
    · rw [if_neg here, fills.slot]
      by_cases same : other = key
      · rw [if_pos same, same, absent, Option.some.injEq]
        constructor
        · intro placed
          cases placed
        · intro equal
          exact absurd equal.symm here
      · rw [if_neg same]
  freed := by
    unfold Allotment.add Layout.add
    rw [← fills.freed]
    cases allotment.freed <;> rfl
  size_eq := by
    rw [size_add absent, ← fills.size_eq, ← fills.freed]
    unfold Allotment.add
    cases allotment.freed with
    | nil => exact List.length_append
    | cons first rest => exact List.length_set

theorem remove (sound : layout.Sound) (key : Key) :
    (layout.remove key).Fills (allotment.remove key) := by
  have same := fills.offset?_eq key
  cases found : layout.offset? key with
  | none =>
    rw [found] at same
    rw [remove_of_absent found, Allotment.remove, same]
    exact fills
  | some offset =>
    rw [found] at same
    have row : allotment.remove key =
        { slots := allotment.slots.set offset none, freed := offset :: allotment.freed } := by
      rw [Allotment.remove, same]
    rw [row]
    have bound : offset < allotment.slots.length := by
      rw [fills.size_eq]
      exact sound.offset_lt found
    refine ⟨?_, ?_, ?_⟩
    · intro other place
      rw [offset?_remove]
      by_cases here : place = offset
      · subst here
        rw [List.getElem?_set_self bound]
        by_cases removed : other = key
        · simp [removed]
        · rw [if_neg removed]
          constructor
          · intro empty
            cases empty
          · intro placed
            exact absurd (sound.offset_injective placed found) removed
      · rw [List.getElem?_set_ne (Ne.symm here), fills.slot]
        by_cases removed : other = key
        · rw [if_pos removed, removed, found]
          constructor
          · intro placed
            exact absurd (Option.some.inj placed).symm here
          · intro missing
            cases missing
        · rw [if_neg removed]
    · rw [remove_of_found found, fills.freed]
    · rw [size_remove sound, ← fills.size_eq]
      exact List.length_set

end Fills

/-- A layout comes from a history that adds only missing names. -/
inductive Arises : Layout → List Edit → Prop
  | empty : Arises {} []
  | add {layout : Layout} {history : List Edit} {key : Key} (before : Arises layout history)
      (absent : layout.offset? key = none) : Arises (layout.add key) (history ++ [.add key])
  | remove {layout : Layout} {history : List Edit} (before : Arises layout history) (key : Key) :
      Arises (layout.remove key) (history ++ [.remove key])

theorem Arises.sound (arises : layout.Arises history) : layout.Sound := by
  induction arises with
  | empty => exact sound_empty
  | add before absent ih => exact sound_add ih absent
  | remove before key ih => exact sound_remove ih key

/-- The history decides the layout. -/
theorem Arises.fills (arises : layout.Arises history) :
    layout.Fills (Allotment.ofHistory history) := by
  induction arises with
  | empty => exact fills_empty
  | add before absent ih =>
    rw [Allotment.ofHistory_concat]
    exact ih.add before.sound absent
  | remove before key ih =>
    rw [Allotment.ofHistory_concat]
    exact ih.remove before.sound key

end Layout

end HiddenClass
