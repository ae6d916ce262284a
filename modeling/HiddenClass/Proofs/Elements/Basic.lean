import HiddenClass.Elements.Basic
import HiddenClass.Elements.Indices
import Mathlib.Data.List.Basic

/-!
What an array holds at each index, in whichever of its two containers.
-/

namespace HiddenClass.Indices

variable {n m : Nat} {numbers : List Nat}

theorem mem_insert : m ∈ insert n numbers ↔ m = n ∨ m ∈ numbers := by
  induction numbers with
  | nil => simp [insert]
  | cons first rest ih =>
    unfold insert
    by_cases before : n < first
    · rw [if_pos before, List.mem_cons]
    · rw [if_neg before]
      by_cases same : n = first
      · simp [same]
      · rw [if_neg same, List.mem_cons, ih, List.mem_cons, or_left_comm]

theorem insert_pairwise (ascending : numbers.Pairwise (· < ·)) :
    (insert n numbers).Pairwise (· < ·) := by
  induction numbers with
  | nil => exact List.pairwise_singleton _ _
  | cons first rest ih =>
    obtain ⟨above, restAscending⟩ := List.pairwise_cons.mp ascending
    unfold insert
    by_cases before : n < first
    · rw [if_pos before]
      refine List.pairwise_cons.mpr ⟨fun m member => ?_, ascending⟩
      rcases List.mem_cons.mp member with same | later
      · rw [same]
        exact before
      · exact Nat.lt_trans before (above m later)
    · rw [if_neg before]
      by_cases same : n = first
      · rw [if_pos same]
        exact ascending
      · rw [if_neg same]
        refine List.pairwise_cons.mpr ⟨fun m member => ?_, ih restAscending⟩
        rcases mem_insert.mp member with new | old
        · omega
        · exact above m old

theorem mem_ascending : n ∈ ascending numbers ↔ n ∈ numbers := by
  induction numbers with
  | nil => exact Iff.rfl
  | cons first rest ih =>
    rw [ascending, List.foldr_cons, mem_insert, List.mem_cons]
    exact or_congr_right ih

theorem ascending_pairwise (numbers : List Nat) : (ascending numbers).Pairwise (· < ·) := by
  induction numbers with
  | nil => exact List.Pairwise.nil
  | cons first rest ih => exact insert_pairwise ih

end HiddenClass.Indices

namespace HiddenClass.Elements

/-! ### The map -/

section Entries

variable {entries : List (Nat × Value)} {index other : Nat} {value : Value}

theorem lookup_cons (entry : Nat × Value) (entries : List (Nat × Value)) (index : Nat) :
    List.lookup index (entry :: entries) =
      if index = entry.1 then some entry.2 else entries.lookup index := by
  rw [List.lookup_cons]
  by_cases same : index = entry.1
  · simp [same]
  · simp [same, beq_eq_false_iff_ne.mpr same]

theorem lookup_filter (keep : Nat → Bool) (entries : List (Nat × Value)) (index : Nat) :
    (entries.filter fun entry => keep entry.1).lookup index =
      if keep index then entries.lookup index else none := by
  induction entries with
  | nil => simp
  | cons entry rest ih =>
    by_cases kept : keep entry.1 = true
    · rw [List.filter_cons, if_pos kept, lookup_cons, lookup_cons, ih]
      by_cases same : index = entry.1
      · simp [same, kept]
      · simp [same]
    · rw [List.filter_cons, if_neg kept, ih, lookup_cons]
      by_cases same : index = entry.1
      · simp [same, kept]
      · simp [same]

theorem lookup_isSome_iff : (entries.lookup index).isSome = true ↔ index ∈ entries.map Prod.fst := by
  induction entries with
  | nil => simp
  | cons entry rest ih =>
    rw [lookup_cons, List.map_cons, List.mem_cons, ← ih]
    by_cases same : index = entry.1
    · simp [same]
    · simp [same]

theorem lookup_eq_none_of_lt (above : ∀ entry ∈ entries, index < entry.1) :
    entries.lookup index = none := by
  rw [← Option.not_isSome_iff_eq_none, lookup_isSome_iff]
  intro member
  obtain ⟨entry, present, same⟩ := List.mem_map.mp member
  exact Nat.lt_irrefl index (same ▸ above entry present)

theorem mem_of_lookup (found : entries.lookup index = some value) : (index, value) ∈ entries := by
  obtain ⟨front, back, split, _⟩ := List.lookup_eq_some_iff.mp found
  simp [split]

theorem lookup_eq_some_iff (ascending : entries.Pairwise fun first second => first.1 < second.1) :
    entries.lookup index = some value ↔ (index, value) ∈ entries := by
  refine ⟨mem_of_lookup, fun member => ?_⟩
  obtain ⟨front, back, split⟩ := List.append_of_mem member
  refine List.lookup_eq_some_iff.mpr ⟨front, back, split, fun entry present => ?_⟩
  rw [split] at ascending
  have before := (List.pairwise_append.mp ascending).2.2 entry present (index, value) (by simp)
  simpa using Nat.ne_of_gt before

theorem lookup_insertEntry (ascending : entries.Pairwise fun first second => first.1 < second.1)
    (index : Nat) (value : Value) (other : Nat) :
    (insertEntry index value entries).lookup other =
      if other = index then some value else entries.lookup other := by
  induction entries with
  | nil => rw [insertEntry, lookup_cons]
  | cons entry rest ih =>
    obtain ⟨above, restAscending⟩ := List.pairwise_cons.mp ascending
    unfold insertEntry
    by_cases before : entry.1 < index
    · rw [if_pos before, lookup_cons, ih restAscending, lookup_cons]
      by_cases same : other = entry.1
      · have different : other ≠ index := by omega
        rw [if_pos same, if_neg different, if_pos same]
      · rw [if_neg same, if_neg same]
    · rw [if_neg before]
      by_cases here : entry.1 = index
      · rw [if_pos here, lookup_cons, lookup_cons, here]
        by_cases same : other = index
        · rw [if_pos same, if_pos same]
        · rw [if_neg same, if_neg same, if_neg same]
      · rw [if_neg here, lookup_cons]

theorem mem_insertEntry {entry : Nat × Value} (member : entry ∈ insertEntry index value entries) :
    entry = (index, value) ∨ entry ∈ entries := by
  induction entries with
  | nil => exact Or.inl (List.mem_singleton.mp member)
  | cons first rest ih =>
    unfold insertEntry at member
    by_cases before : first.1 < index
    · rw [if_pos before] at member
      rcases List.mem_cons.mp member with same | later
      · exact Or.inr (same ▸ List.mem_cons_self ..)
      · exact (ih later).imp_right (List.mem_cons_of_mem _)
    · rw [if_neg before] at member
      by_cases here : first.1 = index
      · rw [if_pos here] at member
        exact (List.mem_cons.mp member).imp_right (List.mem_cons_of_mem _)
      · rw [if_neg here] at member
        exact List.mem_cons.mp member

theorem insertEntry_ascending (ascending : entries.Pairwise fun first second => first.1 < second.1)
    (index : Nat) (value : Value) :
    (insertEntry index value entries).Pairwise fun first second => first.1 < second.1 := by
  induction entries with
  | nil => exact List.pairwise_singleton _ _
  | cons first rest ih =>
    obtain ⟨above, restAscending⟩ := List.pairwise_cons.mp ascending
    unfold insertEntry
    by_cases before : first.1 < index
    · rw [if_pos before]
      refine List.pairwise_cons.mpr ⟨fun entry member => ?_, ih restAscending⟩
      rcases mem_insertEntry member with new | old
      · rw [new]
        exact before
      · exact above entry old
    · rw [if_neg before]
      by_cases here : first.1 = index
      · rw [if_pos here]
        refine List.pairwise_cons.mpr ⟨fun entry member => ?_, restAscending⟩
        exact here ▸ above entry member
      · rw [if_neg here]
        have after : index < first.1 := by omega
        refine List.pairwise_cons.mpr ⟨fun entry member => ?_, ascending⟩
        rcases List.mem_cons.mp member with same | later
        · rw [same]
          exact after
        · exact Nat.lt_trans after (above entry later)

end Entries

/-! ### Both containers -/

/-- What is taken out at an index: a value, or a hole that the map has. -/
def element (elements : Elements) (index : Nat) : Option Value := (elements.take index).1

/-- Each index has one place for its value. -/
structure Sound (elements : Elements) : Prop where
  vector : elements.vector.size ≤ elements.maxVectorSize
  ascending : elements.map.Pairwise fun first second => first.1 < second.1
  above : ∀ entry ∈ elements.map, elements.maxVectorSize ≤ entry.1

variable {elements : Elements} {index other : Nat} {value : Value}

theorem element_of_lt (small : index < elements.maxVectorSize) :
    elements.element index = elements.vector[index]?.filter fun value => !value.isHole := by
  have held : elements.peek index = elements.vector[index]?.filter fun value => !value.isHole := by
    rw [peek, Elements.held, if_pos small]
  unfold element take
  rw [if_pos small, ← held]
  cases elements.peek index <;> rfl

theorem element_of_ge (large : ¬index < elements.maxVectorSize) :
    elements.element index = elements.map.lookup index := by
  unfold element take
  rw [if_neg large]
  cases elements.map.lookup index <;> rfl

theorem element_eq (elements : Elements) (index : Nat) :
    elements.element index =
      if index < elements.maxVectorSize then
        elements.vector[index]?.filter fun value => !value.isHole
      else elements.map.lookup index := by
  by_cases small : index < elements.maxVectorSize
  · rw [if_pos small, element_of_lt small]
  · rw [if_neg small, element_of_ge small]

theorem element_congr (changed elements : Elements) (vector : changed.vector = elements.vector)
    (map : changed.map = elements.map) (bound : changed.maxVectorSize = elements.maxVectorSize)
    (index : Nat) : changed.element index = elements.element index := by
  rw [element_eq, element_eq, vector, map, bound]

theorem peek_eq (elements : Elements) (index : Nat) :
    elements.peek index = (elements.element index).filter fun value => !value.isHole := by
  unfold peek Elements.held
  by_cases small : index < elements.maxVectorSize
  · rw [if_pos small, element_of_lt small, Option.filter_filter]
    simp
  · rw [if_neg small, element_of_ge small]

theorem element_ofLength (length : Nat) (config : Config) (index : Nat) :
    (ofLength length config).element index = none := by
  rw [element_eq, ofLength]
  by_cases small : index < config.maxVectorSize
  · rw [if_pos small, Array.getElem?_replicate]
    split <;> simp [Value.isHole]
  · rw [if_neg small]
    rfl

theorem sound_ofLength (length : Nat) (config : Config) : (ofLength length config).Sound := by
  refine ⟨?_, List.Pairwise.nil, fun entry member => by cases member⟩
  simp only [ofLength, Array.size_replicate]
  split <;> omega

/-! ### Taking out -/

theorem take_of_none (absent : elements.element index = none) :
    elements.take index = (none, elements) := by
  unfold element take at absent
  unfold take
  by_cases small : index < elements.maxVectorSize
  · rw [if_pos small] at absent ⊢
    cases found : elements.peek index with
    | none => rfl
    | some value =>
      rw [found] at absent
      cases absent
  · rw [if_neg small] at absent ⊢
    cases found : elements.map.lookup index with
    | none => rfl
    | some value =>
      rw [found] at absent
      cases absent

theorem take_snd (elements : Elements) (index : Nat) :
    ∃ vector map, (elements.take index).2 = { elements with vector, map } ∧
      vector.size = elements.vector.size ∧ map.Sublist elements.map := by
  unfold take
  by_cases small : index < elements.maxVectorSize
  · rw [if_pos small]
    cases elements.peek index with
    | none => exact ⟨elements.vector, elements.map, rfl, rfl, List.Sublist.refl _⟩
    | some value => exact ⟨_, elements.map, rfl, Array.size_setIfInBounds, List.Sublist.refl _⟩
  · rw [if_neg small]
    cases elements.map.lookup index with
    | none => exact ⟨elements.vector, elements.map, rfl, rfl, List.Sublist.refl _⟩
    | some value => exact ⟨elements.vector, _, rfl, rfl, List.filter_sublist⟩

theorem sound_take (sound : elements.Sound) (index : Nat) : (elements.take index).2.Sound := by
  obtain ⟨vector, map, same, size, smaller⟩ := take_snd elements index
  rw [same]
  exact ⟨size ▸ sound.vector, sound.ascending.sublist smaller,
    fun entry member => sound.above entry (smaller.subset member)⟩

theorem element_take (elements : Elements) (index other : Nat) :
    (elements.take index).2.element other =
      if other = index then none else elements.element other := by
  cases present : elements.element index with
  | none =>
    rw [take_of_none present]
    by_cases same : other = index
    · rw [if_pos same, same, present]
    · rw [if_neg same]
  | some value =>
    by_cases small : index < elements.maxVectorSize
    · have found : elements.peek index = some value := by
        rw [element_of_lt small] at present
        rw [peek, Elements.held, if_pos small, present]
      have taken : (elements.take index).2 =
          { elements with vector := elements.vector.setIfInBounds index .hole } := by
        rw [take, if_pos small, found]
      rw [taken]
      simp only [element_eq]
      by_cases near : other < elements.maxVectorSize
      · simp only [if_pos near, Array.getElem?_setIfInBounds]
        by_cases same : other = index
        · rw [if_pos same.symm, if_pos same]
          split <;> rfl
        · rw [if_neg (Ne.symm same), if_neg same]
      · have different : other ≠ index := by omega
        simp only [if_neg near, if_neg different]
    · have found : elements.map.lookup index = some value := (element_of_ge small).symm.trans present
      have taken : (elements.take index).2 =
          { elements with map := elements.map.filter fun entry => entry.1 ≠ index } := by
        rw [take, if_neg small, found]
      rw [taken]
      simp only [element_eq]
      by_cases near : other < elements.maxVectorSize
      · have different : other ≠ index := by omega
        simp only [if_pos near, if_neg different]
      · simp only [if_neg near]
        have filtered := lookup_filter (fun entry => decide (entry ≠ index)) elements.map other
        refine filtered.trans ?_
        by_cases same : other = index
        · simp [same]
        · simp [same]

/-! ### Putting in -/

theorem store_eq (elements : Elements) (index : Nat) (value : Value) :
    ∃ vector map, elements.store index value = { elements with vector, map } := by
  unfold store
  split
  · exact ⟨_, elements.map, rfl⟩
  · exact ⟨elements.vector, _, rfl⟩

theorem sound_store (sound : elements.Sound) (index : Nat) (value : Value) :
    (elements.store index value).Sound := by
  have vector := sound.vector
  unfold store
  by_cases small : index < elements.maxVectorSize
  · rw [if_pos small]
    refine ⟨?_, sound.ascending, sound.above⟩
    simp only [Array.size_setIfInBounds, Array.size_append, Array.size_replicate]
    omega
  · rw [if_neg small]
    refine ⟨vector, insertEntry_ascending sound.ascending index value, fun entry member => ?_⟩
    rcases mem_insertEntry member with new | old
    · rw [new]
      exact Nat.not_lt.mp small
    · exact sound.above entry old

/-- A hole put into the vector leaves nothing at the index; in the map it is held. -/
theorem element_store (sound : elements.Sound) (index : Nat) (value : Value) (other : Nat) :
    (elements.store index value).element other =
      if other = index then
        if value.isHole && index < elements.maxVectorSize then none else some value
      else elements.element other := by
  by_cases small : index < elements.maxVectorSize
  · rw [store, if_pos small]
    simp only [element_eq]
    by_cases near : other < elements.maxVectorSize
    · simp only [if_pos near, Array.getElem?_setIfInBounds]
      by_cases same : other = index
      · have bound : index < (elements.vector ++ Array.replicate
            (index + 1 - elements.vector.size) Value.hole).size := by
          simp only [Array.size_append, Array.size_replicate]
          omega
        rw [if_pos same.symm, if_pos bound, if_pos same]
        cases hole : value.isHole <;> simp [hole, small]
      · rw [if_neg (Ne.symm same), if_neg same, Array.getElem?_append]
        by_cases inside : other < elements.vector.size
        · rw [if_pos inside]
        · rw [if_neg inside, Array.getElem?_replicate,
            Array.getElem?_eq_none (Nat.not_lt.mp inside)]
          split <;> rfl
    · have different : other ≠ index := by omega
      simp only [if_neg near, if_neg different]
  · rw [store, if_neg small]
    simp only [element_eq]
    by_cases near : other < elements.maxVectorSize
    · have different : other ≠ index := by omega
      simp only [if_pos near, if_neg different]
    · simp only [if_neg near]
      refine (lookup_insertEntry sound.ascending index value other).trans ?_
      simp [small]

/-! ### Cutting off -/

theorem compact_eq (elements : Elements) (length : Nat) :
    ∃ vector map, elements.compact length = { elements with vector, map } := by
  unfold compact
  split
  · exact ⟨elements.vector, _, rfl⟩
  · exact ⟨_, [], rfl⟩

theorem sound_compact (sound : elements.Sound) (length : Nat) : (elements.compact length).Sound := by
  have vector := sound.vector
  unfold compact
  by_cases far : elements.maxVectorSize < length
  · rw [if_pos far]
    exact ⟨vector, sound.ascending.filter _,
      fun entry member => sound.above entry (List.mem_of_mem_filter member)⟩
  · rw [if_neg far]
    refine ⟨?_, List.Pairwise.nil, fun entry member => by cases member⟩
    simp only [Array.take_eq_extract, Array.size_extract]
    omega

theorem element_compact (elements : Elements) (length index : Nat) :
    (elements.compact length).element index =
      if index < length then elements.element index else none := by
  by_cases far : elements.maxVectorSize < length
  · rw [compact, if_pos far]
    simp only [element_eq]
    by_cases small : index < elements.maxVectorSize
    · have below : index < length := by omega
      simp only [if_pos small, if_pos below]
    · simp only [if_neg small]
      refine (lookup_filter (fun entry => decide (entry < length)) elements.map index).trans ?_
      simp
  · rw [compact, if_neg far]
    simp only [element_eq]
    by_cases small : index < elements.maxVectorSize
    · simp only [if_pos small]
      by_cases kept : index < length
      · rw [if_pos kept, Array.take_eq_extract, Array.getElem?_extract, Nat.sub_zero, Nat.zero_add]
        by_cases inside : index < elements.vector.size
        · rw [if_pos (by omega)]
        · rw [if_neg (by omega), Array.getElem?_eq_none (by omega)]
      · rw [if_neg kept, Array.take_eq_extract, Array.getElem?_extract, if_neg (by omega)]
        rfl
    · have above : ¬index < length := by omega
      simp only [if_neg small, if_neg above]
      rfl

/-! ### Listing -/

theorem mem_indices (sound : elements.Sound) :
    index ∈ elements.indices ↔ (elements.element index).isSome = true := by
  unfold indices
  rw [List.mem_append, List.mem_filterMap]
  have vector : (∃ entry ∈ elements.vector.toList.zipIdx,
      (if entry.1.isHole then none else some entry.2) = some index) ↔
      ∃ value, elements.vector[index]? = some value ∧ value.isHole = false := by
    simp only [Prod.exists, List.mk_mem_zipIdx_iff_getElem?, Array.getElem?_toList]
    constructor
    · rintro ⟨value, place, found, kept⟩
      cases hole : value.isHole with
      | true => simp [hole] at kept
      | false =>
        rw [hole, if_neg Bool.false_ne_true, Option.some.injEq] at kept
        exact ⟨value, kept ▸ found, hole⟩
    · rintro ⟨value, found, solid⟩
      exact ⟨value, index, found, by rw [solid, if_neg Bool.false_ne_true]⟩
  refine (or_congr vector lookup_isSome_iff.symm).trans ?_
  have size := sound.vector
  by_cases small : index < elements.maxVectorSize
  · have outside : elements.map.lookup index = none :=
      lookup_eq_none_of_lt fun entry member => Nat.lt_of_lt_of_le small (sound.above entry member)
    rw [element_of_lt small, outside]
    cases found : elements.vector[index]? with
    | none => simp
    | some value => cases hole : value.isHole <;> simp [Option.filter, hole]
  · have outside : elements.vector[index]? = none := Array.getElem?_eq_none (by omega)
    rw [element_of_ge small, outside]
    simp

end HiddenClass.Elements
