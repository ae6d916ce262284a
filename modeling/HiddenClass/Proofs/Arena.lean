import HiddenClass.Arena
import Mathlib.Data.Set.Card
import Mathlib.Order.Basic

/-!
An arena read as a partial map from handles to cells. Allocation extends the map at a handle that
it did not have, `set` changes it at one live handle, and `retain` restricts it.
-/

namespace HiddenClass

/-- The numbers of the entries of a list ascend. -/
theorem zipIdx_ascending {α : Type} (list : List α) :
    list.zipIdx.Pairwise fun first second => first.2 < second.2 := by
  have ascending : (list.zipIdx.map Prod.snd).Pairwise (· < ·) := by
    rw [List.zipIdx_map_snd]
    exact List.pairwise_lt_range'
  exact List.pairwise_map.mp ascending

namespace Arena

variable {α : Type} {arena : Arena α} {handle other : Handle} {cell : α}

/-- The vacant slots are the empty ones, each listed once, and the size counts the others. -/
structure Sound (arena : Arena α) : Prop where
  distinct : arena.vacant.Nodup
  empty : ∀ index, index ∈ arena.vacant ↔
    ∃ entry, arena.entries[index]? = some entry ∧ entry.cell = none
  counted : arena.size = arena.entries.countP fun entry => entry.cell.isSome

theorem sound_empty : Sound ({} : Arena α) where
  distinct := List.nodup_nil
  empty := by simp
  counted := by simp

theorem get?_eq (arena : Arena α) (handle : Handle) :
    arena.get? handle = (arena.entries[handle.index]?).bind fun entry =>
      if handle = entry.handle handle.index then entry.cell else none := by
  unfold get?
  cases arena.entries[handle.index]? with
  | none => rfl
  | some entry => simp only [Option.bind_some, eq_comm]

theorem get?_eq_some_iff : arena.get? handle = some cell ↔
    ∃ entry, arena.entries[handle.index]? = some entry ∧ handle = entry.handle handle.index ∧
      entry.cell = some cell := by
  rw [get?_eq]
  cases arena.entries[handle.index]? with
  | none => simp
  | some entry => simp

theorem contains_iff : arena.contains handle = true ↔ ∃ cell, arena.get? handle = some cell := by
  simp only [contains, Option.isSome_iff_exists]

theorem contains_of_get? (found : arena.get? handle = some cell) : arena.contains handle = true :=
  contains_iff.mpr ⟨cell, found⟩

theorem get?_eq_none_iff : arena.get? handle = none ↔ ¬arena.contains handle = true := by
  simp [contains]

/-- A slot has one live handle at most. -/
theorem eq_of_index_eq (first : arena.contains handle = true) (second : arena.contains other = true)
    (same : handle.index = other.index) : handle = other := by
  obtain ⟨_, found⟩ := contains_iff.mp first
  obtain ⟨_, foundOther⟩ := contains_iff.mp second
  obtain ⟨entry, at_handle, current, _⟩ := get?_eq_some_iff.mp found
  obtain ⟨entry', at_other, currentOther, _⟩ := get?_eq_some_iff.mp foundOther
  rw [same] at at_handle
  have entries : entry = entry' := Option.some.inj (at_handle.symm.trans at_other)
  rw [current, currentOther, entries, same]

theorem index_lt_capacity (live : arena.contains handle = true) : handle.index < arena.capacity := by
  obtain ⟨_, found⟩ := contains_iff.mp live
  obtain ⟨_, occupied, _⟩ := get?_eq_some_iff.mp found
  exact (Array.getElem?_eq_some_iff.mp occupied).1

/-! ### Allocation -/

/-- The handle that `alloc` answers was not live before. -/
theorem get?_alloc_fresh (sound : arena.Sound) (cell : α) :
    arena.get? (arena.alloc cell).1 = none := by
  rw [Option.eq_none_iff_forall_ne_some]
  intro former found
  obtain ⟨entry, occupied, _, filled⟩ := get?_eq_some_iff.mp found
  unfold alloc at occupied
  cases vacancy : arena.vacant with
  | nil => simp [vacancy, Entry.handle] at occupied
  | cons index rest =>
    rw [vacancy] at occupied
    have member : index ∈ arena.vacant := by simp [vacancy]
    obtain ⟨entry', present, empty⟩ := (sound.empty index).mp member
    have same : entry' = entry := Option.some.inj (present.symm.trans occupied)
    rw [same, filled] at empty
    cases empty

theorem get?_alloc (sound : arena.Sound) (cell : α) (handle : Handle) :
    (arena.alloc cell).2.get? handle =
      if handle = (arena.alloc cell).1 then some cell else arena.get? handle := by
  unfold alloc
  cases vacancy : arena.vacant with
  | nil =>
    simp only [get?_eq, Array.getElem?_push]
    by_cases last : handle.index = arena.entries.size
    · simp [last]
    · have different : handle ≠ Entry.handle ⟨0, some cell⟩ arena.entries.size :=
        fun same => last (congrArg Handle.index same)
      rw [if_neg different, if_neg last]
  | cons index rest =>
    have member : index ∈ arena.vacant := by simp [vacancy]
    obtain ⟨entry, present, empty⟩ := (sound.empty index).mp member
    have bound := (Array.getElem?_eq_some_iff.mp present).1
    simp only [get?_eq, present, Option.getD_some, Array.getElem?_setIfInBounds]
    by_cases here : index = handle.index
    · subst here
      simp only [bound, present, empty, if_true, Option.bind_some, ite_self]
      rfl
    · have different : handle ≠ entry.handle index :=
        fun same => here (congrArg Handle.index same).symm
      rw [if_neg different, if_neg here]

theorem sound_alloc (sound : arena.Sound) (cell : α) : (arena.alloc cell).2.Sound := by
  unfold alloc
  cases vacancy : arena.vacant with
  | nil =>
    refine ⟨by simp, ?_, ?_⟩
    · intro index
      have before := sound.empty index
      simp only [vacancy, List.not_mem_nil, false_iff, not_exists, not_and] at before
      simp only [List.not_mem_nil, false_iff, not_exists, not_and, Array.getElem?_push]
      intro entry
      split
      · rintro ⟨⟩
        simp
      · exact before entry
    · simp only [sound.counted, Array.countP_push, Option.isSome_some, if_true]
  | cons index rest =>
    have member : index ∈ arena.vacant := by simp [vacancy]
    obtain ⟨entry, present, empty⟩ := (sound.empty index).mp member
    obtain ⟨bound, value⟩ := Array.getElem?_eq_some_iff.mp present
    have distinct : (index :: rest).Nodup := vacancy ▸ sound.distinct
    obtain ⟨absent, restDistinct⟩ := List.nodup_cons.mp distinct
    refine ⟨restDistinct, ?_, ?_⟩
    · intro place
      have before := sound.empty place
      simp only [vacancy, List.mem_cons] at before
      simp only [present, Option.getD_some, Array.getElem?_setIfInBounds]
      by_cases here : index = place
      · subst here
        simp [absent, bound]
      · rw [if_neg here, ← before]
        simp [Ne.symm here]
    · simp only [present, Option.getD_some, Array.setIfInBounds_def, dif_pos bound,
        Array.countP_set, value, empty, Option.isSome_none, Option.isSome_some, if_true,
        sound.counted]
      simp

theorem contains_alloc (sound : arena.Sound) (cell : α) (handle : Handle) :
    (arena.alloc cell).2.contains handle = true ↔
      handle = (arena.alloc cell).1 ∨ arena.contains handle = true := by
  simp only [contains, get?_alloc sound]
  split <;> simp [*]

/-! ### Replacement -/

theorem get?_set (arena : Arena α) (handle other : Handle) (cell : α) :
    (arena.set handle cell).get? other =
      if other = handle ∧ arena.contains handle = true then some cell else arena.get? other := by
  by_cases live : arena.contains handle = true
  · obtain ⟨former, found⟩ := contains_iff.mp live
    obtain ⟨entry, occupied, current, _⟩ := get?_eq_some_iff.mp found
    simp only [set, live, if_true, and_true, get?_eq, Array.getElem?_modify]
    by_cases here : handle.index = other.index
    · rw [← here, occupied]
      have renewed : Entry.handle { entry with cell := some cell } handle.index = handle :=
        current.symm
      simp only [if_true, Option.map_some, Option.bind_some, renewed, ← current]
      by_cases same : other = handle
      · rw [if_pos same, if_pos same]
      · rw [if_neg same, if_neg same, if_neg same]
    · have different : other ≠ handle := fun same => here (congrArg Handle.index same).symm
      rw [if_neg different, if_neg here]
  · simp [set, live]

theorem get?_set_live {arena : Arena α} {handle : Handle} (live : arena.contains handle = true)
    (cell : α) (other : Handle) :
    (arena.set handle cell).get? other = if other = handle then some cell else arena.get? other := by
  rw [get?_set]
  by_cases here : other = handle
  · rw [if_pos ⟨here, live⟩, if_pos here]
  · rw [if_neg fun both => here both.1, if_neg here]

/-- Putting a cell where it is already changes nothing. -/
theorem set_self {arena : Arena α} {handle : Handle} (found : arena.get? handle = some cell) :
    arena.set handle cell = arena := by
  obtain ⟨entry, occupied, _, filled⟩ := get?_eq_some_iff.mp found
  have entries : (arena.entries.modify handle.index fun entry => { entry with cell := some cell }) =
      arena.entries := by
    refine Array.ext_getElem? fun index => ?_
    rw [Array.getElem?_modify]
    by_cases here : handle.index = index
    · rw [if_pos here, ← here, occupied, ← filled]
      rfl
    · rw [if_neg here]
  unfold set
  rw [if_pos (contains_of_get? found), entries]

theorem contains_set (arena : Arena α) (handle other : Handle) (cell : α) :
    (arena.set handle cell).contains other = arena.contains other := by
  by_cases changed : other = handle ∧ arena.contains handle = true
  · rw [contains, get?_set, if_pos changed, changed.1, changed.2, Option.isSome_some]
  · rw [contains, get?_set, if_neg changed, contains]

theorem sound_set (sound : arena.Sound) (handle : Handle) (cell : α) :
    (arena.set handle cell).Sound := by
  by_cases live : arena.contains handle = true
  · obtain ⟨former, found⟩ := contains_iff.mp live
    obtain ⟨entry, occupied, _, filled⟩ := get?_eq_some_iff.mp found
    obtain ⟨bound, value⟩ := Array.getElem?_eq_some_iff.mp occupied
    simp only [set, live, if_true]
    refine ⟨sound.distinct, ?_, ?_⟩
    · intro index
      simp only [sound.empty index, Array.getElem?_modify]
      by_cases here : handle.index = index
      · subst here
        simp [occupied, filled]
      · rw [if_neg here]
    · have replaced : arena.entries.modify handle.index (fun entry => { entry with cell := some cell }) =
          arena.entries.set handle.index { entry with cell := some cell } bound := by
        apply Array.ext_getElem?
        intro index
        rw [Array.getElem?_modify, Array.getElem?_set]
        by_cases here : handle.index = index
        · subst here
          simp [bound, value]
        · simp [here]
      have positive : 0 < arena.entries.countP fun entry => entry.cell.isSome :=
        Array.countP_pos_iff.mpr ⟨entry, Array.mem_of_getElem? occupied, by simp [filled]⟩
      rw [replaced, Array.countP_set]
      simp only [value, filled, Option.isSome_some, if_true, sound.counted]
      omega
  · simpa [set, live] using sound

/-! ### Collection -/

theorem mem_handles : handle ∈ arena.handles ↔ arena.contains handle = true := by
  simp only [handles, List.mem_filterMap, Prod.exists, List.mem_zipIdx_iff_getElem?,
    Array.getElem?_toList, Option.map_eq_some_iff, contains_iff, get?_eq_some_iff]
  constructor
  · rintro ⟨entry, index, occupied, cell, filled, rfl⟩
    exact ⟨cell, entry, occupied, rfl, filled⟩
  · rintro ⟨cell, entry, occupied, current, filled⟩
    exact ⟨entry, handle.index, occupied, cell, filled, current.symm⟩

theorem handles_pairwise (arena : Arena α) :
    arena.handles.Pairwise fun first second => first.index < second.index := by
  unfold handles
  rw [List.pairwise_filterMap]
  refine (zipIdx_ascending arena.entries.toList).imp ?_
  intro first second before handle held other heldOther
  simp only [Option.map_eq_some_iff] at held heldOther
  obtain ⟨_, _, rfl⟩ := held
  obtain ⟨_, _, rfl⟩ := heldOther
  exact before

theorem handles_nodup (arena : Arena α) : arena.handles.Nodup :=
  arena.handles_pairwise.imp fun {first second} (before : first.index < second.index) same =>
    absurd (congrArg Handle.index same) (Nat.ne_of_lt before)

theorem length_handles_le (arena : Arena α) : arena.handles.length ≤ arena.capacity := by
  refine (List.length_filterMap_le ..).trans_eq ?_
  rw [List.length_zipIdx, Array.length_toList, capacity]

theorem length_handles (sound : arena.Sound) : arena.handles.length = arena.size := by
  rw [sound.counted, ← Array.countP_toList]
  unfold handles
  rw [List.length_filterMap_eq_countP]
  simp only [Option.isSome_map]
  have entries : arena.entries.toList = arena.entries.toList.zipIdx.map Prod.fst :=
    (List.zipIdx_map_fst _ _).symm
  exact (List.countP_map (p := fun entry : Entry α => entry.cell.isSome) (f := Prod.fst)).symm.trans
    (congrArg _ entries.symm)

theorem get?_release (live : arena.contains handle = true) (other : Handle) :
    (arena.release handle).get? other = if other = handle then none else arena.get? other := by
  obtain ⟨former, found⟩ := contains_iff.mp live
  obtain ⟨entry, occupied, current, _⟩ := get?_eq_some_iff.mp found
  simp only [release, get?_eq, Array.getElem?_modify]
  by_cases here : handle.index = other.index
  · rw [← here, occupied]
    simp only [if_true, Option.map_some, Option.bind_some, ← current, ite_self]
    by_cases same : other = handle
    · rw [if_pos same]
    · rw [if_neg same, if_neg same]
  · have different : other ≠ handle := fun same => here (congrArg Handle.index same).symm
    rw [if_neg different, if_neg here]

theorem sound_release (sound : arena.Sound) (live : arena.contains handle = true) :
    (arena.release handle).Sound := by
  obtain ⟨former, found⟩ := contains_iff.mp live
  obtain ⟨entry, occupied, _, filled⟩ := get?_eq_some_iff.mp found
  obtain ⟨bound, value⟩ := Array.getElem?_eq_some_iff.mp occupied
  refine ⟨?_, ?_, ?_⟩
  · refine List.nodup_cons.mpr ⟨?_, sound.distinct⟩
    intro vacant
    obtain ⟨entry', present, empty⟩ := (sound.empty _).mp vacant
    have same : entry' = entry := Option.some.inj (present.symm.trans occupied)
    rw [same, filled] at empty
    cases empty
  · intro index
    simp only [release, List.mem_cons, sound.empty index, Array.getElem?_modify]
    by_cases here : handle.index = index
    · subst here
      simp [occupied]
    · simp [here, Ne.symm here]
  · have replaced : arena.entries.modify handle.index
        (fun entry => { recycled := entry.recycled + 1, cell := none }) =
        arena.entries.set handle.index { recycled := entry.recycled + 1, cell := none } bound := by
      apply Array.ext_getElem?
      intro index
      rw [Array.getElem?_modify, Array.getElem?_set]
      by_cases here : handle.index = index
      · subst here
        simp [bound, value]
      · simp [here]
    simp only [release, replaced, Array.countP_set, value, filled, Option.isSome_some,
      Option.isSome_none, if_true, sound.counted]
    simp

theorem contains_release (live : arena.contains handle = true) (different : other ≠ handle)
    (present : arena.contains other = true) : (arena.release handle).contains other = true := by
  rw [contains, get?_release live, if_neg different]
  exact present

/-- Releasing distinct live handles takes exactly these out of the map. -/
theorem get?_foldl_release (dropped : List Handle) (arena : Arena α) (distinct : dropped.Nodup)
    (live : ∀ handle ∈ dropped, arena.contains handle = true) (other : Handle) :
    (dropped.foldl release arena).get? other =
      if other ∈ dropped then none else arena.get? other := by
  induction dropped generalizing arena with
  | nil => simp
  | cons first rest ih =>
    obtain ⟨absent, restDistinct⟩ := List.nodup_cons.mp distinct
    have firstLive := live first (List.mem_cons_self ..)
    have restLive : ∀ handle ∈ rest, (arena.release first).contains handle = true :=
      fun handle member => contains_release firstLive (fun same => absent (same ▸ member))
        (live handle (List.mem_cons_of_mem _ member))
    rw [List.foldl_cons, ih (arena.release first) restDistinct restLive, get?_release firstLive]
    by_cases inRest : other ∈ rest
    · simp [inRest]
    · by_cases same : other = first
      · simp [same]
      · simp [inRest, same]

theorem sound_foldl_release (dropped : List Handle) (arena : Arena α) (sound : arena.Sound)
    (distinct : dropped.Nodup) (live : ∀ handle ∈ dropped, arena.contains handle = true) :
    (dropped.foldl release arena).Sound := by
  induction dropped generalizing arena with
  | nil => exact sound
  | cons first rest ih =>
    obtain ⟨absent, restDistinct⟩ := List.nodup_cons.mp distinct
    have firstLive := live first (List.mem_cons_self ..)
    exact ih (arena.release first) (sound_release sound firstLive) restDistinct
      fun handle member => contains_release firstLive (fun same => absent (same ▸ member))
        (live handle (List.mem_cons_of_mem _ member))

section Retain

variable (keep : Handle → Bool)

theorem mem_dropped (handle : Handle) :
    handle ∈ arena.handles.filter (fun handle => !keep handle) ↔
      keep handle = false ∧ arena.contains handle = true := by
  rw [List.mem_filter, mem_handles, Bool.not_eq_true', and_comm]

theorem sound_retain (sound : arena.Sound) : (arena.retain keep).2.Sound :=
  sound_foldl_release _ arena sound (arena.handles_nodup.filter _)
    fun handle member => ((mem_dropped keep handle).mp member).2

theorem get?_retain (handle : Handle) :
    (arena.retain keep).2.get? handle = if keep handle then arena.get? handle else none := by
  refine (get?_foldl_release _ arena (arena.handles_nodup.filter _)
    (fun handle member => ((mem_dropped keep handle).mp member).2) handle).trans ?_
  simp only [mem_dropped]
  cases kept : keep handle with
  | true => simp
  | false =>
    by_cases live : arena.contains handle = true
    · simp [live]
    · simp [get?_eq_none_iff.mpr live]

theorem contains_retain (handle : Handle) :
    (arena.retain keep).2.contains handle = true ↔
      keep handle = true ∧ arena.contains handle = true := by
  simp only [contains, get?_retain keep]
  split <;> simp [*]

/-- An arena of which all is kept stays as it is. -/
theorem retain_all (all : ∀ handle, arena.contains handle = true → keep handle = true) :
    arena.retain keep = (0, arena) := by
  have none : arena.handles.filter (fun handle => !keep handle) = [] := by
    rw [List.filter_eq_nil_iff]
    intro handle member
    rw [all handle (mem_handles.mp member)]
    simp
  unfold retain
  rw [none]
  rfl

/-! ### Counting cells -/

theorem ncard_handles (listed : List Handle) (distinct : listed.Nodup) :
    {handle | handle ∈ listed}.ncard = listed.length := by
  have finite : {handle | handle ∈ listed} = (listed.toFinset : Set Handle) := by
    ext handle
    simp
  rw [finite, Set.ncard_coe_finset, List.toFinset_card_of_nodup distinct]

theorem ncard_live (sound : arena.Sound) :
    arena.size = {handle | arena.contains handle = true}.ncard := by
  rw [← length_handles sound, ← ncard_handles _ arena.handles_nodup]
  simp only [mem_handles]

/-- The number that `retain` answers is that of the cells it frees. -/
theorem ncard_freed :
    (arena.retain keep).1 = {handle | arena.contains handle = true ∧
      ¬(arena.retain keep).2.contains handle = true}.ncard := by
  have counted : (arena.retain keep).1 = (arena.handles.filter fun handle => !keep handle).length := rfl
  rw [counted, ← ncard_handles _ (arena.handles_nodup.filter _)]
  congr 1
  ext handle
  simp only [Set.mem_ofPred_eq, mem_dropped, contains_retain]
  cases keep handle <;> simp

end Retain

end Arena

end HiddenClass
