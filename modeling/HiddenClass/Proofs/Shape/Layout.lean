import HiddenClass.Shape.Table
import Mathlib.Data.List.Basic
import Mathlib.Data.List.Nodup
import Mathlib.Data.List.Range

/-!
Layouts: which offset each name of a shape has, and which offsets are free for reuse. A layout is
what the adds and deletes since the empty shape make of it, whatever shapes they went through.
-/

namespace HiddenClass.Table

variable {table : Table} {key other : Key} {offset : Nat}

theorem find?_cons (entry : Key × Nat) (rest : Table) (key : Key) :
    find? (entry :: rest) key = if key = entry.1 then some entry.2 else find? rest key := by
  unfold find?
  rw [List.lookup_cons]
  by_cases same : key = entry.1
  · simp [same]
  · simp [same, beq_eq_false_iff_ne.mpr same]

theorem find?_eq_none_iff : find? table key = none ↔ key ∉ table.map Prod.fst := by
  induction table with
  | nil => simp [find?]
  | cons entry rest ih =>
    rw [find?_cons]
    by_cases same : key = entry.1
    · simp [same]
    · simp only [same, if_false, ih, List.map_cons, List.mem_cons, false_or]

theorem find?_eq_some_iff (distinct : (table.map Prod.fst).Nodup) :
    find? table key = some offset ↔ (key, offset) ∈ table := by
  induction table with
  | nil => simp [find?]
  | cons entry rest ih =>
    obtain ⟨absent, restDistinct⟩ := List.nodup_cons.mp (List.map_cons .. ▸ distinct)
    rw [find?_cons]
    by_cases same : key = entry.1
    · subst same
      have outside : (entry.1, offset) ∉ rest := fun member =>
        absent (List.mem_map.mpr ⟨_, member, rfl⟩)
      simp only [if_true, Option.some.injEq, List.mem_cons, outside, or_false]
      constructor
      · rintro rfl
        rfl
      · intro equal
        rw [← equal]
    · rw [if_neg same, ih restDistinct, List.mem_cons]
      have different : (key, offset) ≠ entry := fun equal => same (congrArg Prod.fst equal)
      simp only [different, false_or]

theorem place_perm (key : Key) (offset : Nat) (table : Table) :
    (place key offset table).Perm ((key, offset) :: table) := by
  induction table with
  | nil => exact List.Perm.refl _
  | cons first rest ih =>
    unfold place
    by_cases before : first.2 < offset
    · rw [if_pos before]
      exact (ih.cons first).trans (List.Perm.swap ..)
    · rw [if_neg before]

theorem place_ordered (ordered : table.Pairwise fun first second => first.2 < second.2)
    (fresh : ∀ entry ∈ table, entry.2 ≠ offset) (key : Key) :
    (place key offset table).Pairwise fun first second => first.2 < second.2 := by
  induction table with
  | nil => exact List.pairwise_singleton _ _
  | cons first rest ih =>
    obtain ⟨below, restOrdered⟩ := List.pairwise_cons.mp ordered
    have firstFresh := fresh first (List.mem_cons_self ..)
    unfold place
    by_cases before : first.2 < offset
    · rw [if_pos before]
      refine List.pairwise_cons.mpr ⟨?_, ih restOrdered fun entry member =>
        fresh entry (List.mem_cons_of_mem _ member)⟩
      intro entry member
      rcases List.mem_cons.mp ((place_perm key offset rest).subset member) with placed | old
      · rw [placed]
        exact before
      · exact below entry old
    · rw [if_neg before]
      have after : offset < first.2 := by omega
      refine List.pairwise_cons.mpr ⟨?_, ordered⟩
      intro entry member
      rcases List.mem_cons.mp member with same | later
      · rw [same]
        exact after
      · exact after.trans (below entry later)

theorem erase_of_absent (absent : find? table key = none) : erase table key = table := by
  rw [find?_eq_none_iff] at absent
  refine List.filter_eq_self.mpr ?_
  intro entry member
  have different : entry.1 ≠ key := fun same => absent (same ▸ List.mem_map_of_mem member)
  simpa using different

theorem insert_perm (absent : find? table key = none) (offset : Nat) :
    (insert table key offset).Perm ((key, offset) :: table) := by
  unfold insert
  rw [erase_of_absent absent]
  exact place_perm key offset table

theorem find?_erase (table : Table) (key other : Key) :
    find? (erase table key) other = if other = key then none else find? table other := by
  induction table with
  | nil => simp [erase, find?]
  | cons entry rest ih =>
    unfold erase at ih ⊢
    by_cases dropped : entry.1 = key
    · rw [List.filter_cons_of_neg (by simpa using dropped), ih, find?_cons, dropped]
      by_cases same : other = key
      · simp [same]
      · simp [same]
    · rw [List.filter_cons_of_pos (by simpa using dropped), find?_cons, ih, find?_cons]
      by_cases same : other = key
      · have kept : ¬key = entry.1 := fun equal => dropped equal.symm
        simp [same, kept]
      · simp [same]

theorem perm_erase (distinct : (table.map Prod.fst).Nodup) (found : find? table key = some offset) :
    table.Perm ((key, offset) :: erase table key) := by
  have member := (find?_eq_some_iff distinct).mp found
  have others : erase table key = table.filter fun entry => !decide (entry = (key, offset)) := by
    refine List.filter_congr fun entry present => ?_
    by_cases same : entry = (key, offset)
    · simp [same]
    · have different : entry.1 ≠ key := fun equal => by
        have one := (find?_eq_some_iff distinct).mpr (show (key, entry.2) ∈ table from equal ▸ present)
        exact same (Prod.ext equal (Option.some.inj (one.symm.trans found)))
      simp [same, different]
  have nodup : table.Nodup := List.Nodup.of_map Prod.fst distinct
  refine (List.perm_ext_iff_of_nodup nodup ?_).mpr ?_
  · refine List.nodup_cons.mpr ⟨?_, nodup.filter _⟩
    rw [others]
    simp
  · intro entry
    rw [others]
    by_cases same : entry = (key, offset)
    · simp [same, member]
    · simp [same]

end HiddenClass.Table

namespace HiddenClass

/-- The names with their offsets, and the free offsets, the one freed last in front. -/
structure Layout where
  table : Table := []
  freed : List Nat := []
deriving DecidableEq, Repr

namespace Layout

def size (layout : Layout) : Nat := layout.table.length + layout.freed.length

def offset? (layout : Layout) (key : Key) : Option Nat := layout.table.find? key

/-- The offset that the next name gets. -/
def next (layout : Layout) : Nat := layout.freed.head?.getD layout.size

def add (layout : Layout) (key : Key) : Layout :=
  { table := layout.table.insert key layout.next, freed := layout.freed.tail }

def remove (layout : Layout) (key : Key) : Layout :=
  match layout.offset? key with
  | some offset => { table := layout.table.erase key, freed := offset :: layout.freed }
  | none => layout

/-- Names and free offsets divide the offsets below the size among them. -/
structure Sound (layout : Layout) : Prop where
  ordered : layout.table.Pairwise fun first second => first.2 < second.2
  distinct : (layout.table.map Prod.fst).Nodup
  filled : (layout.table.map Prod.snd ++ layout.freed).Perm (List.range layout.size)

variable {layout : Layout} {key other : Key} {offset : Nat}

theorem sound_empty : Sound {} := ⟨List.Pairwise.nil, List.nodup_nil, List.Perm.refl _⟩

namespace Sound

variable (sound : layout.Sound)
include sound

theorem mem_table : layout.offset? key = some offset ↔ (key, offset) ∈ layout.table :=
  Table.find?_eq_some_iff sound.distinct

theorem offsets_nodup : (layout.table.map Prod.snd ++ layout.freed).Nodup :=
  sound.filled.nodup_iff.mpr List.nodup_range

theorem lt_size_iff : offset < layout.size ↔
    offset ∈ layout.table.map Prod.snd ∨ offset ∈ layout.freed := by
  rw [← List.mem_append, sound.filled.mem_iff, List.mem_range]

theorem offset_lt (found : layout.offset? key = some offset) : offset < layout.size :=
  sound.lt_size_iff.mpr (Or.inl (List.mem_map.mpr ⟨_, sound.mem_table.mp found, rfl⟩))

/-- No two names share an offset. -/
theorem offset_injective (found : layout.offset? key = some offset)
    (foundOther : layout.offset? other = some offset) : key = other := by
  have nodup : (layout.table.map Prod.snd).Nodup := (List.nodup_append.mp sound.offsets_nodup).1
  have same := List.inj_on_of_nodup_map nodup (sound.mem_table.mp found)
    (sound.mem_table.mp foundOther) rfl
  exact congrArg Prod.fst same

theorem next_fresh : ∀ entry ∈ layout.table, entry.2 ≠ layout.next := by
  intro entry member same
  have occupied : entry.2 ∈ layout.table.map Prod.snd := List.mem_map_of_mem member
  unfold next at same
  cases free : layout.freed with
  | nil =>
    have bound := sound.lt_size_iff.mpr (Or.inl occupied)
    simp only [free, List.head?_nil, Option.getD_none] at same
    omega
  | cons first rest =>
    simp only [free, List.head?_cons, Option.getD_some] at same
    have disjoint := (List.nodup_append.mp sound.offsets_nodup).2.2 _ occupied first (by simp [free])
    exact disjoint same

theorem offset_ne_next (found : layout.offset? key = some offset) : offset ≠ layout.next :=
  sound.next_fresh _ (sound.mem_table.mp found)

end Sound

theorem insert_table_perm (absent : layout.offset? key = none) :
    (layout.add key).table.Perm ((key, layout.next) :: layout.table) :=
  Table.insert_perm absent layout.next

theorem size_add (absent : layout.offset? key = none) :
    (layout.add key).size = if layout.freed.isEmpty then layout.size + 1 else layout.size := by
  have length := (insert_table_perm absent).length_eq
  simp only [size, length, List.length_cons]
  cases free : layout.freed with
  | nil => simp [add, free]
  | cons first rest =>
    simp only [add, free, List.tail_cons, List.isEmpty_cons, List.length_cons, Bool.false_eq_true,
      if_false]
    omega

theorem size_add_le (absent : layout.offset? key = none) :
    (layout.add key).size ≤ max layout.size (layout.next + 1) := by
  rw [size_add absent]
  cases free : layout.freed with
  | nil =>
    simp only [next, free, List.isEmpty_nil, if_true, List.head?_nil, Option.getD_none]
    omega
  | cons first rest =>
    simp only [List.isEmpty_cons, Bool.false_eq_true, if_false]
    omega

theorem sound_add (sound : layout.Sound) (absent : layout.offset? key = none) :
    (layout.add key).Sound := by
  have perm := insert_table_perm absent
  refine ⟨?_, ?_, ?_⟩
  · simp only [add, Table.insert, Table.erase_of_absent absent]
    exact Table.place_ordered sound.ordered sound.next_fresh key
  · rw [(perm.map Prod.fst).nodup_iff]
    exact List.nodup_cons.mpr ⟨Table.find?_eq_none_iff.mp absent, sound.distinct⟩
  · refine ((perm.map Prod.snd).append_right _).trans ?_
    rw [size_add absent]
    cases free : layout.freed with
    | nil =>
      have filled := sound.filled
      simp only [free, List.append_nil] at filled
      simp only [add, next, free, List.tail_nil, List.append_nil, List.head?_nil, Option.getD_none,
        List.isEmpty_nil, if_true, List.map_cons, List.range_succ]
      exact (filled.cons _).trans (List.perm_append_singleton _ _).symm
    | cons first rest =>
      have filled := sound.filled
      simp only [free] at filled
      simp only [add, next, free, List.tail_cons, List.head?_cons, Option.getD_some,
        List.isEmpty_cons, Bool.false_eq_true, if_false, List.map_cons, List.cons_append]
      exact List.perm_middle.symm.trans filled

theorem offset?_add (sound : layout.Sound) (absent : layout.offset? key = none) (other : Key) :
    (layout.add key).offset? other =
      if other = key then some layout.next else layout.offset? other := by
  have perm := insert_table_perm absent
  refine Option.ext fun offset => ?_
  rw [(sound_add sound absent).mem_table, perm.mem_iff, List.mem_cons]
  by_cases same : other = key
  · subst same
    have outside : (other, offset) ∉ layout.table := fun member => by
      rw [← sound.mem_table, absent] at member
      cases member
    simp [outside, eq_comm]
  · simp [same, sound.mem_table]

theorem remove_of_absent (absent : layout.offset? key = none) : layout.remove key = layout := by
  rw [remove, absent]

theorem remove_of_found (found : layout.offset? key = some offset) :
    layout.remove key = { table := layout.table.erase key, freed := offset :: layout.freed } := by
  rw [remove, found]

theorem offset?_remove (layout : Layout) (key other : Key) :
    (layout.remove key).offset? other = if other = key then none else layout.offset? other := by
  cases found : layout.offset? key with
  | none =>
    rw [remove_of_absent found]
    by_cases same : other = key
    · simp [same, found]
    · simp [same]
  | some offset =>
    rw [remove_of_found found]
    exact Table.find?_erase layout.table key other

theorem size_remove (sound : layout.Sound) (key : Key) : (layout.remove key).size = layout.size := by
  cases found : layout.offset? key with
  | none => rw [remove_of_absent found]
  | some offset =>
    have length := (Table.perm_erase sound.distinct found).length_eq
    simp only [remove_of_found found, size, List.length_cons] at length ⊢
    omega

theorem sound_remove (sound : layout.Sound) (key : Key) : (layout.remove key).Sound := by
  cases found : layout.offset? key with
  | none =>
    rw [remove_of_absent found]
    exact sound
  | some offset =>
    have perm := Table.perm_erase sound.distinct found
    have size := size_remove sound key
    rw [remove_of_found found] at size ⊢
    refine ⟨sound.ordered.filter _, sound.distinct.sublist (List.filter_sublist.map _), ?_⟩
    rw [size]
    refine List.Perm.trans ?_ sound.filled
    refine List.perm_middle.trans ?_
    exact ((perm.map Prod.snd).append_right layout.freed).symm

end Layout

end HiddenClass
