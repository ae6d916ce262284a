import HiddenClass.Proofs.Shape.Reading
import Mathlib.Data.Finset.Card
import Mathlib.Order.Bounds.Basic

/-!
How the slots of a shape are used. Each slot belongs to one name or is free, and there are no more of
them than names were ever present together.
-/

namespace HiddenClass

/-- The names that are present after a history. -/
def Edit.present (history : List Edit) : Finset Key :=
  history.foldl
    (fun names edit =>
      match edit with
      | .add key => insert key names
      | .remove key => names.erase key)
    ∅

/-- How many names were present at some time of a history. -/
def Edit.counts (history : List Edit) : Set Nat :=
  {count | ∃ front, front <+: history ∧ (present front).card = count}

/-- Names and free slots divide the slots among them. -/
structure Divided (names : List (Key × Nat)) (freed : List Nat) (size : Nat) : Prop where
  once : (names.map Prod.fst).Nodup
  apart : (names.map Prod.snd).Nodup
  distinct : freed.Nodup
  disjoint : ∀ offset ∈ freed, offset ∉ names.map Prod.snd
  all : ∀ offset, offset ∈ names.map Prod.snd ∨ offset ∈ freed ↔ offset < size

theorem Edit.counts_concat (history : List Edit) (last : Edit) :
    counts (history ++ [last]) = insert (present (history ++ [last])).card (counts history) := by
  ext count
  simp only [counts, Set.mem_ofPred_eq, Set.mem_insert_iff, List.prefix_concat_iff]
  constructor
  · rintro ⟨front, whole | before, counted⟩
    · exact Or.inl (whole ▸ counted.symm)
    · exact Or.inr ⟨front, before, counted⟩
  · rintro (whole | ⟨front, before, counted⟩)
    · exact ⟨history ++ [last], Or.inl rfl, whole.symm⟩
    · exact ⟨front, Or.inr before, counted⟩

namespace Layout

variable {layout : Layout} {history : List Edit} {key : Key}

theorem Sound.divided (sound : layout.Sound) : Divided layout.table layout.freed layout.size where
  once := sound.distinct
  apart := (List.nodup_append.mp sound.offsets_nodup).1
  distinct := (List.nodup_append.mp sound.offsets_nodup).2.1
  disjoint := fun offset free named =>
    (List.nodup_append.mp sound.offsets_nodup).2.2 offset named offset free rfl
  all := fun _ => sound.lt_size_iff.symm

theorem Arises.mem_present (arises : layout.Arises history) :
    key ∈ Edit.present history ↔ layout.offset? key ≠ none := by
  induction arises generalizing key with
  | empty => simp [Edit.present, offset?, Table.find?]
  | @add layout history added before absent ih =>
    rw [offset?_add before.sound absent, Edit.present, List.foldl_concat, Finset.mem_insert]
    by_cases same : key = added
    · simp [same]
    · rw [if_neg same]
      exact (or_iff_right same).trans ih
  | @remove layout history before removed ih =>
    rw [offset?_remove, Edit.present, List.foldl_concat, Finset.mem_erase]
    by_cases same : key = removed
    · simp [same]
    · rw [if_neg same]
      exact (and_iff_right same).trans ih

theorem Arises.card_present (arises : layout.Arises history) :
    (Edit.present history).card = layout.table.length := by
  have names : Edit.present history = (layout.table.map Prod.fst).toFinset := by
    ext key
    rw [arises.mem_present, List.mem_toFinset, Ne, offset?, Table.find?_eq_none_iff, not_not]
  rw [names, List.toFinset_card_of_nodup arises.sound.distinct, List.length_map]

theorem size_add_eq_max (absent : layout.offset? key = none) :
    (layout.add key).size = max (layout.add key).table.length layout.size := by
  have longer := (insert_table_perm absent).length_eq
  rw [List.length_cons] at longer
  rw [size_add absent, longer, size]
  cases layout.freed with
  | nil =>
    simp only [List.isEmpty_nil, if_true, List.length_nil]
    omega
  | cons first rest =>
    simp only [List.isEmpty_cons, Bool.false_eq_true, if_false, List.length_cons]
    omega

theorem size_remove_eq_max (sound : layout.Sound) (key : Key) :
    (layout.remove key).size = max (layout.remove key).table.length layout.size := by
  have same := size_remove sound key
  have bound : (layout.remove key).table.length ≤ (layout.remove key).size := Nat.le_add_right ..
  omega

/-- There are as many slots as names were present together at most. -/
theorem Arises.size_isGreatest (arises : layout.Arises history) :
    IsGreatest (Edit.counts history) layout.size := by
  induction arises with
  | empty =>
    constructor
    · exact ⟨[], List.prefix_refl [], rfl⟩
    · rintro count ⟨front, before, counted⟩
      rw [List.prefix_nil.mp before] at counted
      exact counted.ge
  | @add layout history key before absent ih =>
    rw [Edit.counts_concat, (before.add absent).card_present, size_add_eq_max absent]
    exact ih.insert _
  | @remove layout history before key ih =>
    rw [Edit.counts_concat, (before.remove key).card_present, size_remove_eq_max before.sound]
    exact ih.insert _

end Layout

namespace Chronicle

variable {slotCapacity : Nat} {requests : List Shapes.Request}

/-- After any run that keeps to the rules, the slots of every live shape are divided among its names
and the free ones. Their number is that of the names that were present together at most in each of its
histories; it is the same with a table and without, and no edit leads to fewer. -/
theorem slots_divided (lawful : (start slotCapacity).lawful requests = true) (handle : Handle)
    (live : ((start slotCapacity).after requests).shapes.live handle = true) :
    let chronicle := (start slotCapacity).after requests
    let shapes := chronicle.shapes
    ∃ names freed size, (shapes.reading handle).names = some names ∧
      (shapes.reading handle).freed = some freed ∧ (shapes.reading handle).size = some size ∧
      Divided names freed size ∧
      (∀ key offset, (shapes.reading handle).offset? key = some (some offset) ↔
        (key, offset) ∈ names) ∧
      (∃ later, Shapes.materialize handle shapes = .ok () later ∧
        ∀ other, shapes.live other = true →
          (later.reading other).size = (shapes.reading other).size) ∧
      (∀ key, (shapes.reading handle).offset? key = some none →
        ∃ own offset later more, Shapes.add handle key shapes = .ok (own, offset) later ∧
          (later.reading own).size = some more ∧ size ≤ more) ∧
      (∀ key, ∃ own later more, Shapes.remove handle key shapes = .ok own later ∧
        (later.reading own).size = some more ∧ size ≤ more) ∧
      chronicle.annals handle ≠ [] ∧
      ∀ history ∈ chronicle.annals handle, IsGreatest (Edit.counts history) size := by
  intro chronicle shapes
  obtain ⟨first, begun⟩ := told_start slotCapacity
  obtain ⟨chart, told⟩ := begun.after lawful
  have same : chart.shapes = shapes := told.shapes
  have present : chart.Live handle := by
    rw [← told.shapes] at live
    exact live
  have read := Chart.reading_eq present
  have sound := Chart.sound present
  rw [← same]
  refine ⟨(chart.layouts handle).table, (chart.layouts handle).freed, (chart.layouts handle).size,
    ?_, ?_, ?_, sound.divided, ?_, ?_, ?_, ?_, (told.obtained handle).mp present, ?_⟩
  · rw [read]
    rfl
  · rw [read]
    rfl
  · rw [read]
    rfl
  · intro key offset
    rw [read, ← sound.mem_table]
    exact Option.some_inj
  · obtain ⟨cell, found⟩ := Chart.live_iff.mp present
    obtain ⟨later, _, built, agrees, _⟩ := Chart.materialize_ok found
    refine ⟨later.shapes, built, fun other presentOther => ?_⟩
    rw [agrees.reading_eq presentOther]
  · intro key absent
    rw [read] at absent
    have missing : (chart.layouts handle).offset? key = none := Option.some.inj absent
    obtain ⟨own, later, added, layout, moves, _⟩ := Chart.add_ok present missing
    refine ⟨own, _, later.shapes, ((chart.layouts handle).add key).size, added, ?_, ?_⟩
    · rw [Chart.reading_eq moves.reached, layout]
      rfl
    · rw [Layout.size_add_eq_max missing]
      exact Nat.le_max_right ..
  · intro key
    obtain ⟨own, later, removed, layout, moves⟩ := Chart.remove_ok present key
    refine ⟨own, later.shapes, ((chart.layouts handle).remove key).size, removed, ?_, ?_⟩
    · rw [Chart.reading_eq moves.reached, layout]
      rfl
    · rw [Layout.size_remove sound]
  · intro history member
    exact (told.arises handle history member).size_isGreatest

/-- A shape loses two of its three names, and three others take their slots and a new one. A copy made
in between loses what is left. -/
def turnover : List Shapes.Request :=
  let shape (index : Nat) : Handle := ⟨index, 0⟩
  [.newRoot, .add (shape 0) (.named 1), .add (shape 1) (.named 2), .add (shape 2) (.index 3),
    .remove (shape 3) (.named 1), .remove (shape 4) (.index 3), .newUniqueFrom (shape 5),
    .remove (shape 6) (.named 2), .add (shape 5) (.named 4), .add (shape 7) (.named 1),
    .add (shape 8) (.index 9), .names (shape 8)]

theorem slots_divided_turnover :
    (start 8).lawful turnover = true ∧
      ((start 8).after turnover).shapes.live ⟨6, 0⟩ = true ∧
      ∃ names freed, Divided names freed 3 ∧
        (((start 8).after turnover).shapes.reading ⟨6, 0⟩).names = some names ∧
        (((start 8).after turnover).shapes.reading ⟨6, 0⟩).freed = some freed ∧
        names = [] ∧ freed = [1, 2, 0] :=
  have lawful : (start 8).lawful turnover = true := by decide +kernel
  have live : ((start 8).after turnover).shapes.live ⟨6, 0⟩ = true := by decide +kernel
  have ⟨names, freed, size, listed, left, counted, divided, _⟩ := slots_divided lawful ⟨6, 0⟩ live
  have none : names = [] := Option.some.inj (listed.symm.trans (by decide +kernel))
  have all : freed = [1, 2, 0] := Option.some.inj (left.symm.trans (by decide +kernel))
  have three : size = 3 := Option.some.inj (counted.symm.trans (by decide +kernel))
  ⟨lawful, live, names, freed, three ▸ divided, listed, left, none, all⟩

end Chronicle

end HiddenClass
