import HiddenClass.Proofs.Arena
import HiddenClass.Realm.Collect
import Mathlib.Data.Finset.Card
import Mathlib.Data.Finset.Sum

/-!
Marking from a list of cells. Each place is pushed once, by the first cell that comes to it, so the
number of places is enough for the work; when it is done, the marks are closed under the edges of
the cells that were pushed.
-/

namespace HiddenClass

/-- The place of a cell in its arena, whatever the generation of the handle. -/
def Cell.place : Cell → Nat ⊕ Nat
  | .object handle => .inl handle.index
  | .shape handle => .inr handle.index

namespace Marks

variable {marks : Marks} {cell next : Cell} {cells : List Cell} {place : Nat ⊕ Nat}

/-- The mark at a place, if there is such a place. -/
def marked (marks : Marks) : Nat ⊕ Nat → Option Bool
  | .inl index => marks.objects[index]?
  | .inr index => marks.shapes[index]?

theorem hasObject_iff {handle : Handle} :
    marks.hasObject handle = true ↔ marks.marked (Cell.object handle).place = some true := by
  change marks.objects[handle.index]?.getD false = true ↔ marks.objects[handle.index]? = some true
  cases marks.objects[handle.index]? <;> simp

theorem hasShape_iff {handle : Handle} :
    marks.hasShape handle = true ↔ marks.marked (Cell.shape handle).place = some true := by
  change marks.shapes[handle.index]?.getD false = true ↔ marks.shapes[handle.index]? = some true
  cases marks.shapes[handle.index]? <;> simp

theorem visit_of_seen (seen : marks.marked cell.place ≠ some false) : marks.visit cell = marks := by
  cases cell with
  | object handle => exact if_neg seen
  | shape handle => exact if_neg seen

theorem visit_of_new (new : marks.marked cell.place = some false) :
    (marks.visit cell).pending = cell :: marks.pending ∧
      ∀ place, (marks.visit cell).marked place =
        if place = cell.place then some true else marks.marked place := by
  cases cell with
  | object handle =>
    have visited : marks.visit (.object handle) = { marks with
        objects := marks.objects.setIfInBounds handle.index true
        pending := .object handle :: marks.pending } := if_pos new
    have bound : handle.index < marks.objects.size := (Array.getElem?_eq_some_iff.mp new).1
    rw [visited]
    refine ⟨rfl, fun place => ?_⟩
    cases place with
    | inl index =>
      simp only [marked, Cell.place, Array.getElem?_setIfInBounds, Sum.inl.injEq]
      by_cases same : index = handle.index
      · rw [if_pos same.symm, if_pos bound, if_pos same]
      · rw [if_neg (Ne.symm same), if_neg same]
    | inr index => simp [marked, Cell.place]
  | shape handle =>
    have visited : marks.visit (.shape handle) = { marks with
        shapes := marks.shapes.setIfInBounds handle.index true
        pending := .shape handle :: marks.pending } := if_pos new
    have bound : handle.index < marks.shapes.size := (Array.getElem?_eq_some_iff.mp new).1
    rw [visited]
    refine ⟨rfl, fun place => ?_⟩
    cases place with
    | inl index => simp [marked, Cell.place]
    | inr index =>
      simp only [marked, Cell.place, Array.getElem?_setIfInBounds, Sum.inr.injEq]
      by_cases same : index = handle.index
      · rw [if_pos same.symm, if_pos bound, if_pos same]
      · rw [if_neg (Ne.symm same), if_neg same]

/-- What visiting a list of cells pushes: the first cell of the list for each place that was there
and had no mark. -/
structure Pushes (marks after : Marks) (cells pushed : List Cell) : Prop where
  pending : after.pending = pushed ++ marks.pending
  marked : ∀ place ∈ pushed.map Cell.place, after.marked place = some true
  kept : ∀ place ∉ pushed.map Cell.place, after.marked place = marks.marked place
  distinct : (pushed.map Cell.place).Nodup
  new : ∀ cell ∈ pushed, marks.marked cell.place = some false
  first : ∀ cell ∈ pushed, cells.find? (fun other => other.place = cell.place) = some cell
  complete : ∀ cell ∈ cells, after.marked cell.place ≠ some false

/-- Places neither come nor go. -/
theorem Pushes.isSome_marked {after : Marks} {pushed : List Cell} (pushes : Pushes marks after cells pushed)
    (place : Nat ⊕ Nat) : (after.marked place).isSome = (marks.marked place).isSome := by
  by_cases new : place ∈ pushed.map Cell.place
  · obtain ⟨cell, member, rfl⟩ := List.mem_map.mp new
    rw [pushes.marked _ new, pushes.new cell member]
    rfl
  · rw [pushes.kept place new]

/-- A cell with a new place is pushed below what its successors push. -/
theorem Pushes.cons_new {after : Marks} {pushed : List Cell} (new : marks.marked cell.place = some false)
    (pushes : Pushes (marks.visit cell) after cells pushed) :
    Pushes marks after (cell :: cells) (pushed ++ [cell]) := by
  obtain ⟨pending, marked⟩ := visit_of_new new
  have apart : ∀ other ∈ pushed, other.place ≠ cell.place := by
    intro other member same
    have unmarked := pushes.new other member
    rw [marked, if_pos same] at unmarked
    cases unmarked
  have outside : cell.place ∉ pushed.map Cell.place := by
    intro member
    obtain ⟨other, present, same⟩ := List.mem_map.mp member
    exact apart other present same
  have here : after.marked cell.place = some true := by
    rw [pushes.kept _ outside, marked, if_pos rfl]
  refine ⟨?_, fun place member => ?_, fun place absent => ?_, ?_, fun other member => ?_,
    fun other member => ?_, fun other member => ?_⟩
  · rw [pushes.pending, pending, List.append_assoc]
    rfl
  · rw [List.map_append, List.mem_append, List.map_singleton, List.mem_singleton] at member
    rcases member with early | last
    · exact pushes.marked place early
    · rw [last]
      exact here
  · rw [List.map_append, List.mem_append, List.map_singleton, List.mem_singleton, not_or] at absent
    rw [pushes.kept place absent.1, marked, if_neg absent.2]
  · rw [List.map_append, List.map_singleton, List.nodup_append]
    refine ⟨pushes.distinct, List.nodup_singleton _, fun first member second last same => ?_⟩
    rw [List.mem_singleton] at last
    exact outside (last ▸ same ▸ member)
  · rcases List.mem_append.mp member with old | last
    · have unmarked := pushes.new other old
      rw [marked, if_neg (apart other old)] at unmarked
      exact unmarked
    · rw [List.mem_singleton.mp last]
      exact new
  · rcases List.mem_append.mp member with old | last
    · rw [List.find?_cons_of_neg (by simpa using (apart other old).symm)]
      exact pushes.first other old
    · rw [List.mem_singleton.mp last]
      exact List.find?_cons_of_pos (by simp)
  · rcases List.mem_cons.mp member with same | later
    · rw [same, here]
      simp
    · exact pushes.complete other later

/-- A cell whose place is marked, or is not there, is not pushed. -/
theorem Pushes.cons_seen {after : Marks} {pushed : List Cell} (seen : marks.marked cell.place ≠ some false)
    (pushes : Pushes marks after cells pushed) : Pushes marks after (cell :: cells) pushed := by
  have apart : ∀ other ∈ pushed, cell.place ≠ other.place :=
    fun other member same => seen (same ▸ pushes.new other member)
  have outside : cell.place ∉ pushed.map Cell.place := by
    intro member
    obtain ⟨other, present, same⟩ := List.mem_map.mp member
    exact apart other present same.symm
  refine ⟨pushes.pending, pushes.marked, pushes.kept, pushes.distinct, pushes.new,
    fun other member => ?_, fun other member => ?_⟩
  · rw [List.find?_cons_of_neg (by simpa using apart other member)]
    exact pushes.first other member
  · rcases List.mem_cons.mp member with same | later
    · rw [same, pushes.kept _ outside]
      exact seen
    · exact pushes.complete other later

theorem visit_all (marks : Marks) (cells : List Cell) :
    ∃ pushed, Pushes marks (cells.foldl visit marks) cells pushed := by
  induction cells generalizing marks with
  | nil =>
    refine ⟨[], rfl, ?_, fun _ _ => rfl, List.nodup_nil, ?_, ?_, ?_⟩
    all_goals exact fun _ member => absurd member List.not_mem_nil
  | cons cell rest ih =>
    obtain ⟨pushed, pushes⟩ := ih (marks.visit cell)
    rw [List.foldl_cons]
    by_cases new : marks.marked cell.place = some false
    · exact ⟨pushed ++ [cell], pushes.cons_new new⟩
    · rw [visit_of_seen new] at pushes ⊢
      exact ⟨pushed, pushes.cons_seen new⟩

end Marks

namespace Realm

variable {realm : Realm} {roots traced pushed : List Cell} {marks after : Marks} {cell next other : Cell}

/-- The cells that are pushed: at each place the first root, or what is found along edges where
there is no root. -/
inductive Pushed (realm : Realm) (roots : List Cell) : Cell → Prop where
  | root {cell : Cell} (first : roots.find? (fun root => root.place = cell.place) = some cell) :
      Pushed realm roots cell
  | edge {source cell : Cell} (pushed : Pushed realm roots source)
      (member : cell ∈ realm.edges source) (free : ∀ root ∈ roots, root.place ≠ cell.place) :
      Pushed realm roots cell

def places (realm : Realm) : Finset (Nat ⊕ Nat) :=
  (Finset.range realm.objects.capacity).disjSum (Finset.range realm.shapes.arena.capacity)

theorem card_places (realm : Realm) :
    realm.places.card = realm.objects.capacity + realm.shapes.arena.capacity := by
  rw [places, Finset.card_disjSum, Finset.card_range, Finset.card_range]

/-- The state of the marker between two cells. -/
structure Progress (realm : Realm) (roots : List Cell) (marks : Marks) (traced : List Cell) :
    Prop where
  within : ∀ place, (marks.marked place).isSome = true ↔ place ∈ realm.places
  distinct : ((traced ++ marks.pending).map Cell.place).Nodup
  marked : ∀ place, marks.marked place = some true ↔
    place ∈ (traced ++ marks.pending).map Cell.place
  rooted : ∀ root ∈ roots, marks.marked root.place ≠ some false
  origin : ∀ cell ∈ traced ++ marks.pending, Pushed realm roots cell
  closed : ∀ cell ∈ traced, ∀ next ∈ realm.edges cell, marks.marked next.place ≠ some false

theorem progress_start {unmarked : Marks} (empty : unmarked.pending = [])
    (within : ∀ place, (unmarked.marked place).isSome = true ↔ place ∈ realm.places)
    (clean : ∀ place, unmarked.marked place ≠ some true)
    (pushes : Marks.Pushes unmarked marks roots pushed) : Progress realm roots marks [] := by
  have pending : [] ++ marks.pending = pushed := by
    rw [List.nil_append, pushes.pending, empty, List.append_nil]
  refine ⟨fun place => ?_, ?_, fun place => ?_, pushes.complete, fun cell member => ?_,
    fun _ member => absurd member List.not_mem_nil⟩
  · rw [pushes.isSome_marked]
    exact within place
  · rw [pending]
    exact pushes.distinct
  · rw [pending]
    constructor
    · intro set
      by_contra outside
      rw [pushes.kept place outside] at set
      exact clean place set
    · exact pushes.marked place
  · rw [pending] at member
    exact Pushed.root (pushes.first cell member)

/-- A mark that is set stays set. -/
theorem marked_mono (pushes : Marks.Pushes marks after roots pushed) {place : Nat ⊕ Nat}
    (seen : marks.marked place ≠ some false) : after.marked place ≠ some false := by
  by_cases new : place ∈ pushed.map Cell.place
  · rw [pushes.marked place new]
    simp
  · rw [pushes.kept place new]
    exact seen

theorem progress_step {rest : List Cell} (progress : Progress realm roots marks traced)
    (popped : marks.pending = cell :: rest)
    (pushes : Marks.Pushes { marks with pending := rest } after (realm.edges cell) pushed) :
    Progress realm roots after (cell :: traced) := by
  have sameMarks : ∀ place, Marks.marked { marks with pending := rest } place = marks.marked place :=
    fun place => by cases place <;> rfl
  have order : (cell :: traced ++ after.pending).Perm (pushed ++ (traced ++ marks.pending)) := by
    rw [pushes.pending, popped]
    refine List.Perm.trans ?_ (List.perm_append_comm_assoc traced pushed (cell :: rest))
    refine List.Perm.trans ?_ (List.Perm.append_left traced List.perm_middle.symm)
    exact List.perm_middle.symm
  have places := order.map Cell.place
  have fresh : ∀ other ∈ pushed, other.place ∉ (traced ++ marks.pending).map Cell.place := by
    intro other member seen
    have unmarked := pushes.new other member
    rw [sameMarks, (progress.marked _).mpr seen] at unmarked
    cases unmarked
  have pushedCell : Pushed realm roots cell :=
    progress.origin cell (List.mem_append_right _ (popped ▸ List.mem_cons_self ..))
  refine ⟨fun place => ?_, ?_, fun place => ?_, fun root member => ?_, fun other member => ?_,
    fun other member => ?_⟩
  · rw [pushes.isSome_marked, sameMarks]
    exact progress.within place
  · rw [places.nodup_iff, List.map_append, List.nodup_append]
    refine ⟨pushes.distinct, progress.distinct, fun place new old present same => ?_⟩
    obtain ⟨other, member, rfl⟩ := List.mem_map.mp new
    exact fresh other member (same ▸ present)
  · rw [places.mem_iff, List.map_append, List.mem_append, ← progress.marked]
    by_cases new : place ∈ pushed.map Cell.place
    · simp only [pushes.marked place new, new, true_or]
    · rw [pushes.kept place new, sameMarks]
      simp only [new, false_or]
  · exact marked_mono pushes (sameMarks _ ▸ progress.rooted root member)
  · rcases List.mem_append.mp (order.mem_iff.mp member) with new | old
    · have found := pushes.first other new
      refine Pushed.edge pushedCell (List.mem_of_find?_eq_some found) fun root rooted same => ?_
      have unmarked := pushes.new other new
      rw [sameMarks, ← same] at unmarked
      exact progress.rooted root rooted unmarked
    · exact progress.origin other old
  · rcases List.mem_cons.mp member with here | earlier
    · rw [here]
      exact pushes.complete
    · exact fun next listed =>
        marked_mono pushes (sameMarks _ ▸ progress.closed other earlier next listed)

theorem Progress.seen (progress : Progress realm roots marks traced) {place : Nat ⊕ Nat}
    (inside : place ∈ realm.places) (seen : marks.marked place ≠ some false) :
    place ∈ (traced ++ marks.pending).map Cell.place := by
  rw [← progress.marked]
  obtain ⟨mark, set⟩ := Option.isSome_iff_exists.mp ((progress.within place).mpr inside)
  cases mark with
  | false => exact absurd set seen
  | true => exact set

/-- No place is pushed twice. -/
theorem Progress.length_le (progress : Progress realm roots marks traced) :
    (traced ++ marks.pending).length ≤ realm.places.card := by
  have inside : ((traced ++ marks.pending).map Cell.place).toFinset ⊆ realm.places := by
    intro place member
    rw [List.mem_toFinset, ← progress.marked] at member
    rw [← progress.within, member]
    rfl
  have count := Finset.card_le_card inside
  rw [List.toFinset_card_of_nodup progress.distinct, List.length_map] at count
  exact count

/-- The marker goes on until nothing is pending or its bound is used up. -/
theorem trace_progress (progress : Progress realm roots marks traced) (bound : Nat) :
    ∃ all, Progress realm roots (realm.trace bound marks) all ∧
      ((realm.trace bound marks).pending = [] ∨ all.length = traced.length + bound) := by
  induction bound generalizing marks traced with
  | zero => exact ⟨traced, progress, Or.inr rfl⟩
  | succ bound ih =>
    unfold trace
    cases popped : marks.pending with
    | nil => exact ⟨traced, progress, Or.inl popped⟩
    | cons cell rest =>
      obtain ⟨pushed, pushes⟩ := Marks.visit_all { marks with pending := rest } (realm.edges cell)
      obtain ⟨all, done, ended⟩ := ih (progress_step progress popped pushes)
      refine ⟨all, done, ended.imp_right fun length => ?_⟩
      rw [length, List.length_cons]
      omega

/-- Marking comes to an end: all that was pushed has been traced. -/
theorem mark_progress (realm : Realm) (roots : List Handle) :
    ∃ traced, Progress realm (realm.rootCells roots) (realm.mark roots) traced ∧
      (realm.mark roots).pending = [] := by
  let unmarked : Marks :=
    { objects := Array.replicate realm.objects.capacity false
      shapes := Array.replicate realm.shapes.arena.capacity false }
  obtain ⟨pushed, pushes⟩ := unmarked.visit_all (realm.rootCells roots)
  have within : ∀ place, (unmarked.marked place).isSome = true ↔ place ∈ realm.places := by
    rintro (index | index) <;> simp [unmarked, Marks.marked, places]
  have clean : ∀ place, unmarked.marked place ≠ some true := by
    rintro (index | index) <;> simp [unmarked, Marks.marked, Array.getElem?_replicate]
  obtain ⟨traced, progress, ended⟩ := trace_progress (progress_start rfl within clean pushes)
    (realm.objects.capacity + realm.shapes.arena.capacity)
  refine ⟨traced, progress, ended.elim id fun length => ?_⟩
  -- every round traces a place of its own, so after as many rounds as places none is left
  have count : (traced ++ (realm.mark roots).pending).length ≤ realm.places.card := progress.length_le
  rw [List.length_append, length, card_places, List.length_nil] at count
  exact List.length_eq_zero_iff.mp (by omega)

end Realm

end HiddenClass
