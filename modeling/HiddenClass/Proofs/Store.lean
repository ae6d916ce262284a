import HiddenClass.Proofs.Record
import HiddenClass.Proofs.Shape.Graph

/-!
A store answers and changes as its record does, whatever shapes lie under it. The operations succeed
on every store that holds a record.
-/

namespace HiddenClass.Store

/-- The store has the content of the record, in slots that are there. -/
structure Holds (store : Store) (chart : Chart) (record : Record) : Prop where
  live : chart.Live store.shape
  layout : chart.layouts store.shape = record.layout
  room : record.layout.size ≤ store.slots.size
  slot : ∀ offset, store.slotAt offset = record.slot offset

variable {store : Store} {chart after : Chart} {record : Record} {key : Key} {slot : Slot}
  {shapes : Shapes} {α : Type} {answer : α}

theorem onShapes_ok {action : Shapes.Action α} {later : Shapes}
    (ran : action shapes = .ok answer later) :
    onShapes action ⟨store, shapes⟩ = .ok answer ⟨store, later⟩ := by
  unfold onShapes
  exact Action.focus_ok ran

theorem update_ok (change : Store → Store) :
    update change ⟨store, shapes⟩ = .ok () ⟨change store, shapes⟩ := rfl

theorem slotAt_setSlot (store : Store) {offset : Nat} (bound : offset < store.slots.size)
    (slot : Slot) (other : Nat) :
    (store.setSlot offset slot).slotAt other = Function.update store.slotAt offset slot other := by
  unfold slotAt setSlot
  rw [Array.getElem?_setIfInBounds]
  by_cases same : other = offset
  · rw [same, Function.update_self, if_pos rfl, if_pos bound, Option.getD_some]
  · rw [Function.update_of_ne same, if_neg (Ne.symm same)]

theorem slotAt_grow (store : Store) (size : Nat) : (store.grow size).slotAt = store.slotAt := by
  funext offset
  unfold slotAt grow
  rw [Array.getElem?_append]
  by_cases bound : offset < store.slots.size
  · rw [if_pos bound]
  · rw [if_neg bound, Array.getElem?_replicate, Array.getElem?_eq_none (Nat.not_lt.mp bound)]
    split <;> rfl

theorem size_grow (store : Store) (size : Nat) : size ≤ (store.grow size).slots.size := by
  unfold grow
  rw [Array.size_append, Array.size_replicate]
  omega

/-- What a change to one key does about the names: nothing, or the store moves on to where the new name
leads, or the name is dropped. -/
inductive Becomes (chart after : Chart) (store moved : Store) (record later : Record) (key : Key) :
    Prop where
  | stay (shape : moved.shape = store.shape) (layout : later.layout = record.layout)
  | add (absent : record.layout.offset? key = none) (layout : later.layout = record.layout.add key)
    (led : chart.Shared store.shape → after.shapes.child? store.shape key = some moved.shape)
  | drop (offset : Nat) (present : record.layout.offset? key = some offset)
    (layout : later.layout = record.layout.remove key)

namespace Holds

/-- The content stays as it is when the shape does. -/
theorem keep (holds : store.Holds chart record) (spares : Chart.Spares chart after store.shape) :
    store.Holds after record where
  live := spares.live
  layout := spares.layout.trans holds.layout
  room := holds.room
  slot := holds.slot

theorem extend (holds : store.Holds chart record) (grown : Chart.Extends chart after) :
    store.Holds after record :=
  holds.keep (grown.spares holds.live)

variable (holds : store.Holds chart record)
include holds

theorem layout_sound : record.layout.Sound := holds.layout ▸ Chart.sound holds.live

theorem offset_lt {offset : Nat} (found : record.layout.offset? key = some offset) :
    offset < store.slots.size :=
  Nat.lt_of_lt_of_le (holds.layout_sound.offset_lt found) holds.room

theorem getElem?_slots {offset : Nat} (bound : offset < store.slots.size) :
    store.slots[offset]? = some (record.slot offset) := by
  rw [← holds.slot offset, slotAt, Array.getElem?_eq_getElem bound, Option.getD_some]

theorem set {offset : Nat} (found : record.layout.offset? key = some offset) (slot : Slot) :
    (store.setSlot offset slot).Holds chart (record.set offset slot) where
  live := holds.live
  layout := holds.layout
  room := by
    simp only [setSlot, Array.size_setIfInBounds]
    exact holds.room
  slot := fun other => by
    rw [slotAt_setSlot store (holds.offset_lt found), funext holds.slot]
    rfl

theorem offset?_ok (key : Key) :
    ∃ after : Chart, Chart.Agrees chart after ∧
      offset? key ⟨store, chart.shapes⟩ =
        .ok (record.layout.offset? key) ⟨store, after.shapes⟩ := by
  obtain ⟨after, agrees, ran⟩ := Chart.lookup_ok holds.live key
  refine ⟨after, agrees, ?_⟩
  unfold offset?
  rw [Action.bind_ok (Action.get_apply _), ← holds.layout]
  exact onShapes_ok ran

theorem find?_ok (key : Key) :
    ∃ after : Chart, Chart.Agrees chart after ∧
      find? key ⟨store, chart.shapes⟩ =
        .ok ((record.layout.offset? key).map fun offset => (offset, record.slot offset))
          ⟨store, after.shapes⟩ := by
  obtain ⟨after, agrees, ran⟩ := holds.offset?_ok key
  refine ⟨after, agrees, ?_⟩
  unfold find?
  rw [Action.bind_ok ran]
  cases found : record.layout.offset? key with
  | none => rfl
  | some offset =>
    have slot := holds.getElem?_slots (holds.offset_lt found)
    simp only
    rw [Action.bind_ok (Action.get_apply _)]
    simp only [slot, Option.map_some]
    rfl

theorem slot?_ok (key : Key) :
    ∃ after : Chart, Chart.Agrees chart after ∧
      slot? key ⟨store, chart.shapes⟩ = .ok (record.find? key) ⟨store, after.shapes⟩ := by
  obtain ⟨after, agrees, ran⟩ := holds.find?_ok key
  refine ⟨after, agrees, ?_⟩
  unfold slot?
  rw [Action.bind_ok ran, Option.map_map]
  rfl

theorem keys_ok (filter : KeyFilter) :
    ∃ after : Chart, Chart.Agrees chart after ∧
      keys filter ⟨store, chart.shapes⟩ = .ok (record.keys filter) ⟨store, after.shapes⟩ := by
  obtain ⟨after, agrees, ran⟩ := Chart.names_ok holds.live
  refine ⟨after, agrees, ?_⟩
  unfold keys
  rw [Action.bind_ok (Action.get_apply _), Action.bind_ok (onShapes_ok ran), holds.layout,
    funext holds.slot]
  rfl

theorem insert_ok (absent : record.layout.offset? key = none) (slot : Slot) :
    ∃ (moved : Store) (after : Chart),
      insert key slot ⟨store, chart.shapes⟩ = .ok () ⟨moved, after.shapes⟩ ∧
      moved.Holds after (record.insert key slot) ∧
      Chart.Moves chart after store.shape moved.shape ∧
      (chart.Shared store.shape → after.shapes.child? store.shape key = some moved.shape) := by
  have missing : (chart.layouts store.shape).offset? key = none := holds.layout ▸ absent
  obtain ⟨own, after, ran, layout, moves, led⟩ := Chart.add_ok holds.live missing
  rw [holds.layout] at ran layout
  have larger := Layout.size_add_le absent
  have room := holds.room
  unfold insert
  rw [Action.bind_ok (Action.get_apply _), Action.bind_ok (onShapes_ok ran)]
  simp only
  rw [Action.bind_ok (update_ok _)]
  by_cases bound : record.layout.next < store.slots.size
  · refine ⟨{ store with shape := own }.setSlot record.layout.next slot, after, ?_, ?_, moves, led⟩
    · rw [if_pos bound]
      rfl
    · refine ⟨moves.reached, layout, ?_, fun other => ?_⟩
      · simp only [setSlot, Array.size_setIfInBounds, Record.insert]
        omega
      · rw [slotAt_setSlot { store with shape := own } bound]
        exact congrFun (congrArg (Function.update · _ _) (funext holds.slot)) other
  · obtain ⟨capacity, reserved, enough⟩ := Chart.capacity_ok moves.reached
    rw [layout] at enough
    let grown := { store with shape := own }.grow (max capacity (record.layout.next + 1))
    have size : max capacity (record.layout.next + 1) ≤ grown.slots.size := size_grow ..
    have room : record.layout.next < grown.slots.size := by omega
    refine ⟨grown.setSlot record.layout.next slot, after, ?_, ?_, moves, led⟩
    · rw [if_neg bound, Action.bind_ok (onShapes_ok reserved)]
      rfl
    · refine ⟨moves.reached, layout, ?_, fun other => ?_⟩
      · simp only [setSlot, Array.size_setIfInBounds, Record.insert]
        omega
      · rw [slotAt_setSlot grown room, slotAt_grow]
        exact congrFun (congrArg (Function.update · _ _) (funext holds.slot)) other

theorem define_becomes (key : Key) (desc : Descriptor) (extensible : Bool) :
    ∃ (moved : Store) (after : Chart),
      define key desc extensible ⟨store, chart.shapes⟩ =
        .ok (record.define key desc extensible).1 ⟨moved, after.shapes⟩ ∧
      moved.Holds after (record.define key desc extensible).2 ∧
      Chart.Moves chart after store.shape moved.shape ∧
      Becomes chart after store moved record (record.define key desc extensible).2 key := by
  obtain ⟨between, agrees, found⟩ := holds.find?_ok key
  have kept := holds.extend agrees.extends
  have moves := agrees.extends.moves holds.live
  unfold define Record.define
  rw [Action.bind_ok found]
  cases present : record.layout.offset? key with
  | some offset =>
    simp only [Option.map_some]
    cases verdict : (record.slot offset).validate desc with
    | accepted => exact ⟨_, between, rfl, kept.set present _, moves, .stay rfl rfl⟩
    | rejected reason => exact ⟨store, between, rfl, kept, moves, .stay rfl rfl⟩
  | none =>
    simp only [Option.map_none]
    by_cases allowed : extensible = true
    · obtain ⟨moved, after, ran, held, further, led⟩ := kept.insert_ok present (.ofDescriptor desc)
      simp only [if_pos allowed]
      refine ⟨moved, after, ?_, held, moves.trans further, .add present rfl fun shared => ?_⟩
      · rw [Action.bind_ok ran]
        rfl
      · exact led ((agrees.shared store.shape).mpr shared)
    · simp only [if_neg allowed]
      exact ⟨store, between, rfl, kept, moves, .stay rfl rfl⟩

theorem delete_becomes (key : Key) :
    ∃ (moved : Store) (after : Chart),
      delete key ⟨store, chart.shapes⟩ = .ok (record.delete key).1 ⟨moved, after.shapes⟩ ∧
      moved.Holds after (record.delete key).2 ∧
      Chart.Moves chart after store.shape moved.shape ∧
      Becomes chart after store moved record (record.delete key).2 key := by
  obtain ⟨between, agrees, found⟩ := holds.offset?_ok key
  have kept := holds.extend agrees.extends
  have moves := agrees.extends.moves holds.live
  unfold delete Record.delete
  rw [Action.bind_ok found]
  cases present : record.layout.offset? key with
  | none => exact ⟨store, between, rfl, kept, moves, .stay rfl rfl⟩
  | some offset =>
    simp only
    rw [Action.bind_ok (Action.get_apply _)]
    simp only [holds.slot offset]
    by_cases deletable : (record.slot offset).flags.configurable = true
    · obtain ⟨own, after, ran, layout, further⟩ := Chart.remove_ok kept.live key
      rw [kept.layout] at layout
      simp only [if_pos deletable]
      refine ⟨{ store with shape := own }.setSlot offset .vacant, after, ?_, ?_,
        moves.trans further, .drop offset present rfl⟩
      · rw [Action.bind_ok (onShapes_ok ran)]
        rfl
      · refine ⟨further.reached, layout, ?_, fun other => ?_⟩
        · simp only [setSlot, Array.size_setIfInBounds, Record.erase]
          rw [Layout.size_remove holds.layout_sound]
          exact holds.room
        · rw [slotAt_setSlot { store with shape := own } (holds.offset_lt present)]
          exact congrFun (congrArg (Function.update · _ _) (funext holds.slot)) other
    · simp only [if_neg deletable]
      exact ⟨store, between, rfl, kept, moves, .stay rfl rfl⟩

theorem define_ok (key : Key) (desc : Descriptor) (extensible : Bool) :
    ∃ (moved : Store) (after : Chart),
      define key desc extensible ⟨store, chart.shapes⟩ =
        .ok (record.define key desc extensible).1 ⟨moved, after.shapes⟩ ∧
      moved.Holds after (record.define key desc extensible).2 ∧
      Chart.Moves chart after store.shape moved.shape := by
  obtain ⟨moved, after, ran, held, moves, _⟩ := holds.define_becomes key desc extensible
  exact ⟨moved, after, ran, held, moves⟩

theorem delete_ok (key : Key) :
    ∃ (moved : Store) (after : Chart),
      delete key ⟨store, chart.shapes⟩ = .ok (record.delete key).1 ⟨moved, after.shapes⟩ ∧
      moved.Holds after (record.delete key).2 ∧
      Chart.Moves chart after store.shape moved.shape := by
  obtain ⟨moved, after, ran, held, moves, _⟩ := holds.delete_becomes key
  exact ⟨moved, after, ran, held, moves⟩

end Holds

end HiddenClass.Store
