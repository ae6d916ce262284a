import HiddenClass.Proofs.Collect.Sweep
import HiddenClass.Proofs.Realm.Simulation

/-!
The cells that an object keeps alive are those that it shows: its prototype, the objects in its
properties, and its shape. Nothing is left over in a slot or an element that is no property.
-/

namespace HiddenClass

variable {target : Handle} {cell : Cell}

namespace Value

variable {value : Value}

theorem mem_edges : cell ∈ value.edges ↔ ∃ target ∈ value.handles, cell = .object target := by
  cases value <;> simp [edges, handles]

theorem not_hole_of_edge (member : cell ∈ value.edges) : value.isHole = false := by
  cases value with
  | object handle => rfl
  | _ => cases member

end Value

namespace Slot

variable {slot : Slot} {P : Value → Prop}

/-- Nothing is held beside what the property shows. -/
theorem mem_edges (proper : slot.Proper P) :
    cell ∈ slot.edges ↔ ∃ target ∈ slot.toDescriptor.handles, cell = .object target := by
  unfold edges toDescriptor
  simp only [List.mem_append, Value.mem_edges]
  cases accessor : slot.flags.accessor with
  | true =>
    simp [Descriptor.accessor, Descriptor.handles, proper.accessor accessor, Value.handles, or_and_right,
      exists_or]
  | false =>
    obtain ⟨getter, setter⟩ := proper.data accessor
    simp [Descriptor.data, Descriptor.handles, getter, setter, Value.handles]

end Slot

namespace Shape

variable {shape : Shape}

theorem mem_edges_of_child {children : Transitions} {entry : Key × Handle}
    (sharing : shape.sharing = .shared children) (member : entry ∈ children.entries) :
    .shape entry.2 ∈ shape.edges := by
  unfold edges
  rw [sharing]
  exact List.mem_append_left _ (List.mem_map.mpr ⟨entry, member, rfl⟩)

theorem mem_edges_of_previous {previous : Handle} (linked : shape.previous = some previous) :
    .shape previous ∈ shape.edges :=
  List.mem_append_right _ (List.mem_map_of_mem (Option.mem_toList.mpr linked))

end Shape

namespace Store

variable {store : Store} {chart : Chart} {record : Record}

/-- Slots without a name hold nothing. -/
theorem Holds.mem_edges (holds : store.Holds chart record) (sound : record.Sound) :
    cell ∈ store.slots.toList.flatMap Slot.edges ↔
      ∃ key slot, record.find? key = some slot ∧ cell ∈ slot.edges := by
  rw [List.mem_flatMap]
  constructor
  · rintro ⟨slot, member, edge⟩
    obtain ⟨offset, present⟩ := Array.mem_iff_getElem?.mp (Array.mem_toList_iff.mp member)
    have held : record.slot offset = slot := by
      rw [← holds.slot, slotAt, present, Option.getD_some]
    by_cases named : ∃ key, record.layout.offset? key = some offset
    · obtain ⟨key, found⟩ := named
      exact ⟨key, slot, held ▸ Record.find?_of_offset? found, edge⟩
    · rw [← held, sound.vacant offset fun key found => named ⟨key, found⟩] at edge
      exact absurd edge List.not_mem_nil
  · rintro ⟨key, slot, found, edge⟩
    obtain ⟨offset, placed, held⟩ := Option.map_eq_some_iff.mp found
    have here := holds.getElem?_slots (holds.offset_lt placed)
    rw [held] at here
    exact ⟨slot, Array.mem_toList_iff.mpr (Array.mem_of_getElem? here), edge⟩

end Store

namespace Elements

variable {elements : Elements}

theorem mem_edges (sound : elements.Sound) :
    cell ∈ elements.edges ↔
      ∃ index value, elements.element index = some value ∧ cell ∈ value.edges := by
  unfold edges
  rw [List.mem_append, List.mem_flatMap, List.mem_flatMap]
  constructor
  · rintro (⟨value, member, edge⟩ | ⟨⟨index, value⟩, member, edge⟩)
    · obtain ⟨index, present⟩ := Array.mem_iff_getElem?.mp (Array.mem_toList_iff.mp member)
      have small : index < elements.maxVectorSize :=
        Nat.lt_of_lt_of_le (Array.getElem?_eq_some_iff.mp present).1 sound.vector
      refine ⟨index, value, ?_, edge⟩
      rw [element_of_lt small, present, Option.filter_some, Value.not_hole_of_edge edge]
      rfl
    · have large := sound.above _ member
      refine ⟨index, value, ?_, edge⟩
      rw [element_of_ge (Nat.not_lt.mpr large)]
      exact (lookup_eq_some_iff sound.ascending).mpr member
  · rintro ⟨index, value, held, edge⟩
    by_cases small : index < elements.maxVectorSize
    · rw [element_of_lt small] at held
      obtain ⟨present, _⟩ := Option.filter_eq_some_iff.mp held
      exact Or.inl ⟨value, Array.mem_toList_iff.mpr (Array.mem_of_getElem? present), edge⟩
    · rw [element_of_ge small] at held
      exact Or.inr ⟨(index, value), mem_of_lookup held, edge⟩

end Elements

/-- The length is a number. -/
theorem Elements.View.handles_lengthSlot (view : View) :
    view.lengthSlot.toDescriptor.handles = [] := by
  have number : (Value.ofWord view.length).handles = [] := by
    unfold Value.ofWord
    split <;> rfl
  have handles : view.lengthSlot.toDescriptor.handles =
      (Value.ofWord view.length).handles ++ [] ++ [] := rfl
  rw [handles, number]
  rfl

namespace Object

/-- The objects that a view shows: its prototype and those in its properties. -/
def View.Shows (view : View) (target : Handle) : Prop :=
  view.prototype = some target ∨
    ∃ key desc, view.getOwn key = some desc ∧ target ∈ desc.handles

variable {object : Object} {chart : Chart} {view : View} {content : Content} {P : Value → Prop}

/-- The properties of an ordinary object are those of its store. -/
theorem mem_edges_record {record : Record} (proper : record.Proper P) :
    (∃ key slot, record.find? key = some slot ∧ cell ∈ slot.edges) ↔
      ∃ key desc, (record.find? key).map Slot.toDescriptor = some desc ∧
        ∃ target ∈ desc.handles, cell = .object target := by
  constructor
  · rintro ⟨key, slot, found, edge⟩
    exact ⟨key, slot.toDescriptor, by rw [found, Option.map_some],
      (Slot.mem_edges (proper key slot found)).mp edge⟩
  · rintro ⟨key, desc, shown, held⟩
    obtain ⟨slot, found, rfl⟩ := Option.map_eq_some_iff.mp shown
    exact ⟨key, slot, found, (Slot.mem_edges (proper key slot found)).mpr held⟩

theorem getOwn_of_stored {array : Elements.View} (sound : array.Sound) {key : Key} {slot : Slot}
    (found : array.record.find? key = some slot) :
    (Content.array array).getOwn key = some slot.toDescriptor := by
  cases role : key.role with
  | element index =>
    obtain ⟨rfl, small⟩ := Key.of_role_element role
    have stored : array.stored index = some slot := found
    have empty : array.element index = none := by
      rw [← Option.not_isSome_iff_eq_none]
      intro held
      rw [sound.apart index held] at stored
      cases stored
    have sparse : ¬array.dense = true := by
      intro dense
      rw [sound.dense dense index small] at stored
      cases stored
    have peeked := Elements.View.peek_of_empty empty
    rw [Content.getOwn_element role, Elements.View.getOwn_of_absent peeked, if_neg sparse, stored,
      Option.map_some]
  | length =>
    rw [Key.of_role_length role, sound.length] at found
    cases found
  | name => rw [Content.getOwn_name role, found, Option.map_some]

theorem getOwn_of_element {array : Elements.View} (sound : array.Sound) {index : Nat} {value : Value}
    (held : array.element index = some value) (visible : value.isHole = false) :
    (Content.array array).getOwn (.index index) = some (.plain value) := by
  have small := sound.index index (by rw [held]; rfl)
  have role : (Key.index index).role = .element index := by rw [Key.role_index, if_pos small]
  have peeked := Elements.View.peek_of_held held visible
  rw [Content.getOwn_element role, Elements.View.getOwn_of_peek peeked]

/-- What an array shows is an element or a stored property, or its length. -/
theorem held_of_getOwn {array : Elements.View} {key : Key} {desc : Descriptor}
    (shown : (Content.array array).getOwn key = some desc) :
    (∃ index value, array.element index = some value ∧ desc = .plain value) ∨
      (∃ key slot, array.record.find? key = some slot ∧ desc = slot.toDescriptor) ∨
      desc = array.lengthSlot.toDescriptor := by
  cases role : key.role with
  | element index =>
    rw [Content.getOwn_element role] at shown
    cases peeked : array.peek index with
    | some value =>
      rw [Elements.View.getOwn_of_peek peeked] at shown
      exact Or.inl ⟨index, value, (Option.filter_eq_some_iff.mp peeked).1, (Option.some.inj shown).symm⟩
    | none =>
      rw [Elements.View.getOwn_of_absent peeked] at shown
      by_cases dense : array.dense = true
      · rw [if_pos dense] at shown
        cases shown
      · rw [if_neg dense] at shown
        obtain ⟨slot, found, same⟩ := Option.map_eq_some_iff.mp shown
        exact Or.inr (Or.inl ⟨.index index, slot, found, same.symm⟩)
  | length =>
    rw [Content.getOwn_length role] at shown
    exact Or.inr (Or.inr (Option.some.inj shown).symm)
  | name =>
    rw [Content.getOwn_name role] at shown
    obtain ⟨slot, found, same⟩ := Option.map_eq_some_iff.mp shown
    exact Or.inr (Or.inl ⟨key, slot, found, same.symm⟩)

/-- The cells in the slots and elements of an object are those in its properties. -/
theorem Content.Holds.mem_edges (holds : content.Holds object chart) (sound : content.Sound)
    (proper : content.Proper P) (cell : Cell) :
    (cell ∈ object.store.slots.toList.flatMap Slot.edges ∨
      ∃ elements, object.kind = .array elements ∧ cell ∈ elements.edges) ↔
      ∃ key desc, content.getOwn key = some desc ∧ ∃ target ∈ desc.handles, cell = .object target := by
  cases content with
  | ordinary record =>
    obtain ⟨kind, held⟩ := holds
    have none : ¬∃ elements, object.kind = .array elements ∧ cell ∈ elements.edges := by
      rintro ⟨elements, array, _⟩
      rw [kind] at array
      cases array
    rw [held.mem_edges sound, or_iff_left none]
    exact mem_edges_record proper
  | array array =>
    obtain ⟨elements, kind, held⟩ := holds
    rw [held.store.mem_edges sound.record]
    constructor
    · rintro (⟨key, slot, found, edge⟩ | ⟨others, same, edge⟩)
      · exact ⟨key, slot.toDescriptor, getOwn_of_stored sound found,
          (Slot.mem_edges (proper.record key slot found)).mp edge⟩
      · rw [kind] at same
        cases same
        obtain ⟨index, value, present, inside⟩ := (Elements.mem_edges held.sound).mp edge
        rw [held.element] at present
        refine ⟨.index index, .plain value,
          getOwn_of_element sound present (Value.not_hole_of_edge inside), ?_⟩
        obtain ⟨target, member, same⟩ := Value.mem_edges.mp inside
        exact ⟨target, List.mem_append_left _ (List.mem_append_left _ member), same⟩
    · rintro ⟨key, desc, shown, target, member, rfl⟩
      rcases held_of_getOwn shown with ⟨index, value, present, rfl⟩ | ⟨other, slot, found, rfl⟩ | rfl
      · have inside : target ∈ value.handles := by
          simpa [Descriptor.plain, Descriptor.data, Descriptor.handles, Value.handles] using member
        refine Or.inr ⟨elements, kind, (Elements.mem_edges held.sound).mpr ⟨index, value, ?_, ?_⟩⟩
        · exact (held.element index).trans present
        · exact Value.mem_edges.mpr ⟨target, inside, rfl⟩
      · exact Or.inl ⟨other, slot, found,
          (Slot.mem_edges (proper.record other slot found)).mpr ⟨target, member, rfl⟩⟩
      · exact absurd member (by simp [Elements.View.handles_lengthSlot])

/-- An object keeps alive its shape and what it shows. -/
theorem Holds.mem_edges (holds : object.Holds chart view) (sound : view.content.Sound)
    (proper : view.content.Proper P) :
    cell ∈ object.edges ↔
      cell = .shape object.store.shape ∨ ∃ target, view.Shows target ∧ cell = .object target := by
  have held := holds.content.mem_edges sound proper cell
  have shown : (∃ target, view.Shows target ∧ cell = .object target) ↔
      (∃ key desc, view.content.getOwn key = some desc ∧
        ∃ target ∈ desc.handles, cell = .object target) ∨
      ∃ target, view.prototype = some target ∧ cell = .object target := by
    constructor
    · rintro ⟨target, linked | ⟨key, desc, own, member⟩, rfl⟩
      · exact Or.inr ⟨target, linked, rfl⟩
      · exact Or.inl ⟨key, desc, own, target, member, rfl⟩
    · rintro (⟨key, desc, own, target, member, rfl⟩ | ⟨target, linked, rfl⟩)
      · exact ⟨target, Or.inr ⟨key, desc, own, member⟩, rfl⟩
      · exact ⟨target, Or.inl linked, rfl⟩
  rw [shown, ← held]
  unfold edges
  rw [holds.prototype]
  cases kind : object.kind with
  | ordinary => simp [eq_comm]
  | array elements => simp [or_assoc, eq_comm]

end Object

end HiddenClass
