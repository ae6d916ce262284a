import HiddenClass.Proofs.Elements.Basic
import HiddenClass.Proofs.Elements.View
import HiddenClass.Proofs.Store

/-!
The operations on an array do what their counterparts do to its view, wherever the elements are held
and whichever way a shortened array is cleared.
-/

namespace HiddenClass.Elements

/-- The array has the content of the view. -/
structure Holds (elements : Elements) (store : Store) (chart : Chart) (view : View) : Prop where
  sound : elements.Sound
  element : ∀ index, elements.element index = view.element index
  dense : elements.dense = view.dense
  length : elements.length = view.length
  lengthWritable : elements.lengthWritable = view.lengthWritable
  store : store.Holds chart view.record

/-- Another store may take the place of the first. -/
theorem Holds.withStore {elements : Elements} {store kept : Store} {chart after : Chart}
    {view : View} {record : Record} (holds : elements.Holds store chart view)
    (held : kept.Holds after record) : elements.Holds kept after { view with record } :=
  ⟨holds.sound, holds.element, holds.dense, holds.length, holds.lengthWritable, held⟩

/-- The action succeeds with the answer and leaves an array with the content of the view. -/
def Leads {α : Type} (action : Action α) (elements : Elements) (store : Store) (chart : Chart)
    (answer : α) (view : View) : Prop :=
  ∃ (moved : Elements) (kept : Store) (after : Chart),
    action ⟨elements, store, chart.shapes⟩ = .ok answer ⟨moved, kept, after.shapes⟩ ∧
    moved.Holds kept after view ∧ moved.maxVectorSize = elements.maxVectorSize ∧
    Chart.Moves chart after store.shape kept.shape

/-- As `Leads`, for an action that may also stop at a fault. -/
def Concludes {α : Type} (action : Action α) (elements : Elements) (store : Store) (chart : Chart)
    (answer : Except Fault α) (view : View) : Prop :=
  ∃ (moved : Elements) (kept : Store) (after : Chart),
    action ⟨elements, store, chart.shapes⟩ = Action.settled answer ⟨moved, kept, after.shapes⟩ ∧
    moved.Holds kept after view ∧ Chart.Moves chart after store.shape kept.shape

/-- Whether the indices that exist are listed to shorten an array, rather than those between its two
lengths visited. -/
def lists (elements : Elements) (length oldLength : Nat) : Bool :=
  !elements.dense && decide (elements.shrinkScanThreshold ≤ oldLength - length)

/-- The indices that are visited when an array is shortened. Where those that exist are not listed, all
lie below the old length. -/
structure Visits (elements : Elements) (view : View) (length oldLength : Nat) (indices : List Nat) :
    Prop extends view.Doomed length oldLength indices where
  below : elements.lists length oldLength = false → ∀ index ∈ indices, index < oldLength

variable {elements : Elements} {store : Store} {chart : Chart} {view final : View} {α β : Type}
  {action : Action α} {next : α → Action β} {answer : α} {result : β} {index : Nat}

namespace Leads

theorem concludes (leads : Leads action elements store chart answer view) :
    Concludes action elements store chart (.ok answer) view := by
  obtain ⟨moved, kept, after, ran, holds, _, moves⟩ := leads
  exact ⟨moved, kept, after, ran, holds, moves⟩

theorem pure (holds : elements.Holds store chart view) (answer : α) :
    Leads (pure answer) elements store chart answer view :=
  ⟨elements, store, chart, rfl, holds, rfl, (Chart.Extends.refl chart).moves holds.store.live⟩

theorem bind (first : Leads action elements store chart answer view)
    (second : ∀ moved kept after, moved.Holds kept after view →
      moved.maxVectorSize = elements.maxVectorSize → Leads (next answer) moved kept after result final) :
    Leads (action >>= next) elements store chart result final := by
  obtain ⟨moved, kept, between, ran, holds, bound, moves⟩ := first
  obtain ⟨last, left, after, ranNext, holdsLast, boundLast, movesLast⟩ :=
    second moved kept between holds bound
  exact ⟨last, left, after, (Action.bind_ok ran _).trans ranNext, holdsLast, boundLast.trans bound,
    moves.trans movesLast⟩

/-- What comes last may stop at a fault. -/
theorem follow {ending : Except Fault β} (first : Leads action elements store chart answer view)
    (second : ∀ moved kept after, moved.Holds kept after view →
      Concludes (next answer) moved kept after ending final) :
    Concludes (action >>= next) elements store chart ending final := by
  obtain ⟨moved, kept, between, ran, holds, _, moves⟩ := first
  obtain ⟨last, left, after, ranNext, holdsLast, movesLast⟩ := second moved kept between holds
  exact ⟨last, left, after, (Action.bind_ok ran _).trans ranNext, holdsLast, moves.trans movesLast⟩

theorem get {next : Context → Action β}
    (second : Leads (next ⟨elements, store, chart.shapes⟩) elements store chart result final) :
    Leads (get >>= next) elements store chart result final := second

theorem update (change : Elements → Elements) (holds : (change elements).Holds store chart view)
    (bound : (change elements).maxVectorSize = elements.maxVectorSize) :
    Leads (update change) elements store chart () view :=
  ⟨change elements, store, chart, rfl, holds, bound,
    (Chart.Extends.refl chart).moves holds.store.live⟩

/-- What a store does, an array does with its store. -/
theorem onStore {action : Store.Action α} {record : Record} (holds : elements.Holds store chart view)
    (ran : ∃ (kept : Store) (after : Chart),
      action ⟨store, chart.shapes⟩ = .ok answer ⟨kept, after.shapes⟩ ∧
      kept.Holds after record ∧ Chart.Moves chart after store.shape kept.shape) :
    Leads (Elements.onStore action) elements store chart answer { view with record } := by
  obtain ⟨kept, after, ran, held, moves⟩ := ran
  refine ⟨elements, kept, after, ?_, holds.withStore held, rfl, moves⟩
  unfold Elements.onStore Action.focus
  simp only [ran]

theorem onStore_agrees {action : Store.Action α} (holds : elements.Holds store chart view)
    (ran : ∃ after : Chart, Chart.Agrees chart after ∧
      action ⟨store, chart.shapes⟩ = .ok answer ⟨store, after.shapes⟩) :
    Leads (Elements.onStore action) elements store chart answer view := by
  obtain ⟨after, agrees, ran⟩ := ran
  exact Leads.onStore holds ⟨store, after, ran, holds.store.extend agrees.extends,
    agrees.extends.moves holds.store.live⟩

end Leads

theorem Concludes.get {next : Context → Action β} {ending : Except Fault β}
    (second : Concludes (next ⟨elements, store, chart.shapes⟩) elements store chart ending final) :
    Concludes (get >>= next) elements store chart ending final := second

namespace Holds

variable (holds : elements.Holds store chart view)
include holds

theorem peek (index : Nat) : elements.peek index = view.peek index := by
  rw [peek_eq, holds.element]
  rfl

theorem lengthSlot : elements.lengthSlot = view.lengthSlot := by
  rw [Elements.lengthSlot, holds.length, holds.lengthWritable]
  rfl

theorem take (index : Nat) : (elements.take index).2.Holds store chart (view.drop index) := by
  obtain ⟨vector, map, same, _, _⟩ := take_snd elements index
  refine ⟨sound_take holds.sound index, fun other => ?_, ?_, ?_, ?_, holds.store⟩
  · rw [element_take, View.element_drop, holds.element]
  · rw [same]
    exact holds.dense
  · rw [same]
    exact holds.length
  · rw [same]
    exact holds.lengthWritable

theorem makeSparse : elements.makeSparse.Holds store chart { view with dense := false } where
  sound := ⟨holds.sound.vector, holds.sound.ascending, holds.sound.above⟩
  element := fun index =>
    (element_congr elements.makeSparse elements rfl rfl rfl index).trans (holds.element index)
  dense := rfl
  length := holds.length
  lengthWritable := holds.lengthWritable
  store := holds.store

theorem put (index : Nat) (value : Value) :
    (elements.store index value).Holds store chart
      (view.put elements.maxVectorSize index value) := by
  obtain ⟨vector, map, same⟩ := store_eq elements index value
  refine ⟨sound_store holds.sound index value, fun other => ?_, ?_, ?_, ?_, holds.store⟩
  · rw [element_store holds.sound, View.element_put, holds.element]
  · rw [same]
    exact holds.dense
  · rw [same]
    exact holds.length
  · rw [same]
    exact holds.lengthWritable

theorem resize (length : Nat) (writable : Bool) :
    Holds { elements with length, lengthWritable := writable } store chart
      { view with length, lengthWritable := writable } where
  sound := ⟨holds.sound.vector, holds.sound.ascending, holds.sound.above⟩
  element := fun index =>
    (element_congr { elements with length, lengthWritable := writable } elements rfl rfl rfl
      index).trans (holds.element index)
  dense := holds.dense
  length := rfl
  lengthWritable := rfl
  store := holds.store

theorem setLengthSlot (slot : Slot) :
    (elements.setLengthSlot slot).Holds store chart (view.setLengthSlot slot) := by
  have length : (elements.setLengthSlot slot).length = (view.setLengthSlot slot).length := by
    unfold Elements.setLengthSlot View.setLengthSlot
    cases slot.value.toNumber.truncate with
    | none => exact holds.length
    | some _ => simp only [holds.length]
  have resized := holds.resize (elements.setLengthSlot slot).length slot.flags.writable
  exact ⟨resized.sound, resized.element, resized.dense, length, rfl, resized.store⟩

theorem settle (length : Nat) (writable : Bool) :
    (Elements.settle length writable elements).Holds store chart (view.settle length writable) := by
  have sound := sound_compact holds.sound length
  obtain ⟨vector, map, same⟩ := compact_eq elements length
  refine ⟨⟨sound.vector, sound.ascending, sound.above⟩, fun index => ?_, ?_, rfl, ?_, holds.store⟩
  · rw [element_congr (Elements.settle length writable elements) (elements.compact length) rfl rfl rfl,
      element_compact, holds.element]
    rfl
  · simp only [Elements.settle, same]
    exact holds.dense
  · simp only [Elements.settle, View.settle, holds.lengthWritable]

theorem storedSlot (index : Nat) :
    Leads (storedSlot index) elements store chart (view.stored index) view :=
  Leads.onStore_agrees holds (holds.store.slot?_ok _)

theorem getOwn (index : Nat) : Leads (getOwn index) elements store chart (view.getOwn index) view := by
  unfold Elements.getOwn
  refine Leads.get ?_
  simp only [Elements.lookup, holds.peek, holds.dense]
  unfold View.getOwn
  cases held : view.peek index with
  | some value => exact Leads.pure holds _
  | none =>
    by_cases dense : view.dense = true
    · simp only [if_pos dense]
      exact Leads.pure holds none
    · simp only [if_neg dense]
      refine (holds.storedSlot index).bind fun moved kept after holdsAfter _ => ?_
      exact Leads.pure holdsAfter _

theorem plainValue (index : Nat) (desc : Descriptor) :
    Leads (plainValue index desc) elements store chart (view.plainValue index desc) view := by
  unfold Elements.plainValue
  refine Leads.get ?_
  simp only [holds.peek, holds.dense]
  unfold View.plainValue
  cases held : view.peek index with
  | some current => exact Leads.pure holds _
  | none =>
    simp only
    by_cases odd : (!desc.isPlain) = true
    · rw [if_pos odd, if_pos odd]
      exact Leads.pure holds none
    · rw [if_neg odd, if_neg odd]
      by_cases dense : view.dense = true
      · rw [if_pos dense, if_pos dense]
        exact Leads.pure holds _
      · rw [if_neg dense, if_neg dense]
        refine (holds.storedSlot index).bind fun moved kept after holdsAfter _ => ?_
        exact Leads.pure holdsAfter _

theorem moveToStore (index : Nat) :
    Leads (moveToStore index) elements store chart () (view.moveToStore index) := by
  have element := holds.element index
  unfold Elements.moveToStore
  refine Leads.get ?_
  unfold View.moveToStore
  rw [← element]
  cases held : elements.element index with
  | none =>
    rw [take_of_none held]
    exact Leads.pure holds ()
  | some current =>
    have taken : elements.take index = (some current, (elements.take index).2) := Prod.ext held rfl
    rw [taken]
    have sparse := (holds.take index).makeSparse
    obtain ⟨vector, map, same, _, _⟩ := take_snd elements index
    have bound : (elements.take index).2.makeSparse.maxVectorSize = elements.maxVectorSize := by
      simp only [Elements.makeSparse, same]
    refine (Leads.update (fun _ => (elements.take index).2.makeSparse) sparse bound).bind ?_
    intro moved kept after holdsMoved _
    refine Leads.bind (Leads.onStore holdsMoved (holdsMoved.store.define_ok _ _ _)) ?_
    intro _ _ _ holdsLast _
    exact Leads.pure holdsLast ()

theorem defineStored (index : Nat) (desc : Descriptor) (extensible : Bool) :
    Leads (defineStored index desc extensible) elements store chart
      (view.defineStored index desc extensible).1 (view.defineStored index desc extensible).2 := by
  unfold Elements.defineStored View.defineStored
  refine (holds.moveToStore index).bind fun moved kept after holdsMoved _ => ?_
  refine (Leads.onStore holdsMoved (holdsMoved.store.define_ok _ _ _)).bind ?_
  intro last left later holdsLast _
  simp only
  cases ((view.moveToStore index).record.define (.index index) desc extensible).1 with
  | accepted =>
    refine (Leads.update Elements.makeSparse holdsLast.makeSparse rfl).bind fun _ _ _ holdsFinal _ => ?_
    exact Leads.pure holdsFinal _
  | rejected reason => exact Leads.pure holdsLast _

theorem defineElement (index : Nat) (desc : Descriptor) (extensible : Bool) :
    Leads (defineElement index desc extensible) elements store chart
      (view.defineElement elements.maxVectorSize index desc extensible).1
      (view.defineElement elements.maxVectorSize index desc extensible).2 := by
  unfold Elements.defineElement View.defineElement
  refine (holds.plainValue index desc).bind fun moved kept after holdsMoved bound => ?_
  cases view.plainValue index desc with
  | none => exact holdsMoved.defineStored index desc extensible
  | some value =>
    refine Leads.get ?_
    simp only [holdsMoved.peek]
    by_cases barred : ((view.peek index).isNone && !extensible) = true
    · simp only [if_pos barred]
      exact Leads.pure holdsMoved _
    · simp only [if_neg barred]
      have put := holdsMoved.put index value
      rw [bound] at put
      obtain ⟨vector, map, same⟩ := store_eq moved index value
      have kept := congrArg Elements.maxVectorSize same
      refine (Leads.update (fun elements => elements.store index value) put kept).bind ?_
      intro _ _ _ holdsFinal _
      exact Leads.pure holdsFinal _

theorem define (index : Nat) (desc : Descriptor) (extensible : Bool) :
    Leads (define index desc extensible) elements store chart
      (view.define elements.maxVectorSize index desc extensible).1
      (view.define elements.maxVectorSize index desc extensible).2 := by
  unfold Elements.define View.define
  refine Leads.get ?_
  simp only [holds.length, holds.lengthWritable]
  by_cases barred : (decide (view.length ≤ index) && !view.lengthWritable) = true
  · simp only [if_pos barred]
    exact Leads.pure holds _
  · simp only [if_neg barred]
    have defined := holds.defineElement index desc extensible
    generalize view.defineElement elements.maxVectorSize index desc extensible = outcome at defined ⊢
    refine defined.bind fun moved kept after holdsMoved _ => ?_
    cases outcome.1 with
    | rejected reason => exact Leads.pure holdsMoved _
    | accepted =>
      simp only
      by_cases past : view.length ≤ index
      · have resized := holdsMoved.resize (index + 1) moved.lengthWritable
        have longer : Holds { moved with length := index + 1 } kept after
            { outcome.2 with length := index + 1 } :=
          ⟨resized.sound, resized.element, resized.dense, rfl, holdsMoved.lengthWritable,
            resized.store⟩
        rw [if_pos past, View.reach, if_pos past]
        refine (Leads.update (fun elements => { elements with length := index + 1 }) longer rfl).bind ?_
        intro _ _ _ holdsFinal _
        exact Leads.pure holdsFinal _
      · rw [if_neg past, View.reach, if_neg past]
        exact Leads.pure holdsMoved _

theorem delete (index : Nat) :
    Leads (delete index) elements store chart (view.delete index).1 (view.delete index).2 := by
  obtain ⟨vector, map, same, _, _⟩ := take_snd elements index
  have bound : (elements.take index).2.maxVectorSize = elements.maxVectorSize := by rw [same]
  have dense : (elements.take index).2.dense = view.dense := (holds.take index).dense
  have taken : (elements.take index).1 = view.element index := holds.element index
  unfold Elements.delete View.delete
  refine Leads.get ?_
  simp only
  refine (Leads.update (fun _ => (elements.take index).2) (holds.take index) bound).bind ?_
  intro moved kept after holdsMoved _
  rw [taken, dense]
  by_cases easy : ((view.element index).isSome || view.dense) = true
  · rw [if_pos easy, if_pos easy]
    exact Leads.pure holdsMoved _
  · rw [if_neg easy, if_neg easy]
    have absent : view.element index = none := by
      rw [Bool.or_eq_true, not_or] at easy
      exact Option.not_isSome_iff_eq_none.mp easy.1
    have unchanged : view.drop index = view := by
      rw [View.drop, ← absent, Function.update_eq_self]
    rw [unchanged] at holdsMoved
    exact Leads.onStore holdsMoved (holdsMoved.store.delete_ok _)

theorem applyLength (desc : Descriptor) :
    Leads (applyLength desc) elements store chart (view.applyLength desc).1
      (view.applyLength desc).2 := by
  unfold Elements.applyLength View.applyLength
  refine Leads.get ?_
  simp only [holds.lengthSlot]
  cases view.lengthSlot.validate desc with
  | rejected reason => exact Leads.pure holds _
  | accepted =>
    refine (Leads.update (fun elements => elements.setLengthSlot _) (holds.setLengthSlot _) rfl).bind ?_
    intro _ _ _ holdsMoved _
    exact Leads.pure holdsMoved _

theorem applyLength_accepted {desc : Descriptor}
    (accepted : view.lengthSlot.validate desc = .accepted) :
    Elements.applyLength desc ⟨elements, store, chart.shapes⟩ = .ok .accepted
      ⟨elements.setLengthSlot (view.lengthSlot.merge desc), store, chart.shapes⟩ := by
  unfold Elements.applyLength
  rw [Action.bind_ok (Action.get_apply _)]
  simp only [holds.lengthSlot, accepted]
  rfl

theorem deleteEach (indices : List Nat) :
    Leads (deleteEach indices) elements store chart (view.deleteEach indices).1
      (view.deleteEach indices).2 := by
  induction indices generalizing elements store chart view with
  | nil => exact Leads.pure holds none
  | cons index rest ih =>
    have deleted := holds.delete index
    unfold Elements.deleteEach View.deleteEach
    generalize view.delete index = outcome at deleted ⊢
    refine deleted.bind fun moved kept after holdsMoved _ => ?_
    simp only
    cases outcome.1 with
    | accepted => exact ih holdsMoved
    | rejected reason => exact Leads.pure holdsMoved _

omit holds in
theorem deleteRange_eq (floor count : Nat) :
    deleteRange floor count = Elements.deleteEach (List.range' floor count).reverse := by
  induction count with
  | zero => rfl
  | succ count ih =>
    rw [List.range'_concat, List.reverse_append, deleteRange, ih]
    simp only [List.reverse_singleton, List.singleton_append, Nat.one_mul]
    rfl

omit holds in
theorem maxVectorSize_settle (length : Nat) (writable : Bool) (elements : Elements) :
    (Elements.settle length writable elements).maxVectorSize = elements.maxVectorSize := by
  obtain ⟨vector, map, same⟩ := compact_eq elements length
  simp only [Elements.settle, same]

theorem indicesFrom (sound : view.Sound) (length : Nat) :
    ∃ indices : List Nat, indices.Pairwise (fun first second => second < first) ∧
      (∀ index, index ∈ indices ↔ length ≤ index ∧ view.owns index = true) ∧
      Leads (indicesFrom length) elements store chart indices view := by
  let own := elements.indices ++ (view.record.keys .all).filterMap Key.index?
  refine ⟨(Indices.ascending (own.filter fun index => length ≤ index)).reverse, ?_, ?_, ?_⟩
  · exact List.pairwise_reverse.mpr (Indices.ascending_pairwise _)
  · intro index
    have stored : index ∈ (view.record.keys .all).filterMap Key.index? ↔
        (view.stored index).isSome = true := by
      rw [List.mem_filterMap]
      constructor
      · rintro ⟨key, member, same⟩
        cases key with
        | named id => cases same
        | index n =>
          rw [← Option.some.inj same]
          obtain ⟨slot, found, _⟩ := sound.record.mem_keys.mp member
          exact Option.isSome_iff_exists.mpr ⟨slot, found⟩
      · intro present
        obtain ⟨slot, found⟩ := Option.isSome_iff_exists.mp present
        exact ⟨.index index, sound.record.mem_keys.mpr ⟨slot, found, rfl⟩, rfl⟩
    rw [List.mem_reverse, Indices.mem_ascending, List.mem_filter, List.mem_append,
      mem_indices holds.sound, holds.element, stored, decide_eq_true_eq, and_comm, View.owns,
      Bool.or_eq_true]
  · unfold Elements.indicesFrom
    obtain ⟨after, agrees, ran⟩ := holds.store.keys_ok .all
    have ranHere : Elements.onStore (Store.keys .all) ⟨elements, store, chart.shapes⟩ =
        .ok (view.record.keys .all) ⟨elements, store, after.shapes⟩ := by
      unfold Elements.onStore Action.focus
      simp only [ran]
    refine ⟨elements, store, after, ?_, holds.withStore (holds.store.extend agrees.extends), rfl,
      agrees.extends.moves holds.store.live⟩
    rw [Action.bind_ok ranHere]
    rfl

theorem clear (sound : view.Sound) (length oldLength : Nat) :
    ∃ doomed, elements.Visits view length oldLength doomed ∧
      Leads (clear length oldLength) elements store chart (view.deleteEach doomed).1
        (view.deleteEach doomed).2 := by
  unfold Elements.clear
  by_cases dense : view.dense = true
  · refine ⟨[], ⟨⟨List.Pairwise.nil, ?_, ?_, fun _ => rfl⟩, ?_⟩, Leads.get ?_⟩
    · intro index member
      cases member
    · intro sparse
      rw [dense] at sparse
      cases sparse
    · intro _ index member
      cases member
    · simp only [holds.dense, if_pos dense]
      exact Leads.pure holds none
  · by_cases near : oldLength - length < elements.shrinkScanThreshold
    · refine ⟨(List.range' length (oldLength - length)).reverse, ⟨⟨?_, ?_, ?_, ?_⟩, ?_⟩,
        Leads.get ?_⟩
      · exact List.pairwise_reverse.mpr List.pairwise_lt_range'
      · intro index member
        exact (List.mem_range'_1.mp (List.mem_reverse.mp member)).1
      · intro _ index above below _
        exact List.mem_reverse.mpr (List.mem_range'_1.mpr ⟨above, by omega⟩)
      · exact fun wasDense => absurd wasDense dense
      · intro _ index member
        have bounds := List.mem_range'_1.mp (List.mem_reverse.mp member)
        omega
      · simp only [holds.dense, if_neg dense, if_pos near]
        rw [deleteRange_eq]
        exact holds.deleteEach _
    · obtain ⟨indices, descending, members, listed⟩ := holds.indicesFrom sound length
      refine ⟨indices, ⟨⟨descending, ?_, ?_, ?_⟩, ?_⟩, Leads.get ?_⟩
      · exact fun index member => ((members index).mp member).1
      · exact fun _ index above _ owned => (members index).mpr ⟨above, owned⟩
      · exact fun wasDense => absurd wasDense dense
      · intro unlisted
        rw [lists, holds.dense, Bool.eq_false_iff.mpr dense, decide_eq_true (Nat.not_lt.mp near)]
          at unlisted
        cases unlisted
      · simp only [holds.dense, if_neg dense, if_neg near]
        exact listed.bind fun moved kept after holdsMoved _ => holdsMoved.deleteEach indices

theorem concludes_throw (fault : Fault) :
    Concludes (throw fault : Action α) elements store chart (.error fault) view :=
  ⟨elements, store, chart, rfl, holds, (Chart.Extends.refl chart).moves holds.store.live⟩

theorem shrink (sound : view.Sound) (length oldLength : Nat) (writable : Bool) :
    ∃ doomed, elements.Visits view length oldLength doomed ∧
      Concludes (shrink length oldLength writable) elements store chart
        (view.shrink doomed length writable).1 (view.shrink doomed length writable).2 := by
  obtain ⟨doomed, listed, cleared⟩ := holds.clear sound length oldLength
  refine ⟨doomed, listed, ?_⟩
  unfold Elements.shrink View.shrink
  generalize view.deleteEach doomed = outcome at cleared ⊢
  refine cleared.follow fun moved kept after holdsMoved => ?_
  simp only
  cases outcome.1 with
  | none =>
    refine (Leads.update (Elements.settle length writable) (holdsMoved.settle length writable)
      (maxVectorSize_settle ..)).follow fun _ _ _ holdsFinal => ?_
    exact (Leads.pure holdsFinal _).concludes
  | some index =>
    by_cases small : index < Key.indexBound
    · simp only [if_pos small]
      refine (Leads.update (Elements.settle (index + 1) writable)
        (holdsMoved.settle (index + 1) writable) (maxVectorSize_settle ..)).follow
        fun _ _ _ holdsFinal => ?_
      exact (Leads.pure holdsFinal _).concludes
    · simp only [if_neg small]
      exact holdsMoved.concludes_throw .overflow

theorem assignLength (sound : view.Sound) {desc : Descriptor} {length : Nat}
    (given : ¬desc.lacksValue = true) (valid : lengthOf? desc.value = some length) :
    ∃ doomed, elements.Visits view length view.length doomed ∧
      Concludes (defineLength desc) elements store chart
        (view.assignLength doomed length desc.attributes).1
        (view.assignLength doomed length desc.attributes).2 := by
  let wanted := Descriptor.data (.ofWord length) desc.attributes
  have applied := holds.applyLength (wanted.withWritable true)
  have applySound := sound.applyLength (wanted.withWritable true)
  unfold Elements.defineLength
  rw [if_neg given, valid]
  simp only
  have trivially : ∃ doomed, elements.Visits view length view.length doomed := by
    obtain ⟨doomed, listed, _⟩ := holds.clear sound length view.length
    exact ⟨doomed, listed⟩
  by_cases longer : view.length ≤ length
  · obtain ⟨doomed, listed⟩ := trivially
    refine ⟨doomed, listed, .get ?_⟩
    simp only [holds.length, if_pos longer, View.assignLength]
    exact (holds.applyLength wanted).concludes
  · by_cases fixed : (!view.lengthWritable) = true
    · obtain ⟨doomed, listed⟩ := trivially
      refine ⟨doomed, listed, .get ?_⟩
      simp only [holds.length, holds.lengthWritable, if_neg longer, if_pos fixed, View.assignLength]
      exact (Leads.pure holds _).concludes
    · cases verdict : view.lengthSlot.validate (wanted.withWritable true) with
      | rejected reason =>
        obtain ⟨doomed, listed⟩ := trivially
        refine ⟨doomed, listed, .get ?_⟩
        simp only [holds.length, holds.lengthWritable, if_neg longer, if_neg fixed,
          View.assignLength]
        refine applied.follow fun moved kept after holdsMoved => ?_
        have refused : view.applyLength (wanted.withWritable true) = (.rejected reason, view) := by
          rw [View.applyLength, verdict]
        rw [refused] at holdsMoved ⊢
        exact (Leads.pure holdsMoved _).concludes
      | accepted =>
        have lowered : view.applyLength (wanted.withWritable true) =
            (.accepted, view.setLengthSlot (view.lengthSlot.merge (wanted.withWritable true))) := by
          rw [View.applyLength, verdict]
        rw [lowered] at applySound
        have holdsMoved := holds.setLengthSlot (view.lengthSlot.merge (wanted.withWritable true))
        obtain ⟨doomed, listed, last, left, after, ranShrink, holdsLast, moves⟩ :=
          holdsMoved.shrink applySound length view.length
            (desc.attributes.writableAbsent || desc.attributes.writable)
        refine ⟨doomed, ⟨⟨listed.descending, listed.above, listed.complete, listed.dense⟩,
          listed.below⟩, .get ?_⟩
        simp only [holds.length, holds.lengthWritable, if_neg longer, if_neg fixed,
          View.assignLength]
        rw [lowered]
        refine ⟨last, left, after, ?_, holdsLast, moves⟩
        rw [Action.bind_ok (holds.applyLength_accepted verdict)]
        exact ranShrink

/-- A value that is no array length is an error that leaves everything as it is. -/
theorem defineLength (sound : view.Sound) (desc : Descriptor) :
    ∃ doomed,
      (∀ length, lengthOf? desc.value = some length →
        elements.Visits view length view.length doomed) ∧
      Concludes (defineLength desc) elements store chart (view.defineLength doomed desc).1
        (view.defineLength doomed desc).2 := by
  unfold View.defineLength
  cases valid : lengthOf? desc.value with
  | none =>
    refine ⟨[], fun _ same => absurd same.symm (Option.some_ne_none _), ?_⟩
    unfold Elements.defineLength
    by_cases bare : desc.lacksValue = true
    · simp only [if_pos bare]
      exact (holds.applyLength desc).concludes
    · simp only [if_neg bare, valid]
      exact holds.concludes_throw _
  | some length =>
    by_cases bare : desc.lacksValue = true
    · obtain ⟨doomed, listed, _⟩ := holds.clear sound length view.length
      refine ⟨doomed, fun other same => Option.some.inj same ▸ listed, ?_⟩
      unfold Elements.defineLength
      simp only [if_pos bare]
      exact (holds.applyLength desc).concludes
    · obtain ⟨doomed, listed, concludes⟩ := holds.assignLength sound bare valid
      refine ⟨doomed, fun other same => Option.some.inj same ▸ listed, ?_⟩
      simp only [if_neg bare]
      exact concludes

end Holds

end HiddenClass.Elements
