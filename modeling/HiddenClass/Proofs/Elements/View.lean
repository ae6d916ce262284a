import HiddenClass.Elements.Length
import HiddenClass.Proofs.Record
import Mathlib.Data.List.Sort

/-!
Array views: what an array holds, apart from the container that holds it. The operations on an array
are stated here as functions of its view. Two parameters remain. Below `bound` a hole leaves nothing
behind, and `doomed` lists the indices that are visited when the array is shortened.
-/

namespace HiddenClass.Value

theorem isHole_eq_false {value : Value} (solid : value ≠ .hole) : value.isHole = false := by
  cases value with
  | hole => exact absurd rfl solid
  | _ => rfl

end HiddenClass.Value

namespace HiddenClass.Elements

structure View where
  element : Nat → Option Value
  dense : Bool
  length : Nat
  lengthWritable : Bool
  /-- All other properties. -/
  record : Record

namespace View

/-- The array of a length without any property of its own. -/
def ofLength (length : Nat) : View :=
  { element := fun _ => none, dense := true, length, lengthWritable := true, record := {} }

def peek (view : View) (index : Nat) : Option Value :=
  (view.element index).filter fun value => !value.isHole

def stored (view : View) (index : Nat) : Option Slot := view.record.find? (.index index)

/-- Whether there is something to delete at an index. -/
def owns (view : View) (index : Nat) : Bool :=
  (view.element index).isSome || (view.stored index).isSome

def getOwn (view : View) (index : Nat) : Option Descriptor :=
  match view.peek index with
  | some value => some (.plain value)
  | none => if view.dense then none else (view.stored index).map Slot.toDescriptor

def put (bound index : Nat) (value : Value) (view : View) : View :=
  { view with
    element := Function.update view.element index
      (if value.isHole && index < bound then none else some value) }

def drop (index : Nat) (view : View) : View :=
  { view with element := Function.update view.element index none }

def plainValue (view : View) (index : Nat) (desc : Descriptor) : Option Value :=
  match view.peek index with
  | some current =>
    let slot := (Slot.plain current).merge desc
    if slot.flags = .plain then some slot.value else none
  | none =>
    let fresh := if desc.lacksValue then .undefined else desc.value
    if !desc.isPlain then none
    else if view.dense then some fresh
    else if (view.stored index).isSome then none else some fresh

def moveToStore (index : Nat) (view : View) : View :=
  match view.element index with
  | some current =>
    { view.drop index with
      dense := false
      record := (view.record.define (.index index) (.plain current) true).2 }
  | none => view

def defineStored (index : Nat) (desc : Descriptor) (extensible : Bool) (view : View) :
    Verdict × View :=
  let moved := view.moveToStore index
  let outcome := moved.record.define (.index index) desc extensible
  match outcome.1 with
  | .accepted => (.accepted, { moved with record := outcome.2, dense := false })
  | .rejected reason => (.rejected reason, { moved with record := outcome.2 })

def defineElement (bound index : Nat) (desc : Descriptor) (extensible : Bool) (view : View) :
    Verdict × View :=
  match view.plainValue index desc with
  | some value =>
    if (view.peek index).isNone && !extensible then (.rejected .notExtensible, view)
    else (.accepted, view.put bound index value)
  | none => view.defineStored index desc extensible

/-- Makes the array longer when the index lies at its old end or past it. -/
def reach (oldLength index : Nat) (view : View) : View :=
  if oldLength ≤ index then { view with length := index + 1 } else view

def define (bound index : Nat) (desc : Descriptor) (extensible : Bool) (view : View) :
    Verdict × View :=
  if view.length ≤ index && !view.lengthWritable then (.rejected .beyondFixedLength, view)
  else
    let outcome := view.defineElement bound index desc extensible
    match outcome.1 with
    | .accepted => (.accepted, outcome.2.reach view.length index)
    | .rejected reason => (.rejected reason, outcome.2)

def delete (index : Nat) (view : View) : Verdict × View :=
  if (view.element index).isSome || view.dense then (.accepted, view.drop index)
  else
    let outcome := view.record.delete (.index index)
    (outcome.1, { view with record := outcome.2 })

def lengthSlot (view : View) : Slot :=
  { value := .ofWord view.length, flags := .ofLength view.lengthWritable }

def setLengthSlot (slot : Slot) (view : View) : View :=
  let length :=
    match slot.value.toNumber.truncate with
    | some n => if 0 ≤ n ∧ n ≤ 4294967295 then n.toNat else view.length
    | none => view.length
  { view with length, lengthWritable := slot.flags.writable }

def applyLength (desc : Descriptor) (view : View) : Verdict × View :=
  match view.lengthSlot.validate desc with
  | .accepted => (.accepted, view.setLengthSlot (view.lengthSlot.merge desc))
  | .rejected reason => (.rejected reason, view)

/-- Deletes the given indices in turn up to one that refuses. -/
def deleteEach : List Nat → View → Option Nat × View
  | [], view => (none, view)
  | index :: rest, view =>
    let outcome := view.delete index
    match outcome.1 with
    | .accepted => deleteEach rest outcome.2
    | .rejected _ => (some index, outcome.2)

def settle (length : Nat) (writable : Bool) (view : View) : View :=
  { view with
    element := fun index => if index < length then view.element index else none
    length
    lengthWritable := view.lengthWritable && writable }

def shrink (doomed : List Nat) (length : Nat) (writable : Bool) (view : View) :
    Except Fault Verdict × View :=
  let outcome := view.deleteEach doomed
  match outcome.1 with
  | none => (.ok .accepted, outcome.2.settle length writable)
  | some index =>
    if index < Key.indexBound then
      (.ok (.rejected .shrinkStopped), outcome.2.settle (index + 1) writable)
    else (.error .overflow, outcome.2)

def assignLength (doomed : List Nat) (length : Nat) (attributes : Attributes) (view : View) :
    Except Fault Verdict × View :=
  let wanted := Descriptor.data (.ofWord length) attributes
  if view.length ≤ length then (.ok (view.applyLength wanted).1, (view.applyLength wanted).2)
  else if !view.lengthWritable then (.ok (.rejected .lengthReadOnly), view)
  else
    let outcome := view.applyLength (wanted.withWritable true)
    match outcome.1 with
    | .accepted => outcome.2.shrink doomed length (attributes.writableAbsent || attributes.writable)
    | .rejected reason => (.ok (.rejected reason), outcome.2)

def defineLength (doomed : List Nat) (desc : Descriptor) (view : View) :
    Except Fault Verdict × View :=
  if desc.lacksValue then (.ok (view.applyLength desc).1, (view.applyLength desc).2)
  else
    match lengthOf? desc.value with
    | none => (.error (.error .invalidLength), view)
    | some length => view.assignLength doomed length desc.attributes

/-- Indices in the order in which a shortened array is cleared. A sparse array has all that it owns
between the two lengths among them. -/
structure Doomed (view : View) (length oldLength : Nat) (indices : List Nat) : Prop where
  descending : indices.Pairwise fun first second => second < first
  above : ∀ index ∈ indices, length ≤ index
  complete : view.dense = false → ∀ index, length ≤ index → index < oldLength →
    view.owns index = true → index ∈ indices
  dense : view.dense = true → indices = []

/-- The keys of an array: `length`, its indices in ascending order, and its names in the order of
their slots. -/
def Lists (view : View) (filter : KeyFilter) (keys : List Key) : Prop :=
  ∃ indices : List Nat, indices.Pairwise (· < ·) ∧
    (∀ index, index ∈ indices ↔
      (view.element index).isSome = true ∨ Key.index index ∈ view.record.keys filter) ∧
    keys = (if filter = .all || view.lengthSlot.flags.enumerable then [Key.length] else [])
      ++ indices.map Key.index ++ (view.record.keys filter).filter fun key => key.index?.isNone

/-- The listing is determined by the view. -/
theorem Lists.unique {view : View} {filter : KeyFilter} {keys others : List Key}
    (lists : view.Lists filter keys) (listsOthers : view.Lists filter others) : keys = others := by
  obtain ⟨indices, ascending, members, rfl⟩ := lists
  obtain ⟨numbers, ascendingOthers, membersOthers, rfl⟩ := listsOthers
  have same : indices = numbers := ascending.eq_of_mem_iff ascendingOthers fun index =>
    (members index).trans (membersOthers index).symm
  rw [same]

/-! ### Soundness -/

/-- No property of an array is held twice, or where it is not looked for. -/
structure Sound (view : View) : Prop where
  record : view.record.Sound
  index : ∀ index, (view.element index).isSome = true → index < Key.indexBound
  apart : ∀ index, (view.element index).isSome = true → view.stored index = none
  dense : view.dense = true → ∀ index < Key.indexBound, view.stored index = none
  length : view.record.find? Key.length = none

variable {view : View} {index other bound length oldLength : Nat} {value : Value}
  {desc : Descriptor} {extensible writable : Bool} {doomed indices : List Nat}

theorem sound_ofLength (length : Nat) : (ofLength length).Sound where
  record := Record.sound_empty
  index := fun _ held => absurd held Bool.false_ne_true
  apart := fun _ held => absurd held Bool.false_ne_true
  dense := fun _ _ _ => rfl
  length := rfl

theorem peek_of_held (held : view.element index = some value) (visible : value.isHole = false) :
    view.peek index = some value := by
  rw [peek, held, Option.filter_some, visible]
  rfl

theorem peek_of_empty (empty : view.element index = none) : view.peek index = none := by
  rw [peek, empty, Option.filter_none]

theorem getOwn_of_peek (peeked : view.peek index = some value) :
    view.getOwn index = some (.plain value) := by
  rw [getOwn, peeked]

theorem getOwn_of_absent (peeked : view.peek index = none) :
    view.getOwn index = if view.dense then none else (view.stored index).map Slot.toDescriptor := by
  rw [getOwn, peeked]

theorem element_drop (view : View) (index other : Nat) :
    (view.drop index).element other = if other = index then none else view.element other :=
  Function.update_apply ..

theorem element_put (view : View) (bound index : Nat) (value : Value) (other : Nat) :
    (view.put bound index value).element other =
      if other = index then if value.isHole && index < bound then none else some value
      else view.element other :=
  Function.update_apply ..

theorem index_ne_length (index : Nat) : Key.index index ≠ Key.length := Key.noConfusion

/-- Where there is no element, none is moved. -/
theorem moveToStore_of_empty (empty : view.element index = none) : view.moveToStore index = view := by
  rw [View.moveToStore, empty]

theorem element_moveToStore (view : View) (index : Nat) :
    (view.moveToStore index).element index = none := by
  unfold View.moveToStore
  cases held : view.element index with
  | none => exact held
  | some current => exact (element_drop view index index).trans (if_pos rfl)

theorem stored_of_plainValue (sound : view.Sound) (small : index < Key.indexBound)
    (plain : view.plainValue index desc = some value) : view.stored index = none := by
  unfold plainValue peek at plain
  cases held : view.element index with
  | some current => exact sound.apart index (by rw [held]; rfl)
  | none =>
    rw [held] at plain
    by_cases dense : view.dense = true
    · exact sound.dense dense index small
    · cases stored : view.stored index with
      | none => rfl
      | some slot =>
        simp only [Option.filter_none, dense, stored, Option.isSome_some] at plain
        split at plain <;> cases plain

namespace Sound

variable (sound : view.Sound)
include sound

/-- Taking values away does no harm. -/
theorem restrict {element : Nat → Option Value}
    (less : ∀ index, (element index).isSome = true → (view.element index).isSome = true)
    (length : Nat) (writable : Bool) :
    Sound { view with element, length, lengthWritable := writable } where
  record := sound.record
  index := fun index held => sound.index index (less index held)
  apart := fun index held => sound.apart index (less index held)
  dense := sound.dense
  length := sound.length

theorem drop (index : Nat) : (view.drop index).Sound := by
  refine sound.restrict (fun other held => ?_) view.length view.lengthWritable
  rw [Function.update_apply] at held
  by_cases same : other = index
  · rw [if_pos same] at held
    cases held
  · rw [if_neg same] at held
    exact held

theorem put (small : index < Key.indexBound) (absent : view.stored index = none) (bound : Nat)
    (value : Value) : (view.put bound index value).Sound := by
  have held : ∀ other, ((view.put bound index value).element other).isSome = true →
      other = index ∨ (view.element other).isSome = true := by
    intro other present
    by_cases same : other = index
    · exact Or.inl same
    · rw [element_put, if_neg same] at present
      exact Or.inr present
  refine ⟨sound.record, fun other present => ?_, fun other present => ?_, sound.dense,
    sound.length⟩
  · rcases held other present with same | old
    · rw [same]
      exact small
    · exact sound.index other old
  · rcases held other present with same | old
    · rw [same]
      exact absent
    · exact sound.apart other old

/-- A record may change at an index where the elements have nothing, if the array is sparse then. -/
theorem write {record : Record} (recordSound : record.Sound) (empty : view.element index = none)
    (kept : ∀ key, key ≠ Key.index index → record.find? key = view.record.find? key) {dense : Bool}
    (sparse : dense = true → view.dense = true ∧ record.find? (.index index) = none) :
    Sound { view with record, dense } where
  record := recordSound
  index := sound.index
  apart := by
    intro other held
    have different : Key.index other ≠ Key.index index := by
      intro same
      rw [Key.index.inj same, empty] at held
      cases held
    exact (kept _ different).trans (sound.apart other held)
  dense := by
    intro wasDense other small
    obtain ⟨before, absent⟩ := sparse wasDense
    by_cases same : other = index
    · rw [same]
      exact absent
    · exact (kept _ fun equal => same (Key.index.inj equal)).trans (sound.dense before other small)
  length := (kept _ (index_ne_length index).symm).trans sound.length

theorem moveToStore (index : Nat) : (view.moveToStore index).Sound := by
  unfold View.moveToStore
  cases held : view.element index with
  | none => exact sound
  | some current =>
    have empty : (view.drop index).element index = none :=
      (element_drop view index index).trans (if_pos rfl)
    exact (sound.drop index).write (sound.record.define ..) empty
      (fun key different => sound.record.find?_define_of_ne different ..)
      (fun dense => absurd dense Bool.false_ne_true)

theorem defineStored (small : index < Key.indexBound) (desc : Descriptor) (extensible : Bool) :
    (view.defineStored index desc extensible).2.Sound := by
  have moved := sound.moveToStore index
  have empty := view.element_moveToStore index
  have recordSound := moved.record.define (.index index) desc extensible
  have kept : ∀ key, key ≠ Key.index index →
      ((view.moveToStore index).record.define (.index index) desc extensible).2.find? key =
        (view.moveToStore index).record.find? key :=
    fun key different => moved.record.find?_define_of_ne different desc extensible
  unfold View.defineStored
  simp only
  cases verdict : ((view.moveToStore index).record.define (.index index) desc extensible).1 with
  | accepted =>
    exact moved.write recordSound empty kept fun dense => absurd dense Bool.false_ne_true
  | rejected reason =>
    refine moved.write recordSound empty kept fun dense => ⟨dense, ?_⟩
    obtain ⟨answer, after⟩ := moved.record.define_eq (.index index) desc extensible
    have absent : (view.moveToStore index).record.find? (.index index) = none :=
      moved.dense dense index small
    rw [after, if_pos rfl, absent]
    rw [verdict, absent] at answer
    cases extensible with
    | true => cases answer
    | false => rfl

theorem defineElement (small : index < Key.indexBound) (bound : Nat) (desc : Descriptor)
    (extensible : Bool) : (view.defineElement bound index desc extensible).2.Sound := by
  unfold View.defineElement
  cases plain : view.plainValue index desc with
  | none => exact sound.defineStored small desc extensible
  | some value =>
    simp only
    split
    · exact sound
    · exact sound.put small (stored_of_plainValue sound small plain) bound value

theorem reach (oldLength index : Nat) : (view.reach oldLength index).Sound := by
  unfold View.reach
  split
  · exact sound.restrict (fun _ held => held) (index + 1) view.lengthWritable
  · exact sound

theorem define (small : index < Key.indexBound) (bound : Nat) (desc : Descriptor)
    (extensible : Bool) : (view.define bound index desc extensible).2.Sound := by
  have defined := sound.defineElement small bound desc extensible
  unfold View.define
  split
  · exact sound
  · simp only
    cases (view.defineElement bound index desc extensible).1 with
    | accepted => exact defined.reach view.length index
    | rejected reason => exact defined

theorem delete (index : Nat) : (view.delete index).2.Sound := by
  unfold View.delete
  by_cases easy : ((view.element index).isSome || view.dense) = true
  · rw [if_pos easy]
    exact sound.drop index
  · rw [if_neg easy]
    rw [Bool.or_eq_true, not_or] at easy
    refine sound.write (sound.record.delete _) (Option.not_isSome_iff_eq_none.mp easy.1)
      (fun key different => sound.record.find?_delete_of_ne different) fun dense => ?_
    exact absurd dense easy.2

theorem setLengthSlot (slot : Slot) : (view.setLengthSlot slot).Sound :=
  sound.restrict (fun _ held => held) _ _

theorem applyLength (desc : Descriptor) : (view.applyLength desc).2.Sound := by
  unfold View.applyLength
  cases view.lengthSlot.validate desc with
  | accepted => exact sound.setLengthSlot _
  | rejected reason => exact sound

theorem settle (length : Nat) (writable : Bool) : (view.settle length writable).Sound := by
  refine sound.restrict (fun index held => ?_) length (view.lengthWritable && writable)
  by_cases kept : index < length
  · rw [if_pos kept] at held
    exact held
  · rw [if_neg kept] at held
    cases held

end Sound

theorem Sound.deleteEach (sound : view.Sound) (indices : List Nat) :
    (view.deleteEach indices).2.Sound := by
  induction indices generalizing view with
  | nil => exact sound
  | cons index rest ih =>
    have deleted := sound.delete index
    unfold View.deleteEach
    simp only
    cases (view.delete index).1 with
    | accepted => exact ih deleted
    | rejected reason => exact deleted

theorem Sound.shrink (sound : view.Sound) (doomed : List Nat) (length : Nat) (writable : Bool) :
    (view.shrink doomed length writable).2.Sound := by
  have cleared := sound.deleteEach doomed
  unfold View.shrink
  simp only
  cases (view.deleteEach doomed).1 with
  | none => exact cleared.settle length writable
  | some index =>
    simp only
    split
    · exact cleared.settle (index + 1) writable
    · exact cleared

/-- To settle the length takes nothing from the record. -/
theorem record_shrink (view : View) (doomed : List Nat) (length : Nat) (writable : Bool) :
    (view.shrink doomed length writable).2.record = (view.deleteEach doomed).2.record := by
  unfold View.shrink
  simp only
  split
  · rfl
  · split <;> rfl

/-! ### Assigning the length -/

/-- What the length is made of when it is lowered: it stays writable until the elements are gone. -/
def lowered (length : Nat) (attributes : Attributes) (view : View) : View :=
  view.setLengthSlot
    (view.lengthSlot.merge ((Descriptor.data (.ofWord length) attributes).withWritable true))

/-- A length that is not lowered is an ordinary property. One that is lowered is refused, or the array
is shortened, whichever indices are visited. -/
theorem assignLength_cases (view : View) (length : Nat) (attributes : Attributes) :
    (view.length ≤ length ∧ ∀ doomed, view.assignLength doomed length attributes =
      (.ok (view.applyLength (.data (.ofWord length) attributes)).1,
        (view.applyLength (.data (.ofWord length) attributes)).2)) ∨
    (∃ reason, ∀ doomed,
      view.assignLength doomed length attributes = (.ok (.rejected reason), view)) ∨
    (length < view.length ∧ view.lengthWritable = true ∧
      view.lengthSlot.validate ((Descriptor.data (.ofWord length) attributes).withWritable true) =
        .accepted ∧
      ∀ doomed, view.assignLength doomed length attributes =
        (view.lowered length attributes).shrink doomed length
          (attributes.writableAbsent || attributes.writable)) := by
  unfold assignLength applyLength lowered
  simp only
  by_cases longer : view.length ≤ length
  · exact Or.inl ⟨longer, fun _ => if_pos longer⟩
  · simp only [if_neg longer]
    cases writable : view.lengthWritable with
    | false => exact Or.inr (Or.inl ⟨.lengthReadOnly, fun _ => rfl⟩)
    | true =>
      cases verdict : view.lengthSlot.validate
          ((Descriptor.data (.ofWord length) attributes).withWritable true) with
      | rejected reason => exact Or.inr (Or.inl ⟨reason, fun _ => rfl⟩)
      | accepted => exact Or.inr (Or.inr ⟨Nat.not_le.mp longer, rfl, rfl, fun _ => rfl⟩)

/-- Only the length itself is changed before the elements go. -/
theorem Doomed.lowered (listed : view.Doomed length oldLength doomed) (attributes : Attributes) :
    (view.lowered length attributes).Doomed length oldLength doomed :=
  ⟨listed.descending, listed.above, listed.complete, listed.dense⟩

theorem Sound.lowered (sound : view.Sound) (length : Nat) (attributes : Attributes) :
    (view.lowered length attributes).Sound := sound.setLengthSlot _

theorem Sound.assignLength (sound : view.Sound) (doomed : List Nat) (length : Nat)
    (attributes : Attributes) : (view.assignLength doomed length attributes).2.Sound := by
  rcases view.assignLength_cases length attributes with ⟨_, same⟩ | ⟨_, same⟩ | ⟨_, _, _, same⟩
  · rw [same]
    exact sound.applyLength _
  · rw [same]
    exact sound
  · rw [same]
    exact (sound.lowered length attributes).shrink ..

theorem Sound.defineLength (sound : view.Sound) (doomed : List Nat) (desc : Descriptor) :
    (view.defineLength doomed desc).2.Sound := by
  unfold View.defineLength
  split
  · exact sound.applyLength desc
  · cases lengthOf? desc.value with
    | none => exact sound
    | some length => exact sound.assignLength doomed length desc.attributes

/-! ### How a definition of the length may stop -/

theorem fault_shrink {fault : Fault} {writable : Bool}
    (stopped : (view.shrink doomed length writable).1 = .error fault) : fault = .overflow := by
  unfold shrink at stopped
  simp only at stopped
  split at stopped
  · cases stopped
  · split at stopped <;> cases stopped
    rfl

theorem fault_assignLength {fault : Fault} {attributes : Attributes}
    (stopped : (view.assignLength doomed length attributes).1 = .error fault) :
    fault = .overflow := by
  rcases view.assignLength_cases length attributes with ⟨_, same⟩ | ⟨reason, same⟩ | ⟨_, _, _, same⟩
  · rw [same] at stopped
    cases stopped
  · rw [same] at stopped
    cases stopped
  · rw [same] at stopped
    exact fault_shrink stopped

theorem fault_defineLength {fault : Fault}
    (stopped : (view.defineLength doomed desc).1 = .error fault) :
    fault = .error .invalidLength ∨ fault = .overflow := by
  unfold defineLength at stopped
  split at stopped
  · cases stopped
  · split at stopped
    · exact Or.inl (Except.error.inj stopped).symm
    · exact Or.inr (fault_assignLength stopped)

end View

end HiddenClass.Elements
