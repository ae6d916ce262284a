import HiddenClass.Proofs.Elements.View
import HiddenClass.Proofs.Number.Double

/-!
Arrays without an index at or above their length. On these nothing depends on which other indices
are visited when the array is shortened: those that it does not own make no difference, and those
that it owns come in one order.
-/

namespace HiddenClass.Elements.View

/-- The length is a word, and all indices lie below it. -/
structure Bounded (view : View) : Prop where
  word : view.length < 4294967296
  below : ∀ index, view.owns index = true → index < view.length

/-- The length bounds the indices of a kind. -/
def Within (P : Nat → Prop) (view : View) : Prop :=
  ∀ index, P index → view.owns index = true → index < view.length

variable {view : View} {index other length oldLength : Nat} {doomed others indices : List Nat}
  {desc : Descriptor} {reason : Rejection} {P : Nat → Prop}

theorem Bounded.within (bounded : view.Bounded) (P : Nat → Prop) : view.Within P :=
  fun index _ owned => bounded.below index owned

theorem owns_iff : view.owns index = true ↔
    (view.element index).isSome = true ∨ (view.stored index).isSome = true := by
  rw [owns, Bool.or_eq_true]

theorem not_owns_iff : view.owns index = false ↔
    view.element index = none ∧ view.stored index = none := by
  rw [owns, Bool.or_eq_false_iff, Option.isSome_eq_false_iff, Option.isSome_eq_false_iff,
    Option.isNone_iff_eq_none, Option.isNone_iff_eq_none]

theorem bounded_ofLength (word : length < 4294967296) : (ofLength length).Bounded :=
  ⟨word, fun _ owned => absurd owned Bool.false_ne_true⟩

/-! ### Deleting one index -/

theorem owns_drop (view : View) (index other : Nat) : (view.drop index).owns other =
    if other = index then (view.stored index).isSome else view.owns other := by
  unfold owns
  rw [element_drop]
  by_cases same : other = index
  · rw [if_pos same, if_pos same, same]
    rfl
  · rw [if_neg same, if_neg same]
    rfl

theorem owns_withRecord (view : View) (record : Record) (other : Nat) :
    View.owns { view with record } other =
      ((view.element other).isSome || (record.find? (.index other)).isSome) := rfl

theorem owns_delete_of_ne (sound : view.Sound) (different : other ≠ index) :
    (view.delete index).2.owns other = view.owns other := by
  unfold View.delete
  split
  · exact (owns_drop ..).trans (if_neg different)
  · rw [owns_withRecord, sound.record.find?_delete_of_ne fun same => different (Key.index.inj same)]
    rfl

theorem delete_accepted (sound : view.Sound) (small : view.dense = true → index < Key.indexBound)
    (accepted : (view.delete index).1 = .accepted) : (view.delete index).2.owns index = false := by
  unfold View.delete at accepted ⊢
  by_cases easy : ((view.element index).isSome || view.dense) = true
  · have absent : view.stored index = none := by
      rcases (Bool.or_eq_true _ _).mp easy with held | dense
      · exact sound.apart index held
      · exact sound.dense dense index (small dense)
    rw [if_pos easy]
    simp only [owns_drop, if_true, absent, Option.isSome_none]
  · rw [if_neg easy] at accepted ⊢
    obtain ⟨answer, after⟩ := sound.record.delete_eq (.index index)
    have gone : (Slot.delete (view.record.find? (.index index))).2 = none := by
      have verdict := answer.symm.trans accepted
      unfold Slot.delete at verdict ⊢
      cases found : view.record.find? (.index index) with
      | none => rfl
      | some slot =>
        rw [found] at verdict
        by_cases deletable : slot.flags.configurable = true
        · simp only [if_pos deletable]
        · simp only [if_neg deletable] at verdict
          cases verdict
    rw [Bool.or_eq_true, not_or] at easy
    rw [owns_withRecord, after, if_pos rfl, gone]
    simpa using easy.1

/-- A refused deletion is one of something that is there, and leaves it there. -/
theorem delete_rejected (rejected : (view.delete index).1 = .rejected reason) :
    (view.delete index).2 = view ∧ view.owns index = true := by
  unfold View.delete at rejected ⊢
  by_cases easy : ((view.element index).isSome || view.dense) = true
  · rw [if_pos easy] at rejected
    cases rejected
  · rw [if_neg easy] at rejected ⊢
    unfold Record.delete at rejected ⊢
    cases found : view.record.layout.offset? (.index index) with
    | none =>
      simp only [found] at rejected
      cases rejected
    | some offset =>
      simp only [found] at rejected ⊢
      by_cases deletable : (view.record.slot offset).flags.configurable = true
      · simp only [if_pos deletable] at rejected
        cases rejected
      · simp only [if_neg deletable]
        have stored := Record.find?_of_offset? found
        exact ⟨trivial, owns_iff.mpr (Or.inr (Option.isSome_iff_exists.mpr ⟨_, stored⟩))⟩

/-- Deleting what is not there changes nothing. -/
theorem delete_absent (absent : view.owns index = false) : view.delete index = (.accepted, view) := by
  obtain ⟨empty, missing⟩ := not_owns_iff.mp absent
  have dropped : view.drop index = view := by
    unfold View.drop
    rw [← empty, Function.update_eq_self]
  have kept : view.record.delete (.index index) = (.accepted, view.record) := by
    rw [Record.delete, Record.find?_eq_none_iff.mp missing]
  unfold View.delete
  rw [dropped, kept]
  split <;> rfl

theorem owns_of_delete (sound : view.Sound)
    (owned : (view.delete index).2.owns other = true) : view.owns other = true := by
  by_cases same : other = index
  · rw [same] at owned ⊢
    cases absent : view.owns index with
    | true => rfl
    | false =>
      rw [delete_absent absent, absent] at owned
      exact owned
  · rw [owns_delete_of_ne sound same] at owned
    exact owned

/-! ### Deleting in turn -/

theorem deleteEach_accepted {rest : List Nat} (accepted : (view.delete index).1 = .accepted) :
    view.deleteEach (index :: rest) = (view.delete index).2.deleteEach rest := by
  rw [deleteEach]
  simp only [accepted]

theorem deleteEach_rejected {rest : List Nat} (rejected : (view.delete index).1 = .rejected reason) :
    view.deleteEach (index :: rest) = (some index, view) := by
  rw [deleteEach]
  simp only [rejected, (delete_rejected rejected).1]

/-- Only the indices that the array owns are deleted. -/
theorem deleteEach_filter (sound : view.Sound) (distinct : indices.Nodup) :
    view.deleteEach indices = view.deleteEach (indices.filter view.owns) := by
  induction indices generalizing view with
  | nil => rfl
  | cons index rest ih =>
    obtain ⟨fresh, restDistinct⟩ := List.nodup_cons.mp distinct
    cases owned : view.owns index with
    | false =>
      have kept := delete_absent owned
      rw [List.filter_cons_of_neg (by simp [owned]), deleteEach_accepted (by rw [kept]), kept]
      exact ih sound restDistinct
    | true =>
      rw [List.filter_cons_of_pos owned]
      cases verdict : (view.delete index).1 with
      | rejected reason => rw [deleteEach_rejected verdict, deleteEach_rejected verdict]
      | accepted =>
        -- the other indices are owned or not as before, so the filter may be taken first
        have same : rest.filter view.owns = rest.filter (view.delete index).2.owns := by
          refine List.filter_congr fun other member => ?_
          have different : other ≠ index := fun equal => fresh (equal ▸ member)
          exact (owns_delete_of_ne sound different).symm
        rw [deleteEach_accepted verdict, deleteEach_accepted verdict, same]
        exact ih (sound.delete index) restDistinct

/-- What is left when indices have been deleted from the top down. -/
structure Cleared (view : View) (indices : List Nat) (refused : Option Nat) (after : View) : Prop where
  owns : ∀ other, after.owns other = true → view.owns other = true
  dense : after.dense = view.dense
  stopped : ∀ index, refused = some index → index ∈ indices ∧ view.owns index = true
  gone : ∀ other ∈ indices, after.owns other = true → ∃ index, refused = some index ∧ other ≤ index

theorem dense_delete (view : View) (index : Nat) : (view.delete index).2.dense = view.dense := by
  unfold View.delete
  split <;> rfl

theorem cleared_deleteEach (sound : view.Sound)
    (small : view.dense = true → ∀ index ∈ indices, index < Key.indexBound)
    (descending : indices.Pairwise fun first second => second < first) :
    Cleared view indices (view.deleteEach indices).1 (view.deleteEach indices).2 := by
  induction indices generalizing view with
  | nil =>
    exact ⟨fun _ owned => owned, rfl, fun _ none => absurd none.symm (Option.some_ne_none _),
      fun _ member => absurd member List.not_mem_nil⟩
  | cons first rest ih =>
    obtain ⟨below, restDescending⟩ := List.pairwise_cons.mp descending
    cases verdict : (view.delete first).1 with
    | rejected reason =>
      rw [deleteEach_rejected verdict]
      refine ⟨fun _ owned => owned, rfl, fun index same => ?_, fun other member _ => ?_⟩
      · rw [← Option.some.inj same]
        exact ⟨List.mem_cons_self .., (delete_rejected verdict).2⟩
      · refine ⟨first, rfl, ?_⟩
        rcases List.mem_cons.mp member with same | later
        · exact Nat.le_of_eq same
        · exact Nat.le_of_lt (below other later)
    | accepted =>
      have shrinks : ∀ other, (view.delete first).2.owns other = true → view.owns other = true :=
        fun other owned => owns_of_delete sound owned
      have smallRest : (view.delete first).2.dense = true → ∀ index ∈ rest, index < Key.indexBound :=
        fun dense index member =>
          small (dense_delete view first ▸ dense) index (List.mem_cons_of_mem first member)
      have cleared := ih (sound.delete first) smallRest restDescending
      have emptied : (view.delete first).2.owns first = false :=
        delete_accepted sound (fun dense => small dense first (List.mem_cons_self ..)) verdict
      rw [deleteEach_accepted verdict]
      refine ⟨fun other owned => shrinks other (cleared.owns other owned),
        cleared.dense.trans (dense_delete view first),
        fun index same => ?_, fun other member owned => ?_⟩
      · obtain ⟨member, owned⟩ := cleared.stopped index same
        exact ⟨List.mem_cons_of_mem _ member, shrinks index owned⟩
      · rcases List.mem_cons.mp member with same | later
        · have still := cleared.owns other owned
          rw [same, emptied] at still
          cases still
        · exact cleared.gone other later owned

/-! ### Shortening -/

/-- The indices to be deleted that an array owns, in the order in which they are. -/
theorem Doomed.filter_eq (doomed : view.Doomed length oldLength indices)
    (other : view.Doomed length oldLength others)
    (below : ∀ index, view.owns index = true → index < oldLength) :
    indices.filter view.owns = others.filter view.owns := by
  cases dense : view.dense with
  | true => rw [doomed.dense dense, other.dense dense]
  | false =>
    have members : ∀ {listed}, view.Doomed length oldLength listed → ∀ index,
        index ∈ listed.filter view.owns ↔ length ≤ index ∧ view.owns index = true := by
      intro listed doomed index
      rw [List.mem_filter]
      constructor
      · exact fun both => ⟨doomed.above index both.1, both.2⟩
      · exact fun both => ⟨doomed.complete dense index both.1 (below index both.2) both.2, both.2⟩
    have irreflexive : Std.Irrefl fun first second : Nat => second < first :=
      ⟨fun index => Nat.lt_irrefl index⟩
    have antisymmetric : Std.Antisymm fun first second : Nat => second < first :=
      ⟨fun first second before after => absurd before (Nat.lt_asymm after)⟩
    exact (doomed.descending.filter _).eq_of_mem_iff (other.descending.filter _) fun index =>
      (members doomed index).trans (members other index).symm

/-- In a dense array no index is visited. -/
theorem Doomed.small (doomed : view.Doomed length oldLength indices) (dense : view.dense = true) :
    ∀ index ∈ indices, index < Key.indexBound := by
  rw [doomed.dense dense]
  exact fun _ member => absurd member List.not_mem_nil

theorem Doomed.nodup (doomed : view.Doomed length oldLength indices) : indices.Nodup :=
  doomed.descending.imp fun before => Nat.ne_of_gt before

/-- Whichever indices are visited, a shortened array is the same. -/
theorem shrink_eq (sound : view.Sound) (doomed : view.Doomed length oldLength indices)
    (other : view.Doomed length oldLength others)
    (below : ∀ index, view.owns index = true → index < oldLength) (target : Nat) (writable : Bool) :
    view.shrink indices target writable = view.shrink others target writable := by
  have same : view.deleteEach indices = view.deleteEach others := by
    rw [deleteEach_filter sound doomed.nodup, deleteEach_filter sound other.nodup,
      doomed.filter_eq other below]
  rw [shrink, shrink, same]

theorem Bounded.of_owns {after : View} (bounded : view.Bounded)
    (owns : ∀ other, after.owns other = true → view.owns other = true)
    (length : after.length = view.length) : after.Bounded where
  word := length ▸ bounded.word
  below := fun other owned => length ▸ bounded.below other (owns other owned)

theorem length_delete (view : View) (index : Nat) : (view.delete index).2.length = view.length := by
  unfold View.delete
  split <;> rfl

theorem Bounded.delete (bounded : view.Bounded) (sound : view.Sound) (index : Nat) :
    (view.delete index).2.Bounded :=
  bounded.of_owns (fun _ owned => owns_of_delete sound owned) (length_delete view index)

/-- A new length bounds what it bounds of the indices that the array owns while it is sparse; in one
that is dense all that lies above it goes. -/
theorem within_settle (sound : view.Sound) {target : Nat}
    (small : ∀ index, P index → view.owns index = true → index < Key.indexBound)
    (sparse : view.dense = false → ∀ index, P index → view.owns index = true → index < target)
    (writable : Bool) : (view.settle target writable).Within P := by
  intro index kind owned
  rcases owns_iff.mp owned with held | stored
  · by_cases kept : index < target
    · exact kept
    · have gone : (view.settle target writable).element index = none := if_neg kept
      rw [gone] at held
      cases held
  · have still : view.owns index = true := owns_iff.mpr (Or.inr stored)
    cases dense : view.dense with
    | false => exact sparse dense index kind still
    | true =>
      have absent : (view.settle target writable).stored index = none :=
        sound.dense dense index (small index kind still)
      rw [absent] at stored
      cases stored

/-- Above the key that stops an array from being shortened there is a length, unless the sum is no
machine word. -/
theorem shrink_of_stopped {last : Nat} (stopped : (view.deleteEach indices).1 = some last)
    (length : Nat) (writable : Bool) :
    view.shrink indices length writable =
      if last < Key.indexBound then
        (.ok (.rejected .shrinkStopped), (view.deleteEach indices).2.settle (last + 1) writable)
      else (.error .overflow, (view.deleteEach indices).2) := by
  unfold shrink
  simp only [stopped]

/-- The length of a shortened array bounds what the old one did. -/
theorem within_shrink (sound : view.Sound) (doomed : view.Doomed length oldLength indices)
    (small : ∀ index, P index → view.owns index = true → index < Key.indexBound)
    (below : ∀ index, P index → view.owns index = true → index < oldLength) (writable : Bool)
    (fits : (view.shrink indices length writable).1 ≠ .error .overflow) :
    (view.shrink indices length writable).2.Within P := by
  have cleared := cleared_deleteEach sound doomed.small doomed.descending
  have settled : ∀ target, ((view.deleteEach indices).2.dense = false → ∀ index, P index →
      (view.deleteEach indices).2.owns index = true → index < target) →
      ((view.deleteEach indices).2.settle target writable).Within P :=
    fun target sparse => within_settle (sound.deleteEach indices)
      (fun index kind owned => small index kind (cleared.owns index owned)) sparse writable
  have reached : ∀ index, P index → (view.deleteEach indices).2.owns index = true →
      (view.deleteEach indices).2.dense = false → length ≤ index →
      ∃ last, (view.deleteEach indices).1 = some last ∧ index ≤ last := by
    intro index kind owned sparse above
    have before := cleared.owns index owned
    exact cleared.gone index (doomed.complete (cleared.dense.symm.trans sparse) index above
      (below index kind before) before) owned
  cases refused : (view.deleteEach indices).1 with
  | none =>
    unfold shrink
    simp only [refused]
    refine settled length fun sparse index kind owned => ?_
    by_contra above
    obtain ⟨last, stopped, _⟩ := reached index kind owned sparse (Nat.not_lt.mp above)
    rw [refused] at stopped
    cases stopped
  | some last =>
    rw [shrink_of_stopped refused] at fits ⊢
    have first := doomed.above last (cleared.stopped last refused).1
    have room : last < Key.indexBound := by
      by_contra past
      rw [if_neg past] at fits
      exact fits rfl
    rw [if_pos room]
    refine settled (last + 1) fun sparse index kind kept => ?_
    by_cases above : length ≤ index
    · obtain ⟨stop, stopped, before⟩ := reached index kind kept sparse above
      rw [refused] at stopped
      cases stopped
      omega
    · omega

/-- What is deleted lies below an old length that is a machine word, so there is always a length above
it. -/
theorem shrink_ne_overflow (sound : view.Sound) (doomed : view.Doomed length oldLength indices)
    (below : ∀ index, view.owns index = true → index < oldLength) (word : oldLength < 4294967296)
    (writable : Bool) : (view.shrink indices length writable).1 ≠ .error .overflow := by
  have cleared := cleared_deleteEach sound doomed.small doomed.descending
  cases refused : (view.deleteEach indices).1 with
  | none =>
    unfold shrink
    simp only [refused]
    exact nofun
  | some last =>
    have bound := below last (cleared.stopped last refused).2
    have room : last < Key.indexBound := by
      unfold Key.indexBound
      omega
    rw [shrink_of_stopped refused, if_pos room]
    exact nofun

/-- What is left of a shortened array lies below its length. -/
theorem bounded_shrink (sound : view.Sound) (doomed : view.Doomed length oldLength indices)
    (below : ∀ index, view.owns index = true → index < oldLength) (word : oldLength < 4294967296)
    (lower : length < oldLength) (writable : Bool) :
    (view.shrink indices length writable).2.Bounded := by
  have small : ∀ index, True → view.owns index = true → index < Key.indexBound := by
    intro index _ owned
    have bound := below index owned
    unfold Key.indexBound
    omega
  have fits := shrink_ne_overflow sound doomed below word writable
  have within := within_shrink sound doomed small (fun index _ => below index) writable fits
  refine ⟨?_, fun index => within index trivial⟩
  cases refused : (view.deleteEach indices).1 with
  | none =>
    unfold shrink
    simp only [refused]
    exact lower.trans word
  | some last =>
    rw [shrink_of_stopped refused] at fits ⊢
    by_cases room : last < Key.indexBound
    · rw [if_pos room]
      exact Nat.succ_lt_succ room
    · rw [if_neg room] at fits
      exact absurd rfl fits

/-! ### Defining the length -/

theorem toUInt32_lt (x : Double) : x.toUInt32 < 4294967296 := by
  unfold Double.toUInt32
  cases x.truncate with
  | none => exact Nat.zero_lt_succ _
  | some n =>
    change (n % 4294967296).toNat < 4294967296
    omega

theorem lengthOf?_lt {value : Value} (found : lengthOf? value = some length) :
    length < 4294967296 := by
  unfold lengthOf? at found
  simp only at found
  split at found
  · exact Option.some.inj found ▸ toUInt32_lt _
  · cases found

theorem length_setLengthSlot (view : View) {slot : Slot} (value : slot.value = .ofWord length)
    (word : length < 4294967296) : (view.setLengthSlot slot).length = length := by
  unfold setLengthSlot
  rw [value, Value.truncate_ofWord word]
  have fits : 0 ≤ (length : Int) ∧ (length : Int) ≤ 4294967295 := by omega
  simp only [if_pos fits, Int.toNat_natCast]

/-- A descriptor without a value leaves the length as it is. -/
theorem value_merge_lengthSlot (accepted : view.lengthSlot.validate desc = .accepted)
    (bare : desc.lacksValue = true) :
    (view.lengthSlot.merge desc).value = .ofWord view.length := by
  unfold Descriptor.lacksValue at bare
  unfold Slot.merge
  simp only
  by_cases generic : desc.attributes.isGeneric = true
  · rw [if_pos generic]
    rfl
  · rw [if_neg generic]
    by_cases data : desc.attributes.data = true
    · have absent : desc.attributes.valueAbsent = true := by
        simpa [Descriptor.isData, data] using bare
      simp only [if_pos data, if_pos absent]
      rfl
    · exfalso
      have none : desc.attributes.data = false := Bool.eq_false_iff.mpr data
      have given : desc.attributes.isGeneric = false := Bool.eq_false_iff.mpr generic
      simp only [Slot.validate, Slot.agrees, Descriptor.isAbsent, Descriptor.isGeneric, lengthSlot,
        Flags.ofLength, none, given] at accepted
      split at accepted
      · simp_all
      · split at accepted
        · simp_all
        · split at accepted
          · cases accepted
          · split at accepted
            · cases accepted
            · simp at accepted

theorem value_merge_data (slot : Slot) (attributes : Attributes) (value : Value) :
    (slot.merge (.data value attributes)).value = value := by
  unfold Slot.merge
  simp [Descriptor.data, Attributes.isGeneric]

theorem Bounded.applyLength_bare (bounded : view.Bounded) (bare : desc.lacksValue = true) :
    (view.applyLength desc).2.Bounded := by
  unfold applyLength
  cases verdict : view.lengthSlot.validate desc with
  | accepted =>
    have same := length_setLengthSlot view (value_merge_lengthSlot verdict bare) bounded.word
    exact bounded.of_owns (fun _ owned => owned) same
  | rejected reason => exact bounded

theorem Bounded.applyLength_longer (bounded : view.Bounded) (longer : view.length ≤ length)
    (word : length < 4294967296) (attributes : Attributes) :
    (view.applyLength (.data (.ofWord length) attributes)).2.Bounded := by
  unfold applyLength
  cases view.lengthSlot.validate (.data (.ofWord length) attributes) with
  | accepted =>
    have same := length_setLengthSlot view
      (value_merge_data view.lengthSlot attributes (.ofWord length)) word
    refine ⟨same.trans_lt word, fun index owned => ?_⟩
    exact (Nat.lt_of_lt_of_le (bounded.below index owned) longer).trans_eq same.symm
  | rejected reason => exact bounded

/-- The length that an array is given in the end does not depend on the indices visited. -/
theorem assignLength_eq (sound : view.Sound) (bounded : view.Bounded)
    (doomed : view.Doomed length view.length indices) (other : view.Doomed length view.length others)
    (word : length < 4294967296) (attributes : Attributes) :
    view.assignLength indices length attributes = view.assignLength others length attributes ∧
      (view.assignLength indices length attributes).2.Bounded := by
  rcases view.assignLength_cases length attributes with
    ⟨longer, same⟩ | ⟨_, same⟩ | ⟨shorter, _, _, same⟩
  · rw [same, same]
    exact ⟨rfl, bounded.applyLength_longer longer word attributes⟩
  · rw [same, same]
    exact ⟨rfl, bounded⟩
  · have lowered := sound.lowered length attributes
    have first := doomed.lowered attributes
    rw [same, same]
    exact ⟨shrink_eq lowered first (other.lowered attributes) bounded.below length _,
      bounded_shrink lowered first bounded.below bounded.word shorter _⟩

theorem assignLength_fits (sound : view.Sound) (bounded : view.Bounded)
    (doomed : view.Doomed length view.length indices) (attributes : Attributes) :
    (view.assignLength indices length attributes).1 ≠ .error .overflow := by
  rcases view.assignLength_cases length attributes with ⟨_, same⟩ | ⟨_, same⟩ | ⟨_, _, _, same⟩
  · rw [same]
    exact nofun
  · rw [same]
    exact nofun
  · rw [same]
    exact shrink_ne_overflow (sound.lowered length attributes) (doomed.lowered attributes)
      bounded.below bounded.word _

/-- The length of an array whose indices lie below it is defined without an overflow. -/
theorem defineLength_fits (sound : view.Sound) (bounded : view.Bounded)
    (doomed : ∀ length, lengthOf? desc.value = some length →
      view.Doomed length view.length indices) :
    (view.defineLength indices desc).1 ≠ .error .overflow := by
  unfold defineLength
  split
  · exact nofun
  · cases found : lengthOf? desc.value with
    | none => exact nofun
    | some length => exact assignLength_fits sound bounded (doomed length found) desc.attributes

theorem defineLength_eq (sound : view.Sound) (bounded : view.Bounded)
    (doomed : ∀ length, lengthOf? desc.value = some length → view.Doomed length view.length indices)
    (other : ∀ length, lengthOf? desc.value = some length → view.Doomed length view.length others) :
    view.defineLength indices desc = view.defineLength others desc ∧
      (view.defineLength indices desc).2.Bounded := by
  unfold defineLength
  by_cases bare : desc.lacksValue = true
  · rw [if_pos bare, if_pos bare]
    exact ⟨rfl, bounded.applyLength_bare bare⟩
  · rw [if_neg bare, if_neg bare]
    cases found : lengthOf? desc.value with
    | none => exact ⟨rfl, bounded⟩
    | some length =>
      obtain ⟨same, kept⟩ := assignLength_eq sound bounded (doomed length found) (other length found)
        (lengthOf?_lt found) desc.attributes
      simp only
      rw [same]
      exact ⟨rfl, same ▸ kept⟩

/-! ### Defining an index -/

theorem owns_moveToStore (sound : view.Sound) (index other : Nat) :
    (view.moveToStore index).owns other = view.owns other := by
  unfold moveToStore
  cases held : view.element index with
  | none => rfl
  | some current =>
    obtain ⟨_, after⟩ := sound.record.define_eq (.index index) (.plain current) true
    have absent : view.record.find? (.index index) = none :=
      sound.apart index (Option.isSome_iff_exists.mpr ⟨current, held⟩)
    have owned : view.owns index = true :=
      owns_iff.mpr (Or.inl (Option.isSome_iff_exists.mpr ⟨current, held⟩))
    unfold owns stored
    simp only [after, element_drop, Key.index.injEq]
    by_cases same : other = index
    · rw [if_pos same, if_pos same, absent, same]
      exact owned.symm
    · rw [if_neg same, if_neg same]

/-- Defining at one index leaves the others alone, and adds nothing where it is refused. -/
structure Touches (view : View) (index : Nat) (verdict : Verdict) (after : View) : Prop where
  length : after.length = view.length
  others : ∀ other, other ≠ index → after.owns other = view.owns other
  refused : ∀ reason, verdict = .rejected reason → after.owns index = true → view.owns index = true

theorem touches_defineStored (sound : view.Sound) (index : Nat) (desc : Descriptor)
    (extensible : Bool) :
    Touches view index (view.defineStored index desc extensible).1
      (view.defineStored index desc extensible).2 := by
  have moved := owns_moveToStore sound index
  have length : (view.moveToStore index).length = view.length := by
    unfold moveToStore
    cases view.element index <;> rfl
  obtain ⟨answer, after⟩ :=
    (sound.moveToStore index).record.define_eq (.index index) desc extensible
  have others : ∀ other, other ≠ index → ∀ dense,
      View.owns { view.moveToStore index with
        record := ((view.moveToStore index).record.define (.index index) desc extensible).2
        dense } other = view.owns other := by
    intro other different dense
    have apart : Key.index other ≠ .index index := fun same => different (Key.index.inj same)
    rw [← moved other]
    unfold owns stored
    simp only [after, if_neg apart]
  unfold defineStored
  simp only
  cases verdict : ((view.moveToStore index).record.define (.index index) desc extensible).1 with
  | accepted =>
    refine ⟨length, fun other different => others other different false, fun _ same => ?_⟩
    cases same
  | rejected reason =>
    refine ⟨length, fun other different => others other different _, fun _ _ owned => ?_⟩
    have kept : (Slot.define ((view.moveToStore index).record.find? (.index index)) desc extensible).2 =
        (view.moveToStore index).record.find? (.index index) := by
      rw [verdict] at answer
      exact Slot.define_rejected answer.symm
    rw [← moved index]
    unfold owns stored at owned ⊢
    simp only [after, if_true, kept] at owned
    exact owned

theorem touches_defineElement (sound : view.Sound) (bound index : Nat) (desc : Descriptor)
    (extensible : Bool) :
    Touches view index (view.defineElement bound index desc extensible).1
      (view.defineElement bound index desc extensible).2 := by
  unfold defineElement
  cases view.plainValue index desc with
  | none => exact touches_defineStored sound index desc extensible
  | some value =>
    simp only
    split
    · exact ⟨rfl, fun _ _ => rfl, fun _ _ owned => owned⟩
    · refine ⟨rfl, fun other different => ?_, fun _ same => by cases same⟩
      unfold owns
      rw [element_put, if_neg different]
      rfl

theorem Within.define (within : view.Within P) (sound : view.Sound) (bound index : Nat)
    (desc : Descriptor) (extensible : Bool) :
    (view.define bound index desc extensible).2.Within P := by
  have touches := touches_defineElement sound bound index desc extensible
  unfold View.define
  split
  · exact within
  · simp only
    cases verdict : (view.defineElement bound index desc extensible).1 with
    | rejected reason =>
      intro other kind owned
      rw [touches.length]
      by_cases same : other = index
      · exact within other kind (same ▸ touches.refused reason verdict (same ▸ owned))
      · exact within other kind ((touches.others other same) ▸ owned)
    | accepted =>
      have below : ∀ other, P other →
          (view.defineElement bound index desc extensible).2.owns other = true →
          other = index ∨ other < view.length := by
        intro other kind owned
        by_cases same : other = index
        · exact Or.inl same
        · exact Or.inr (within other kind ((touches.others other same) ▸ owned))
      unfold reach
      by_cases beyond : view.length ≤ index
      · rw [if_pos beyond]
        intro other kind owned
        change other < index + 1
        rcases below other kind owned with same | before <;> omega
      · rw [if_neg beyond]
        intro other kind owned
        rw [touches.length]
        rcases below other kind owned with same | before <;> omega

theorem length_define (sound : view.Sound) (bound index : Nat) (desc : Descriptor)
    (extensible : Bool) : (view.define bound index desc extensible).2.length = view.length ∨
      (view.define bound index desc extensible).2.length = index + 1 := by
  have touches := touches_defineElement sound bound index desc extensible
  unfold View.define
  split
  · exact Or.inl rfl
  · simp only
    split
    · unfold reach
      split
      · exact Or.inr rfl
      · exact Or.inl touches.length
    · exact Or.inl touches.length

theorem Bounded.define (bounded : view.Bounded) (sound : view.Sound) (small : index < Key.indexBound)
    (bound : Nat) (desc : Descriptor) (extensible : Bool) :
    (view.define bound index desc extensible).2.Bounded := by
  have within := (bounded.within fun _ => True).define sound bound index desc extensible
  refine ⟨?_, fun other => within other trivial⟩
  rcases length_define sound bound index desc extensible with same | longer
  · exact same.trans_lt bounded.word
  · exact longer.trans_lt (Nat.succ_lt_succ small)

/-- Without holes the bound makes no difference. -/
theorem put_eq {value : Value} (solid : value ≠ .hole) (first second index : Nat) :
    view.put first index value = view.put second index value := by
  simp only [put, Value.isHole_eq_false solid, Bool.false_and]

end HiddenClass.Elements.View
