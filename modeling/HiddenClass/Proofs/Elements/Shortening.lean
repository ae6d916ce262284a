import HiddenClass.Proofs.Elements.Density
import HiddenClass.Proofs.Elements.Own
import Mathlib.Data.List.Find
import Mathlib.Order.Bounds.Defs

/-!
Shortened arrays. The elements go from the top down, up to one that is not configurable. Whether the
vector is cut, a range of indices is walked or those that exist are listed makes no difference to
what is left.
-/

namespace HiddenClass

/-- No attribute is given and left out at once. -/
structure Attributes.Coherent (attributes : Attributes) : Prop where
  writable : attributes.writable = true → attributes.writableAbsent = false
  enumerable : attributes.enumerable = true → attributes.enumerableAbsent = false
  configurable : attributes.configurable = true → attributes.configurableAbsent = false

def Attributes.withWritable (attributes : Attributes) (writable : Bool) : Attributes :=
  { attributes with writableAbsent := false, writable }

theorem Attributes.Coherent.withWritable {attributes : Attributes} (coherent : attributes.Coherent)
    (writable : Bool) : (attributes.withWritable writable).Coherent :=
  ⟨fun _ => rfl, coherent.enumerable, coherent.configurable⟩

theorem Descriptor.withWritable_data (value : Value) (attributes : Attributes) (writable : Bool) :
    (Descriptor.data value attributes).withWritable writable =
      .data value (attributes.withWritable writable) := rfl

namespace Elements

/-- How far down from one length to another an array may be shortened when some indices are fixed: all
the way, or to where the last of them stays. -/
inductive Shortens (fixed : Nat → Prop) (length oldLength : Nat) : Verdict → Nat → Prop where
  | whole (free : ∀ index, length ≤ index → index < oldLength → ¬fixed index) :
    Shortens fixed length oldLength .accepted length
  | part {last : Nat}
    (greatest : IsGreatest {index | length ≤ index ∧ index < oldLength ∧ fixed index} last) :
    Shortens fixed length oldLength (.rejected .shrinkStopped) (last + 1)

theorem lengthOf?_eq_some_iff {value : Value} {length : Nat} :
    lengthOf? value = some length ↔
      value.toNumber.toInt? = some (length : Int) ∧ length < 4294967296 := by
  have whole := Double.ofInt_natCast length
  unfold lengthOf? Double.toInt?
  simp only
  constructor
  · intro found
    split at found
    · rename_i same
      cases found
      have word := View.toUInt32_lt value.toNumber
      have truncated : value.toNumber.truncate = some (value.toNumber.toUInt32 : Int) :=
        (Double.truncate_of_sameNumber same).trans (Double.truncate_ofNat (by omega))
      rw [truncated]
      simp only [whole, if_pos same]
      exact ⟨trivial, word⟩
    · cases found
  · rintro ⟨found, word⟩
    cases truncated : value.toNumber.truncate with
    | none =>
      rw [truncated] at found
      cases found
    | some n =>
      simp only [truncated] at found
      split at found
      · rename_i same
        cases found
        have kept : value.toNumber.toUInt32 = length := by
          unfold Double.toUInt32
          rw [truncated]
          show ((length : Int) % 4294967296).toNat = length
          omega
        rw [kept, if_pos (whole ▸ same)]
      · cases found

theorem lengthOf?_eq_none_iff {value : Value} : lengthOf? value = none ↔
    ∀ length : Nat, length < 4294967296 → value.toNumber.toInt? ≠ some (length : Int) := by
  rw [Option.eq_none_iff_forall_ne_some]
  refine forall_congr' fun length => ?_
  rw [Ne, lengthOf?_eq_some_iff, not_and, imp_not_comm]

namespace View

variable {view : View} {index length oldLength : Nat} {indices doomed : List Nat} {writable : Bool}

/-- Whether there is a property at an index that is not configurable. -/
def fixed (view : View) (index : Nat) : Bool :=
  (view.property index).any fun slot => !slot.flags.configurable

theorem owns_of_fixed (fixed : view.fixed index = true) : view.owns index = true := by
  unfold View.fixed at fixed
  cases present : view.property index with
  | none =>
    rw [present] at fixed
    cases fixed
  | some slot => exact owns_of_property present

/-! ### Deleting from the top down -/

/-- A property that is fixed is not deleted, and any other is. -/
theorem Sound.delete_fixed (sound : view.Sound)
    (small : view.owns index = true → index < Key.indexBound) :
    (view.fixed index = true → ∃ reason, (view.delete index).1 = .rejected reason) ∧
      (view.fixed index = false → (view.delete index).1 = .accepted ∧
        ∀ other, (view.delete index).2.property other =
          if other = index then none else view.property other) := by
  obtain ⟨verdict, after⟩ := sound.property_delete small
  rw [verdict]
  unfold fixed at *
  cases present : view.property index with
  | none =>
    rw [present] at after
    exact ⟨fun fixed => absurd fixed Bool.false_ne_true, fun _ => ⟨rfl, after⟩⟩
  | some slot =>
    rw [present] at after
    cases configurable : slot.flags.configurable with
    | true =>
      simp only [Slot.delete, configurable, if_true] at after ⊢
      exact ⟨fun fixed => by simp [configurable] at fixed, fun _ => ⟨trivial, after⟩⟩
    | false =>
      simp only [Slot.delete, configurable]
      exact ⟨fun _ => ⟨_, rfl⟩, fun free => by simp [configurable] at free⟩

/-- The indices are deleted down to the first one that is fixed. -/
theorem Sound.deleteEach_spec (sound : view.Sound)
    (small : ∀ index, view.owns index = true → index < Key.indexBound)
    (descending : indices.Pairwise fun first second => second < first) :
    (view.deleteEach indices).1 = indices.find? view.fixed ∧
      ∀ other, (view.deleteEach indices).2.property other =
        if other ∈ indices ∧ ∀ last, indices.find? view.fixed = some last → last < other then none
        else view.property other := by
  induction indices generalizing view with
  | nil => exact ⟨rfl, fun other => (if_neg fun gone => List.not_mem_nil gone.1).symm⟩
  | cons first rest ih =>
    obtain ⟨below, restDescending⟩ := List.pairwise_cons.mp descending
    obtain ⟨refuses, accepts⟩ := sound.delete_fixed (small first)
    cases stuck : view.fixed first with
    | true =>
      obtain ⟨reason, rejected⟩ := refuses stuck
      have found : (first :: rest).find? view.fixed = some first := List.find?_cons_of_pos stuck
      rw [deleteEach_rejected rejected, found]
      refine ⟨rfl, fun other => ?_⟩
      rw [if_neg]
      rintro ⟨member, above⟩
      have past := above first rfl
      rcases List.mem_cons.mp member with rfl | later
      · exact Nat.lt_irrefl _ past
      · exact Nat.lt_asymm past (below other later)
    | false =>
      obtain ⟨accepted, left⟩ := accepts stuck
      -- the walk goes down, so those that are still to come are as they were
      have others : ∀ other ∈ rest, (view.delete first).2.fixed other = view.fixed other := by
        intro other member
        unfold fixed
        rw [left other, if_neg (Nat.ne_of_lt (below other member))]
      have found : (first :: rest).find? view.fixed = rest.find? (view.delete first).2.fixed := by
        rw [List.find?_cons_of_neg (Bool.eq_false_iff.mp stuck)]
        exact (List.find?_congr others).symm
      obtain ⟨verdict, property⟩ := ih (sound.delete first)
        (fun index owned => small index (owns_of_delete sound owned)) restDescending
      rw [deleteEach_accepted accepted, found]
      refine ⟨verdict, fun other => ?_⟩
      rw [property other, left other]
      by_cases same : other = first
      · have below : ∀ last, rest.find? (view.delete first).2.fixed = some last → last < other :=
          fun last stop => same ▸ below last (List.mem_of_find?_eq_some stop)
        rw [if_pos same, ite_self, if_pos ⟨same ▸ List.mem_cons_self .., below⟩]
      · have among : other ∈ first :: rest ↔ other ∈ rest :=
          List.mem_cons.trans (or_iff_right same)
        simp only [if_neg same, among]

/-- A deletion leaves the property with any other key as it is, and its own one if that cannot be
deleted. -/
theorem Sound.delete_frame (sound : view.Sound) (index : Nat) :
    (view.delete index).2.lengthWritable = view.lengthWritable ∧
      ∀ key, key ≠ .index index ∨ view.record.Keeps key →
        (view.delete index).2.record.find? key = view.record.find? key := by
  unfold View.delete
  split
  · exact ⟨rfl, fun _ _ => rfl⟩
  · exact ⟨rfl, fun key spared => sound.record.find?_delete_of_keeps spared⟩

/-- Whether the length of an array may change, and any property whose key is not among the indices that
are deleted, have nothing to do with them. -/
theorem Sound.deleteEach_frame (sound : view.Sound) (indices : List Nat) :
    (view.deleteEach indices).2.lengthWritable = view.lengthWritable ∧
      ∀ key, (∀ index ∈ indices, key ≠ .index index) ∨ view.record.Keeps key →
        (view.deleteEach indices).2.record.find? key = view.record.find? key := by
  induction indices generalizing view with
  | nil => exact ⟨rfl, fun _ _ => rfl⟩
  | cons first rest ih =>
    obtain ⟨writable, kept⟩ := sound.delete_frame first
    have spares : ∀ key, (∀ index ∈ first :: rest, key ≠ .index index) ∨ view.record.Keeps key →
        (view.delete first).2.record.find? key = view.record.find? key :=
      fun key spared => kept key (spared.imp_left fun other => other first (List.mem_cons_self ..))
    unfold View.deleteEach
    simp only
    split
    · obtain ⟨writableRest, keptRest⟩ := ih (sound.delete first)
      refine ⟨writableRest.trans writable, fun key spared => ?_⟩
      have same := spares key spared
      refine (keptRest key (spared.imp (fun other index member => ?_) fun keeps => ?_)).trans same
      · exact other index (List.mem_cons_of_mem first member)
      · unfold Record.Keeps
        rw [same]
        exact keeps
    · exact ⟨writable, spares⟩

/-! ### What is left -/

/-- An array of another length has what it had below the length and no index above it. -/
structure Cut (view : View) (limit : Nat) (writable : Bool) (after : View) : Prop where
  length : after.length = limit
  lengthWritable : after.lengthWritable = writable
  dense : after.dense = view.dense
  property : ∀ index, after.property index = if index < limit then view.property index else none
  name : ∀ id, after.record.find? (.named id) = view.record.find? (.named id)

theorem Cut.lengthSlot {limit : Nat} {after : View} (cut : view.Cut limit writable after) :
    after.lengthSlot = { value := .ofWord limit, flags := .ofLength writable } := by
  rw [View.lengthSlot, cut.length, cut.lengthWritable]

/-- Where nothing is stored from a length on, the array is cut there. -/
theorem cut_settle (unstored : ∀ index, length ≤ index → view.stored index = none) (writable : Bool) :
    view.Cut length (view.lengthWritable && writable) (view.settle length writable) where
  length := rfl
  lengthWritable := rfl
  dense := rfl
  property := by
    intro index
    by_cases below : index < length
    · rw [if_pos below]
      have kept : (view.settle length writable).element index = view.element index := if_pos below
      unfold property
      rw [kept]
      rfl
    · rw [if_neg below]
      have gone : (view.settle length writable).element index = none := if_neg below
      exact (property_of_stored gone).trans (unstored index (Nat.not_lt.mp below))
  name := fun _ => rfl

/-- No element of a dense array is fixed, and nothing is stored at its indices. -/
theorem Sound.free_of_dense (sound : view.Sound) (dense : view.dense = true)
    (small : view.owns index = true → index < Key.indexBound) :
    view.fixed index = false ∧ view.stored index = none := by
  cases held : view.element index with
  | some value =>
    have present : (view.element index).isSome = true := Option.isSome_iff_exists.mpr ⟨value, held⟩
    refine ⟨?_, sound.apart index present⟩
    rw [fixed, property_of_element held]
    rfl
  | none =>
    have absent := sound.property_of_dense dense small held
    refine ⟨?_, (property_of_stored held).symm.trans absent⟩
    rw [fixed, absent]
    rfl

/-- The first fixed one of the indices that are visited is the last of those in question. -/
theorem Doomed.isGreatest (doomed : view.Doomed length oldLength indices) (sparse : view.dense = false)
    (below : ∀ index, view.owns index = true → index < oldLength) {last : Nat}
    (found : indices.find? view.fixed = some last) :
    IsGreatest {index | length ≤ index ∧ index < oldLength ∧ view.fixed index = true} last := by
  have stuck : view.fixed last = true := List.find?_some found
  have member := List.mem_of_find?_eq_some found
  refine ⟨⟨doomed.above last member, below last (owns_of_fixed stuck), stuck⟩, ?_⟩
  rintro index ⟨above, bound, fixed⟩
  obtain ⟨_, before, after, parts, free⟩ := List.find?_eq_some_iff_append.mp found
  have listed := doomed.complete sparse index above bound (owns_of_fixed fixed)
  have descending := doomed.descending
  rw [parts] at listed descending
  -- what is visited before it is not fixed, and what comes after it lies below
  rcases List.mem_append.mp listed with early | late
  · have unfixed := free index early
    rw [fixed] at unfixed
    cases unfixed
  · rcases List.mem_cons.mp late with same | later
    · exact Nat.le_of_eq same
    · have order := (List.pairwise_cons.mp (List.pairwise_append.mp descending).2.1).1
      exact Nat.le_of_lt (order index later)

/-- What is left of a sparse array when its indices have been deleted is cut off below the last one that
is fixed. -/
theorem Sound.cut_deleteEach (sound : view.Sound)
    (small : ∀ index, view.owns index = true → index < Key.indexBound)
    (doomed : view.Doomed length oldLength indices) (sparse : view.dense = false)
    (below : ∀ index, view.owns index = true → index < oldLength) (limit : Nat)
    (least : length ≤ limit)
    (stays : ∀ index ∈ indices,
      index < limit ↔ ∃ last, indices.find? view.fixed = some last ∧ index ≤ last)
    (writable : Bool) :
    view.Cut limit (view.lengthWritable && writable)
      ((view.deleteEach indices).2.settle limit writable) := by
  obtain ⟨_, property⟩ := sound.deleteEach_spec small doomed.descending
  obtain ⟨locked, names⟩ := sound.deleteEach_frame indices
  have unstored : ∀ index, limit ≤ index → (view.deleteEach indices).2.stored index = none := by
    intro index above
    have gone : (view.deleteEach indices).2.property index = none := by
      rw [property index]
      cases owned : view.owns index with
      | false =>
        rw [property_eq_none_iff.mpr owned]
        exact ite_self _
      | true =>
        have listed := doomed.complete sparse index (least.trans above) (below index owned) owned
        refine if_pos ⟨listed, fun last found => ?_⟩
        by_contra before
        have kept := (stays index listed).mpr ⟨last, found, Nat.not_lt.mp before⟩
        omega
    exact (not_owns_iff.mp (property_eq_none_iff.mp gone)).2
  have cut := cut_settle unstored writable
  refine ⟨cut.length, cut.lengthWritable.trans (by rw [locked]),
    cut.dense.trans (dense_deleteEach indices view), fun index => ?_,
    fun id => (cut.name id).trans (names (.named id) (Or.inl fun _ _ => Key.noConfusion))⟩
  rw [cut.property index]
  by_cases kept : index < limit
  · rw [if_pos kept, if_pos kept, property index, if_neg]
    rintro ⟨listed, above⟩
    obtain ⟨last, found, before⟩ := (stays index listed).mp kept
    have past := above last found
    omega
  · rw [if_neg kept, if_neg kept]

/-- However its indices are visited, an array is shortened as far as it can be. -/
theorem Sound.shrink_spec (sound : view.Sound) (doomed : view.Doomed length oldLength indices)
    (below : ∀ index, view.owns index = true → index < oldLength) (word : oldLength < 4294967296)
    (writable : Bool) :
    ∃ verdict last, (view.shrink indices length writable).1 = .ok verdict ∧
      Shortens (fun index => view.fixed index = true) length oldLength verdict last ∧
      view.Cut last (view.lengthWritable && writable) (view.shrink indices length writable).2 := by
  have small : ∀ index, view.owns index = true → index < Key.indexBound := by
    intro index owned
    have bound := below index owned
    unfold Key.indexBound
    omega
  cases dense : view.dense with
  | true =>
    -- nothing is visited, and all that is cut off are elements
    have free := fun index => sound.free_of_dense dense (small index)
    rw [doomed.dense dense]
    refine ⟨.accepted, length, rfl, .whole fun index _ _ => ?_,
      cut_settle (fun index _ => (free index).2) writable⟩
    exact Bool.eq_false_iff.mp (free index).1
  | false =>
    obtain ⟨refused, _⟩ := sound.deleteEach_spec small doomed.descending
    have cut := sound.cut_deleteEach small doomed dense below
    unfold View.shrink
    simp only [refused]
    cases found : indices.find? view.fixed with
    | none =>
      refine ⟨.accepted, length, rfl, .whole fun index above bound fixed => ?_,
        cut length (Nat.le_refl _) ?_ writable⟩
      · have listed := doomed.complete dense index above bound (owns_of_fixed fixed)
        exact List.find?_eq_none.mp found index listed fixed
      · intro index listed
        have above := doomed.above index listed
        simp only [found]
        constructor
        · omega
        · rintro ⟨last, none, _⟩
          cases none
    | some last =>
      have greatest := doomed.isGreatest dense below found
      have above : length ≤ last := greatest.1.1
      have indexed : last < Key.indexBound := small last (owns_of_fixed greatest.1.2.2)
      simp only [if_pos indexed]
      refine ⟨.rejected .shrinkStopped, last + 1, rfl, .part greatest,
        cut (last + 1) (by omega) (fun index _ => ?_) writable⟩
      simp only [found, Option.some.injEq, exists_eq_left', Nat.lt_succ_iff]

/-! ### Defining the length -/

variable {attributes : Attributes} {value : Value}

/-- The length may not be made enumerable or configurable. -/
theorem validate_lengthSlot_barred (view : View) (coherent : attributes.Coherent)
    (asked : (attributes.enumerable || attributes.configurable) = true) (value : Value) :
    ∃ reason, view.lengthSlot.validate (.data value attributes) = .rejected reason := by
  have present : (Descriptor.data value attributes).isAbsent = false := rfl
  have disagrees : view.lengthSlot.agrees (.data value attributes) = false := by
    rcases (Bool.or_eq_true _ _).mp asked with enumerable | configurable
    · have given := coherent.enumerable enumerable
      simp [Slot.agrees, lengthSlot, Descriptor.data, Flags.ofLength, enumerable, given]
    · have given := coherent.configurable configurable
      simp [Slot.agrees, lengthSlot, Descriptor.data, Flags.ofLength, configurable, given]
  unfold Slot.validate
  rw [present, disagrees]
  cases configurable : attributes.configurable with
  | true =>
    exact ⟨.configurableChange, by simp [lengthSlot, Descriptor.data, Flags.ofLength, configurable]⟩
  | false =>
    rw [configurable, Bool.or_false] at asked
    have given := coherent.enumerable asked
    refine ⟨.enumerableChange, ?_⟩
    simp [lengthSlot, Descriptor.data, Flags.ofLength, configurable, asked, given]

/-- As long as it may be written, anything else may be done to the length. -/
theorem validate_lengthSlot_writable (writable : view.lengthWritable = true)
    (unasked : (attributes.enumerable || attributes.configurable) = false) :
    view.lengthSlot.validate (.data value attributes) = .accepted := by
  obtain ⟨enumerable, configurable⟩ := Bool.or_eq_false_iff.mp unasked
  unfold Slot.validate
  simp [lengthSlot, Descriptor.data, Flags.ofLength, Attributes.isGeneric, writable, enumerable,
    configurable]

theorem merge_lengthSlot (unasked : (attributes.enumerable || attributes.configurable) = false) :
    view.lengthSlot.merge (.data value attributes) =
      { value, flags := .ofLength (if attributes.writableAbsent then view.lengthWritable
          else attributes.writable) } := by
  obtain ⟨enumerable, configurable⟩ := Bool.or_eq_false_iff.mp unasked
  simp [Slot.merge, Slot.asData, lengthSlot, Descriptor.data, Flags.ofLength, Attributes.isGeneric,
    enumerable, configurable]

/-- What an accepted definition makes of the length. -/
theorem setLengthSlot_merge (word : length < 4294967296)
    (unasked : (attributes.enumerable || attributes.configurable) = false) :
    view.setLengthSlot (view.lengthSlot.merge (.data (.ofWord length) attributes)) =
      { view with
        length
        lengthWritable := if attributes.writableAbsent then view.lengthWritable
          else attributes.writable } := by
  have value := value_merge_data view.lengthSlot attributes (.ofWord length)
  have same := length_setLengthSlot view value word
  rw [merge_lengthSlot unasked] at same ⊢
  unfold setLengthSlot at same ⊢
  simp only at same ⊢
  rw [same]
  rfl

/-- An array that is made longer keeps all its indices. -/
theorem Bounded.cut_longer (bounded : view.Bounded) (longer : view.length ≤ length)
    (writable : Bool) : view.Cut length writable { view with length, lengthWritable := writable } where
  length := rfl
  lengthWritable := rfl
  dense := rfl
  property := by
    intro index
    by_cases below : index < length
    · rw [if_pos below]
      rfl
    · rw [if_neg below]
      exact bounded.property_eq_none (by omega)
  name := fun _ => rfl

/-- A length that is not lowered is validated and merged as any other property. -/
theorem assignLength_longer (bounded : view.Bounded) (coherent : attributes.Coherent)
    (word : length < 4294967296) (longer : view.length ≤ length) (doomed : List Nat) :
    let wanted := Descriptor.data (.ofWord length) attributes
    let outcome := view.assignLength doomed length attributes
    outcome.1 = .ok (view.lengthSlot.validate wanted) ∧
      (view.lengthSlot.validate wanted = .accepted →
        outcome.2.lengthSlot = view.lengthSlot.merge wanted ∧
          view.Cut length (view.lengthSlot.merge wanted).flags.writable outcome.2) ∧
      (view.lengthSlot.validate wanted ≠ .accepted → outcome.2 = view) := by
  intro wanted outcome
  have applied : outcome = (.ok (view.applyLength wanted).1, (view.applyLength wanted).2) :=
    if_pos longer
  have validated : (view.applyLength wanted).1 = view.lengthSlot.validate wanted := by
    unfold applyLength
    cases view.lengthSlot.validate wanted <;> rfl
  rw [applied, ← validated]
  refine ⟨rfl, fun accepted => ?_, applyLength_refused⟩
  · have verdict : view.lengthSlot.validate wanted = .accepted := validated.symm.trans accepted
    have unasked : (attributes.enumerable || attributes.configurable) = false := by
      rw [Bool.eq_false_iff]
      intro asked
      obtain ⟨reason, rejected⟩ := validate_lengthSlot_barred view coherent asked (.ofWord length)
      rw [rejected] at verdict
      cases verdict
    unfold applyLength
    simp only [verdict]
    rw [setLengthSlot_merge word unasked, merge_lengthSlot unasked]
    exact ⟨rfl, bounded.cut_longer longer _⟩

/-- A length that may not be written is not lowered, and one that is to be made enumerable or
configurable is not either. -/
theorem assignLength_barred (coherent : attributes.Coherent) (shorter : length < view.length)
    (barred : view.lengthWritable = false ∨
      (attributes.enumerable || attributes.configurable) = true) (doomed : List Nat) :
    ∃ reason, view.assignLength doomed length attributes = (.ok (.rejected reason), view) := by
  unfold assignLength
  simp only
  rw [if_neg (Nat.not_le.mpr shorter)]
  cases writable : view.lengthWritable with
  | false => exact ⟨.lengthReadOnly, rfl⟩
  | true =>
    have asked : (attributes.enumerable || attributes.configurable) = true :=
      barred.resolve_left (by rw [writable]; exact Bool.noConfusion)
    obtain ⟨reason, rejected⟩ := validate_lengthSlot_barred view
      (coherent.withWritable true) asked (.ofWord length)
    refine ⟨reason, ?_⟩
    unfold applyLength
    rw [Descriptor.withWritable_data, rejected]
    rfl

/-- Any other length that is lowered cuts the array, as far down as it can be. -/
theorem assignLength_shorter (sound : view.Sound) (bounded : view.Bounded)
    (listed : view.Doomed length view.length doomed) (shorter : length < view.length)
    (writable : view.lengthWritable = true)
    (unasked : (attributes.enumerable || attributes.configurable) = false) :
    ∃ verdict last, (view.assignLength doomed length attributes).1 = .ok verdict ∧
      Shortens (fun index => view.fixed index = true) length view.length verdict last ∧
      view.Cut last (attributes.writableAbsent || attributes.writable)
        (view.assignLength doomed length attributes).2 := by
  have word : length < 4294967296 := shorter.trans bounded.word
  let lowered : View := { view with length, lengthWritable := true }
  have applied : view.applyLength ((Descriptor.data (.ofWord length) attributes).withWritable true) =
      (.accepted, lowered) := by
    have still : ((attributes.withWritable true).enumerable ||
      (attributes.withWritable true).configurable) = false := unasked
    unfold applyLength
    rw [Descriptor.withWritable_data, validate_lengthSlot_writable writable still]
    simp only
    rw [setLengthSlot_merge word still]
    rfl
  have assigned : view.assignLength doomed length attributes =
      lowered.shrink doomed length (attributes.writableAbsent || attributes.writable) := by
    unfold assignLength
    simp only [if_neg (Nat.not_le.mpr shorter), writable, applied]
    rfl
  have soundLowered : lowered.Sound := sound.restrict (fun _ held => held) length true
  have doomedLowered : lowered.Doomed length view.length doomed :=
    ⟨listed.descending, listed.above, listed.complete, listed.dense⟩
  obtain ⟨verdict, last, answered, shortens, cut⟩ :=
    soundLowered.shrink_spec doomedLowered bounded.below bounded.word
      (attributes.writableAbsent || attributes.writable)
  rw [assigned]
  exact ⟨verdict, last, answered, shortens, cut.length, cut.lengthWritable, cut.dense, cut.property,
    cut.name⟩

theorem defineLength_of_length {desc : Descriptor} (given : desc.lacksValue = false)
    (sought : lengthOf? desc.value = some length) (doomed : List Nat) (view : View) :
    view.defineLength doomed desc = view.assignLength doomed length desc.attributes := by
  unfold defineLength
  rw [if_neg (Bool.eq_false_iff.mp given), sought]

theorem defineLength_of_none {desc : Descriptor} (given : desc.lacksValue = false)
    (sought : lengthOf? desc.value = none) (doomed : List Nat) (view : View) :
    view.defineLength doomed desc = (.error (.error .invalidLength), view) := by
  unfold defineLength
  rw [if_neg (Bool.eq_false_iff.mp given), sought]

end View

end Elements

end HiddenClass
