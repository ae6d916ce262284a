import HiddenClass.Proofs.Elements.Density
import HiddenClass.Proofs.Lineage
import HiddenClass.Proofs.Settled

/-!
Where an array keeps what it has. Its elements lie in the vector and in the map, all other properties
in the store, and no index is in two of the three.
-/

namespace HiddenClass

/-- An array that has these keys in its store keeps its properties where they belong. -/
structure Elements.Represents (elements : Elements) (stored : List Key) : Prop where
  vector : elements.vector.size ≤ elements.maxVectorSize
  map : ∀ entry ∈ elements.map, elements.maxVectorSize ≤ entry.1
  solid : ∀ entry ∈ elements.map, entry.2 ≠ .hole
  apart : ∀ index ∈ elements.indices, Key.index index ∉ stored
  dense : elements.dense = true → ∀ index, Key.index index ∉ stored
  below : ∀ index, index ∈ elements.indices ∨ Key.index index ∈ stored → index < elements.length
  length : Key.length ∉ stored

/-- What an array shows of itself decides what it keeps where. -/
theorem Elements.Holds.represents {elements : Elements} {store : Store} {chart : Chart} {view : View}
    (holds : elements.Holds store chart view) (sound : view.Sound) (settled : view.Settled) :
    elements.Represents (view.record.keys .all) := by
  have stored : ∀ {key}, key ∈ view.record.keys .all → (view.record.find? key).isSome = true := by
    intro key member
    obtain ⟨slot, found, _⟩ := sound.record.mem_keys.mp member
    exact Option.isSome_iff_exists.mpr ⟨slot, found⟩
  have element : ∀ index ∈ elements.indices, (view.element index).isSome = true := by
    intro index member
    rw [← holds.element]
    exact (mem_indices holds.sound).mp member
  have missing : ∀ {key}, view.record.find? key = none → key ∉ view.record.keys .all := by
    intro key absent member
    have present := stored member
    rw [absent] at present
    cases present
  have owned : ∀ index, index ∈ elements.indices ∨ Key.index index ∈ view.record.keys .all →
      view.owns index = true :=
    fun index present => View.owns_iff.mpr (present.imp (element index) stored)
  have below : ∀ index, index ∈ elements.indices ∨ Key.index index ∈ view.record.keys .all →
      index < elements.length := by
    intro index present
    rw [holds.length]
    exact settled.bounded.below index (owned index present)
  exact {
    vector := holds.sound.vector
    map := holds.sound.above
    solid := by
      intro entry member
      have outside : ¬entry.1 < elements.maxVectorSize := Nat.not_lt.mpr (holds.sound.above entry member)
      apply settled.solid.element entry.1 entry.2
      rw [← holds.element, element_of_ge outside]
      exact (lookup_eq_some_iff holds.sound.ascending).mpr member
    apart := fun index member => missing (sound.apart index (element index member))
    dense := by
      intro dense index member
      have bound := below index (Or.inr member)
      have word := settled.bounded.word
      rw [← holds.length] at word
      have small : index < Key.indexBound := by
        unfold Key.indexBound
        omega
      exact missing (sound.dense (holds.dense.symm.trans dense) index small) member
    below
    length := missing sound.length }

namespace Object.Content

variable {content : Content} {key : Key} {desc : Descriptor} {bound : Nat} {doomed : List Nat}
  {extensible : Bool}

/-- Of an array, whether it is dense. -/
def density : Content → Option Bool
  | .ordinary _ => none
  | .array view => some view.dense

/-- A deletion leaves an array as dense as it is. -/
theorem density_delete (key : Key) (content : Content) :
    (content.delete key).2.density = content.density := by
  cases content with
  | ordinary record => rfl
  | array array =>
    unfold Content.delete
    cases key.role with
    | element index => exact congrArg some (Elements.View.dense_delete array index)
    | length => rfl
    | name => rfl

/-- A definition leaves an array as dense as it is, or an element with a property that is not plain. -/
theorem density_define (settled : content.Settled) (sound : content.Sound)
    (given : desc.All Value.Solid) (bound : Nat) (doomed : List Nat) (key : Key) (extensible : Bool) :
    (content.define bound doomed key desc extensible).2.density = content.density ∨
      (content.define bound doomed key desc extensible).2.density = some false ∧
        ∃ index own, key = .index index ∧
          (content.define bound doomed key desc extensible).1 = .ok .accepted ∧
          (content.define bound doomed key desc extensible).2.getOwn key = some own ∧
          own.isPlainData = false := by
  cases content with
  | ordinary record => exact Or.inl rfl
  | array array =>
    cases role : key.role with
    | length =>
      left
      simp only [Content.define, role]
      exact congrArg some (Elements.View.dense_defineLength doomed desc array)
    | name =>
      left
      simp only [Content.define, role]
      rfl
    | element index =>
      obtain ⟨rfl, small⟩ := Key.of_role_element role
      have defined : (Content.array array).define bound doomed (.index index) desc extensible =
          (.ok (array.define bound index desc extensible).1,
            .array (array.define bound index desc extensible).2) := by
        simp only [Content.define, role]
      rw [defined]
      cases dense : array.dense with
      | false =>
        exact Or.inl (congrArg some ((Elements.View.sparse_define dense ..).trans dense.symm))
      | true =>
        cases later : (array.define bound index desc extensible).2.dense with
        | true => exact Or.inl (congrArg some (later.trans dense.symm))
        | false =>
          have whole : array.element index ≠ some .hole :=
            fun held => settled.solid.element index .hole held rfl
          obtain ⟨accepted, slot, stored, different⟩ :=
            Elements.View.spoilt_define sound whole small dense later
          have proper := settled.solid.define Value.solid_undefined sound given bound index extensible
          have type := (proper.record (.index index) slot stored).type
          have own := Object.getOwn_of_stored
            (Elements.View.Sound.define sound small bound desc extensible) stored
          have spoilt : slot.toDescriptor.isPlainData = false :=
            Bool.eq_false_iff.mpr fun simple => different (Slot.flags_of_plainData type simple)
          exact Or.inr ⟨congrArg some later, index, slot.toDescriptor, rfl, congrArg Except.ok accepted,
            own, spoilt⟩

end Object.Content

/-! ### Views -/

namespace Realm

variable {host : Host} {realm : Realm} {chart : Chart} {views after : Views} {array handle : Handle}
  {view moved : Object.View} {request next : Request} {reply : Reply} {turn : Turn} {turns later : List Turn}

namespace Views

/-- Of a live array, whether it is dense. -/
def density (views : Views) (array : Handle) : Option Bool :=
  (views array).bind fun view => view.content.density

/-- An element of the array was defined, and its property is not plain. -/
def Spoils (after : Views) (array : Handle) (request : Request) (reply : Reply) : Prop :=
  ∃ index view own, request.edits array = some (.index index) ∧
    reply = .answered (.accepted true) ∧ after array = some view ∧
    view.getOwn (.index index) = some own ∧ own.isPlainData = false

theorem density_update (shown : views handle = some view)
    (same : moved.content.density = view.content.density) (array : Handle) :
    (views.update handle moved).density array = views.density array := by
  unfold density
  rw [update_apply]
  by_cases here : array = handle
  · rw [if_pos here, here, shown]
    exact same
  · rw [if_neg here]

theorem Gains.density (gains : views.Gains view reply after) (live : views.Live array) :
    after.density array = views.density array := by
  obtain ⟨handle, absent, _, rfl⟩ := gains
  obtain ⟨shown, found⟩ := live
  have different : array ≠ handle := by
    rintro rfl
    rw [absent] at found
    cases found
  unfold Views.density
  rw [update_apply, if_neg different]

/-- A step leaves an array as dense as it is, or an element of it with a property that is not plain. -/
theorem Step.density (step : views.Step next reply after) (settled : views.Settled)
    (valid : views.Valid) (plain : next.Plain) (live : views.Live array) (stays : after.Live array) :
    after.density array = views.density array ∨
      after.density array = some false ∧ after.Spoils array next reply := by
  cases next with
  | intern text => exact Or.inl (step.2 ▸ rfl)
  | newObject prototype | newUniqueObject prototype | newArray length =>
    exact Or.inl (Gains.density step live)
  | getOwn object key =>
    obtain ⟨_, _, _, rfl⟩ := step
    exact Or.inl rfl
  | getProperty object key =>
    obtain ⟨_, _, rfl⟩ := step
    exact Or.inl rfl
  | define object key desc raises =>
    obtain ⟨view, bound, doomed, shown, listed, rfl, rfl⟩ := step
    by_cases same : array = object
    · obtain rfl := same
      have seen := update_same views array (view.define bound doomed key desc).2
      rcases Object.Content.density_define (settled array view shown) (valid.sound array view shown)
        plain.2 bound doomed key view.extensible with
        kept | ⟨sparse, index, own, rfl, accepted, found, spoilt⟩
      · exact Or.inl (density_update shown kept array)
      · have nowSparse : (views.update array (view.define bound doomed (.index index) desc).2).density
            array = some false := by
          unfold Views.density
          rw [seen]
          exact sparse
        have reply : Reply.ofVerdict raises (view.define bound doomed (.index index) desc).1 =
            .answered (.accepted true) := congrArg (Reply.ofVerdict raises) accepted
        exact Or.inr ⟨nowSparse, index, _, own, if_pos rfl, reply, seen, found, spoilt⟩
    · left
      unfold Views.density
      rw [update_apply, if_neg same]
  | delete object key raises =>
    obtain ⟨view, shown, _, rfl⟩ := step
    exact Or.inl (density_update shown (Object.Content.density_delete key view.content) array)
  | keys object filter =>
    obtain ⟨_, _, _, _, _, rfl⟩ := step
    exact Or.inl rfl
  | preventExtensions object | setPrototype object prototype =>
    obtain ⟨view, shown, _, rfl⟩ := step
    exact Or.inl (density_update shown (by rfl) array)
  | makeUnique object | makeTransitionable object => exact Or.inl (step.2 ▸ rfl)
  | collect roots =>
    obtain ⟨view, shown⟩ := stays
    left
    unfold Views.density
    rw [shown, step.2.1 array view shown]
  | read object key | put object key value raises => exact step.elim

end Views

/-! ### Courses -/

/-- All arrays keep their properties where they belong. -/
def Represented (realm : Realm) : Prop :=
  ∀ handle object elements, realm.objects.get? handle = some object →
    object.kind = .array elements → ∃ stored,
      (Store.keys .all).answer? ⟨object.store, realm.shapes⟩ = some stored ∧
        elements.Represents stored

/-- Of a live array, whether it is dense. -/
def density (realm : Realm) (array : Handle) : Option Bool :=
  (realm.objects.get? array).bind fun object => object.elements?.map Elements.dense

/-- The request defines an element of the array and succeeds, and the property that is there then is
no writable, enumerable, configurable data property. -/
def Spoils (host : Host) (realm : Realm) (array : Handle) (request : Request) : Prop :=
  ∃ index own, request.edits array = some (.index index) ∧
    (request.outcome host realm).1 = .answered (.accepted true) ∧
    (getOwn array (.index index)).answer? (request.outcome host realm).2 = some (some own) ∧
    own.isPlainData = false

theorem Holds.density_eq (holds : realm.Holds chart views) (array : Handle) :
    realm.density array = views.density array := by
  unfold density Views.density
  cases found : realm.objects.get? array with
  | none => rw [holds.gone array found, Option.bind_none, Option.bind_none]
  | some object =>
    obtain ⟨view, shown, held⟩ := holds.view array object found
    have content := held.content
    rw [shown, Option.bind_some, Option.bind_some, Object.elements?]
    cases same : view.content with
    | ordinary record =>
      rw [same] at content
      rw [content.1]
      rfl
    | array view =>
      rw [same] at content
      obtain ⟨elements, kind, seen⟩ := content
      rw [kind]
      exact congrArg some seen.dense

theorem Holds.represented (holds : realm.Holds chart views) (valid : views.Valid)
    (settled : views.Settled) : realm.Represented := by
  intro handle object elements found kind
  obtain ⟨view, shown, held⟩ := holds.view handle object found
  have content := held.content
  have sound := valid.sound handle view shown
  have kept := settled handle view shown
  cases same : view.content with
  | ordinary record =>
    rw [same] at content
    rw [content.1] at kind
    cases kind
  | array array =>
    rw [same] at content sound kept
    obtain ⟨others, known, seen⟩ := content
    rw [known] at kind
    cases kind
    obtain ⟨_, _, ran⟩ := seen.store.keys_ok .all
    rw [holds.shapes]
    exact ⟨_, Action.answer?_ok ran, seen.represents sound kept⟩

/-- A plain turn leaves an array as dense as it is, or an element of it with a property that is not
plain. -/
theorem Holds.density_turn (holds : realm.Holds chart views) (valid : views.Valid)
    (settled : views.Settled) (host : Host) (lawful : turn.isLawful realm = true)
    (plain : turn.request.Plain) :
    ∃ (after : Chart) (later : Views), (turn.after host realm).Holds after later ∧ later.Valid ∧
      later.Settled ∧ ∀ array, views.Live array → later.Live array →
        later.density array = views.density array ∨
          later.density array = some false ∧
            ∃ request, turn = .make request ∧ realm.Spoils host array request := by
  obtain ⟨after, later, held, validLater, settledLater,
    rfl | ⟨request, next, rfl, asked, plainNext, step⟩⟩ :=
    holds.settled_turn valid settled host lawful plain
  · exact ⟨after, later, held, validLater, settledLater, fun _ _ _ => Or.inl rfl⟩
  · refine ⟨after, later, held, validLater, settledLater, fun array live stays => ?_⟩
    apply (step.density settled valid plainNext live stays).imp_right
    rintro ⟨sparse, index, view, own, edits, reply, shown, found, spoilt⟩
    rw [Request.edits_of_ask asked] at edits
    obtain ⟨_, _, ran, _⟩ := held.getOwn_ok shown (.index index)
    rw [found] at ran
    exact ⟨sparse, request, rfl, index, own, edits, reply, Action.answer?_ok ran, spoilt⟩

/-- An array that is sparse is so as long as it is not freed. -/
theorem Holds.sparse_course (holds : realm.Holds chart views) (valid : views.Valid)
    (settled : views.Settled) (lawful : realm.lawful host turns = true)
    (plain : ∀ turn ∈ turns, turn.request.Plain) (sparse : realm.density array = some false)
    (survives : realm.survives host array turns = true) :
    (realm.course host turns).density array = some false := by
  induction turns generalizing realm chart views with
  | nil => exact sparse
  | cons turn rest ih =>
    obtain ⟨first, others⟩ := lawful_cons.mp lawful
    obtain ⟨plainFirst, plainRest⟩ := List.forall_mem_cons.mp plain
    obtain ⟨stays, survivesRest⟩ := survives_cons.mp survives
    obtain ⟨between, seen, held, validBetween, settledBetween, change⟩ :=
      holds.density_turn valid settled host first plainFirst
    rw [holds.density_eq] at sparse
    have live : views.Live array := by
      obtain ⟨view, shown, _⟩ := Option.bind_eq_some_iff.mp sparse
      exact ⟨view, shown⟩
    have still : (turn.after host realm).density array = some false := by
      rw [held.density_eq]
      rcases change array live (held.live_iff.mpr stays) with kept | ⟨spoilt, _⟩
      · exact kept.trans sparse
      · exact spoilt
    exact ih held validBetween settledBetween others plainRest still survivesRest

/-- In every state that plain requests with live handles lead to, arrays keep their properties where
they belong. An array that is sparse stays so, and one that is dense becomes sparse only when an
element of it is made what no element of a dense array is. -/
theorem represented_course {config : Config}
    (lawful : (ofConfig config).lawful host turns = true)
    (plain : ∀ turn ∈ turns, turn.request.Plain) :
    let realm := (ofConfig config).course host turns
    realm.Represented ∧
      (∀ array later, realm.density array = some false → realm.lawful host later = true →
        (∀ turn ∈ later, turn.request.Plain) → realm.survives host array later = true →
        (realm.course host later).density array = some false) ∧
      ∀ (array : Handle) (turn : Turn), turn.isLawful realm = true → turn.request.Plain →
        realm.density array = some true → (turn.after host realm).density array = some false →
        ∃ request, turn = .make request ∧ realm.Spoils host array request := by
  intro realm
  obtain ⟨chart, views, holds, valid, settled⟩ := settled_course lawful plain
  refine ⟨holds.represented valid settled, ?_, ?_⟩
  · intro array later sparse lawfulLater plainLater survives
    exact holds.sparse_course valid settled lawfulLater plainLater sparse survives
  · intro array turn lawfulTurn plainTurn dense sparse
    obtain ⟨after, seen, held, _, _, change⟩ :=
      holds.density_turn valid settled host lawfulTurn plainTurn
    rw [holds.density_eq] at dense
    rw [held.density_eq] at sparse
    obtain ⟨view, shown, _⟩ := Option.bind_eq_some_iff.mp dense
    obtain ⟨last, shownLast, _⟩ := Option.bind_eq_some_iff.mp sparse
    rcases change array ⟨view, shown⟩ ⟨last, shownLast⟩ with kept | ⟨_, spoilt⟩
    · rw [sparse, dense] at kept
      cases kept
    · exact spoilt

/-- An array with one element in the vector and one in the map. -/
def spreading : List Turn :=
  [.make (.newArray 3), .make (.put ⟨0, 0⟩ (.index 1) .null true),
    .make (.put ⟨0, 0⟩ (.index 9) (.int 5) true)]

/-- The element in the map is not to be listed any more, so it goes to the store. -/
def concealing : Request :=
  .define ⟨0, 0⟩ (.index 9) (.data (.int 6) { writable := true, configurable := true }) true

/-- It is made plain again, and the array is cut short and outlives a collection. -/
def restoring : List Turn :=
  [.make (.define ⟨0, 0⟩ (.index 9) (.plain (.int 7)) true),
    .make (.put ⟨0, 0⟩ .length (.int 2) true), .make (.collect [⟨0, 0⟩])]

theorem represented_course_restoring :
    let config : Config := { maxVectorSize := 4 }
    let dense := (ofConfig config).course Host.none spreading
    let sparse := (ofConfig config).course Host.none (spreading ++ [.make concealing])
    (ofConfig config).lawful Host.none (spreading ++ [.make concealing]) = true ∧
      dense.Represented ∧ dense.Spoils Host.none ⟨0, 0⟩ concealing ∧
      sparse.Represented ∧ (sparse.course Host.none restoring).density ⟨0, 0⟩ = some false := by
  intro config dense sparse
  have lawful : (ofConfig config).lawful Host.none (spreading ++ [.make concealing]) = true := by
    decide +kernel
  have plain : ∀ turn ∈ spreading ++ [Turn.make concealing], turn.request.Plain := by decide
  obtain ⟨lawfulFirst, lawfulLast⟩ := lawful_append.mp lawful
  obtain ⟨plainFirst, plainLast⟩ := List.forall_mem_append.mp plain
  obtain ⟨kept, _, spoilt⟩ := represented_course lawfulFirst plainFirst
  obtain ⟨request, same, spoils⟩ := spoilt ⟨0, 0⟩ (.make concealing) (lawful_cons.mp lawfulLast).1
    (plainLast _ (List.mem_singleton_self _)) (by decide +kernel) (by decide +kernel)
  cases same
  obtain ⟨keptSparse, stays, _⟩ := represented_course lawful plain
  have last := stays ⟨0, 0⟩ restoring (by decide +kernel) (by decide +kernel) (by decide)
    (by decide +kernel)
  exact ⟨lawful, kept, spoils, keptSparse, last⟩

end Realm

end HiddenClass