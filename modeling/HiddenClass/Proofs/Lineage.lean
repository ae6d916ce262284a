import HiddenClass.Proofs.Identity

/-!
Objects that were built alike. The shape of an object that only ever gained keys is found by going
from the root where objects start along the keys, in the order in which the object gained them.
-/

namespace HiddenClass

/-- The shape that one comes to along the keys. -/
def Shapes.path (shapes : Shapes) (root : Handle) (keys : List Key) : Option Handle :=
  keys.foldlM shapes.child? root

/-! ### Along a path -/

namespace Shapes

variable {before after : Shapes} {root own : Handle} {keys : List Key}

theorem path_concat (shapes : Shapes) (root : Handle) (keys : List Key) (key : Key) :
    shapes.path root (keys ++ [key]) = (shapes.path root keys).bind fun own => shapes.child? own key := by
  simp [path, List.foldlM_append]

theorem path_cons (shapes : Shapes) (root : Handle) (key : Key) (keys : List Key) :
    shapes.path root (key :: keys) = (shapes.child? root key).bind fun own => shapes.path own keys :=
  List.foldlM_cons

/-- A path leads to the same shape if every step of it does. -/
theorem path_of_step {P : Handle → Prop} (start : P root)
    (step : ∀ handle key child, P handle → before.child? handle key = some child →
      after.child? handle key = some child ∧ P child)
    (led : before.path root keys = some own) : after.path root keys = some own := by
  induction keys generalizing root with
  | nil => exact led
  | cons key rest ih =>
    rw [path_cons] at led ⊢
    obtain ⟨child, first, others⟩ := Option.bind_eq_some_iff.mp led
    obtain ⟨firstAfter, next⟩ := step root key child start first
    rw [firstAfter]
    exact ih next others

theorem Grows.path (grows : before.Grows after) (led : before.path root keys = some own) :
    after.path root keys = some own :=
  path_of_step (P := fun _ => True) trivial
    (fun handle key child _ first => ⟨grows.child handle key child first, trivial⟩) led

end Shapes

namespace Chart

variable {chart : Chart} {root own : Handle} {keys others : List Key}

/-- What a path from an empty shape leads to: an open shape that has the keys at their places. -/
structure Spells (chart : Chart) (own : Handle) (keys : List Key) : Prop where
  shared : chart.Shared own
  freed : (chart.layouts own).freed = []
  size : (chart.layouts own).size = keys.length
  offset : ∀ index key, keys[index]? = some key → (chart.layouts own).offset? key = some index

theorem spells_of_path (shared : chart.Shared root) (empty : chart.layouts root = {})
    (led : chart.shapes.path root keys = some own) : chart.Spells own keys := by
  induction keys using List.reverseRecOn generalizing own with
  | nil =>
    cases led
    exact ⟨shared, by rw [empty], by rw [empty]; rfl, fun index key found => by cases found⟩
  | append_singleton keys key ih =>
    rw [Shapes.path_concat] at led
    obtain ⟨parent, before, last⟩ := Option.bind_eq_some_iff.mp led
    have spells := ih before
    obtain ⟨cell, found, opened, extension⟩ := follows_of_child? last
    have parentSound := sound spells.shared.live
    have next : (chart.layouts parent).next = keys.length := by
      rw [Layout.next, spells.freed]
      exact spells.size
    refine ⟨⟨cell, found, opened⟩, ?_, ?_, fun index name placed => ?_⟩
    · rw [extension.layout, Layout.add, spells.freed]
      rfl
    · rw [extension.layout, Layout.size_add extension.absent, spells.freed, spells.size]
      simp
    · rw [extension.layout, Layout.offset?_add parentSound extension.absent, next]
      by_cases within : index < keys.length
      · rw [List.getElem?_append_left within] at placed
        have earlier := spells.offset index name placed
        rw [if_neg]
        · exact earlier
        · rintro rfl
          rw [extension.absent] at earlier
          cases earlier
      · rw [List.getElem?_append_right (Nat.not_lt.mp within)] at placed
        have last : index - keys.length = 0 := by
          by_contra beyond
          rw [List.getElem?_singleton, if_neg beyond] at placed
          cases placed
        rw [last] at placed
        cases placed
        rw [if_pos rfl]
        exact congrArg some (by omega)

/-- Different keys, or the same in different orders, never lead to one shape. -/
theorem Spells.unique (first : chart.Spells own keys) (second : chart.Spells own others) :
    keys = others := by
  have sound := sound first.shared.live
  have length : keys.length = others.length := first.size.symm.trans second.size
  apply List.ext_getElem length
  intro index bound boundOther
  exact sound.offset_injective (first.offset index _ (List.getElem?_eq_getElem bound))
    (second.offset index _ (List.getElem?_eq_getElem boundOther))

end Chart

/-! ### What an object went through -/

/-- Makes the shape of an object its own. -/
def Request.isolates (object : Handle) : Request → Bool
  | .makeUnique other => other = object
  | _ => false

/-- The key of an object that a request may add or delete. -/
def Request.edits (object : Handle) : Request → Option Key
  | .put other key _ _ | .define other key _ _ | .delete other key _ =>
    if other = object then some key else none
  | _ => none

theorem Request.edits_of_ask {request next : Request} {realm : Realm}
    (asked : (request.pursue realm).2 = .ask next) (object : Handle) :
    next.edits object = request.edits object := by
  rcases Request.of_ask asked with ⟨_, rfl⟩ | ⟨_, _, _, _, _, rfl, rfl, _⟩ <;> rfl

/-- The ordinary object that a request makes. -/
def Request.makes (host : Host) (realm : Realm) : Request → Option Handle
  | .newObject prototype =>
    match ((Request.newObject prototype).outcome host realm).1 with
    | .answered (.handle handle) => some handle
    | _ => none
  | _ => none

namespace Object

variable {object : Object} {chart : Chart} {record : Record} {key : Key}

/-- What an action on an ordinary object makes of one of its names. -/
def Becomes {α : Type} (action : Action α) (object : Object) (chart : Chart) (record : Record)
    (key : Key) : Prop :=
  ∃ (answer : α) (moved : Store) (after : Chart) (later : Record),
    action ⟨object, chart.shapes⟩ = .ok answer ⟨{ object with store := moved }, after.shapes⟩ ∧
    moved.Holds after later ∧ Chart.Moves chart after object.store.shape moved.shape ∧
    Store.Becomes chart after object.store moved record later key

theorem becomes_of_store {α : Type} {action : Action α} {step : Store.Action α} {answer : α}
    {later : Record} (stored : action ⟨object, chart.shapes⟩ = onStore step ⟨object, chart.shapes⟩)
    (becomes : ∃ (moved : Store) (after : Chart),
      step ⟨object.store, chart.shapes⟩ = .ok answer ⟨moved, after.shapes⟩ ∧
      moved.Holds after later ∧ Chart.Moves chart after object.store.shape moved.shape ∧
      Store.Becomes chart after object.store moved record later key) :
    Becomes action object chart record key := by
  obtain ⟨moved, after, ran, rest⟩ := becomes
  refine ⟨answer, moved, after, later, ?_, rest⟩
  rw [stored, onStore, Action.focus]
  simp only [ran]

theorem define_becomes (kind : object.kind = .ordinary) (held : object.store.Holds chart record)
    (key : Key) (desc : Descriptor) : Becomes (define key desc) object chart record key := by
  apply becomes_of_store _ (held.define_becomes key desc object.extensible)
  unfold define
  rw [Action.bind_ok (Action.get_apply _)]
  simp only [place_ordinary kind]

theorem delete_becomes (kind : object.kind = .ordinary) (held : object.store.Holds chart record)
    (key : Key) : Becomes (delete key) object chart record key := by
  apply becomes_of_store _ (held.delete_becomes key)
  unfold delete
  rw [Action.bind_ok (Action.get_apply _)]
  simp only [place_ordinary kind]

end Object

namespace Realm

/-- Whether an object has an own property with the key. -/
def owns (realm : Realm) (object : Handle) (key : Key) : Bool :=
  match getOwn object key realm with
  | .ok (some _) _ => true
  | _ => false

end Realm

/-- The keys that an object was given, in order, as long as it only ever gained keys and has not been
made unique. Before it is made and when it is freed there are none. -/
def Turn.lineage (host : Host) (object : Handle) (realm : Realm) (keys : Option (List Key)) :
    Turn → Option (List Key)
  | .lookUp _ => keys
  | .make request =>
    let later := (request.outcome host realm).2
    if request.makes host realm = some object then some []
    else if request.isolates object || !later.objects.contains object then none
    else match request.edits object with
      | none => keys
      | some key =>
        match realm.owns object key, later.owns object key with
        | false, true => keys.map fun keys => keys ++ [key]
        | true, false => none
        | _, _ => keys

namespace Realm

/-- The keys that an object was given in a course. -/
def lineage (host : Host) (object : Handle) : Option (List Key) → Realm → List Turn →
    Option (List Key)
  | keys, _, [] => keys
  | keys, realm, turn :: rest =>
    lineage host object (turn.lineage host object realm keys) (turn.after host realm) rest

/-- An ordinary object has the shape that the keys lead to. -/
def Built (realm : Realm) (object : Handle) (keys : List Key) : Prop :=
  ∃ holder, realm.objects.get? object = some holder ∧ holder.kind = .ordinary ∧
    realm.shapes.path realm.objectRoot keys = some holder.store.shape

/-- What a change to one key made of an object that the keys led to: its names are the same, or the
key was added and leads on, or it was dropped. -/
inductive Edited (realm later : Realm) (object : Handle) (keys : List Key) (key : Key) : Prop where
  | stay (same : later.owns object key = realm.owns object key) (built : later.Built object keys)
  | add (absent : realm.owns object key = false) (present : later.owns object key = true)
    (built : later.Built object (keys ++ [key]))
  | drop (present : realm.owns object key = true) (absent : later.owns object key = false)

variable {realm later : Realm} {chart after : Chart} {views seen : Views} {host : Host} {turn : Turn}
  {turns : List Turn} {roots : List Handle} {object : Handle} {holder : Object} {keys : List Key}
  {key : Key} {changed : Option Handle} {request : Request} {view : Object.View} {α : Type}

theorem Advances.built (advances : realm.Advances later changed) (apart : changed ≠ some object)
    (built : realm.Built object keys) : later.Built object keys := by
  obtain ⟨holder, found, kind, led⟩ := built
  obtain ⟨moved, foundLater, store, kindLater⟩ := advances.store object holder found apart
  refine ⟨moved, foundLater, kindLater.trans kind, ?_⟩
  rw [advances.objectRoot, store]
  exact advances.shapes.path led

namespace Holds

theorem spells (holds : realm.Holds chart views) {own : Handle}
    (led : realm.shapes.path realm.objectRoot keys = some own) : chart.Spells own keys := by
  rw [holds.shapes] at led
  exact Chart.spells_of_path holds.objectRoot.1 holds.objectRoot.2 led

theorem owns_of_shown (holds : realm.Holds chart views) (shown : views object = some view)
    (key : Key) : realm.owns object key = (view.getOwn key).isSome := by
  obtain ⟨looked, _, ran, _⟩ := holds.getOwn_ok shown key
  rw [owns, ran]
  cases view.getOwn key <;> rfl

theorem ordinary (holds : realm.Holds chart views) (found : realm.objects.get? object = some holder)
    (kind : holder.kind = .ordinary) :
    ∃ view record, views object = some view ∧ view.content = .ordinary record ∧
      holder.store.Holds chart record := by
  obtain ⟨view, shown, held⟩ := holds.view object holder found
  have content := held.content
  cases same : view.content with
  | ordinary record =>
    rw [same] at content
    exact ⟨view, record, shown, same, content.2⟩
  | array array =>
    rw [same] at content
    obtain ⟨elements, other, _⟩ := content
    rw [kind] at other
    cases other

/-- The own keys of an ordinary object are the names of its shape. -/
theorem owns_eq (holds : realm.Holds chart views) (found : realm.objects.get? object = some holder)
    (kind : holder.kind = .ordinary) (key : Key) :
    realm.owns object key = (realm.shapes.offset? holder.store.shape key).isSome := by
  obtain ⟨view, record, shown, content, held⟩ := holds.ordinary found kind
  calc realm.owns object key
    _ = (view.getOwn key).isSome := holds.owns_of_shown shown key
    _ = (record.find? key).isSome := by
      rw [Object.View.getOwn, content, Object.Content.getOwn, Option.isSome_map]
    _ = (chart.shapes.offset? holder.store.shape key).isSome := by
      rw [Chart.offset?_eq held.live, held.layout, Record.find?, Option.isSome_map]
    _ = (realm.shapes.offset? holder.store.shape key).isSome := by rw [holds.shapes]

/-! ### One turn -/

theorem built_swept (holds : realm.Holds chart views) (valid : views.Valid)
    (clear : realm.Clear (realm.rootCells roots))
    (survives : (realm.swept roots).objects.contains object = true)
    (built : realm.Built object keys) : (realm.swept roots).Built object keys := by
  obtain ⟨holder, found, kind, led⟩ := built
  have alive : (realm.swept roots).Alive (.object object) := survives
  refine ⟨holder, (object_swept alive).trans found, kind, ?_⟩
  have start : (realm.swept roots).Alive (.shape realm.objectRoot) :=
    holds.survives_root valid clear (List.mem_append_right _ (List.mem_cons_self ..))
      (holds.alive_shape.mpr holds.objectRoot.1.live)
  apply Shapes.path_of_step (P := fun handle => (realm.swept roots).Alive (.shape handle)) start _ led
  intro handle key child survives first
  obtain ⟨shape, present, known⟩ := Option.bind_eq_some_iff.mp first
  obtain ⟨children, sharing, member⟩ := Shape.mem_of_child? known
  constructor
  · rw [Shapes.child?, shape_swept survives]
    exact first
  · apply holds.survives_edge valid clear survives
    rw [edges, present]
    exact Shape.mem_edges_of_child sharing member

theorem built_made (holds : realm.Holds chart views)
    (made : request.makes host realm = some object) :
    (request.outcome host realm).2.Built object [] := by
  cases request with
  | newObject prototype =>
    obtain ⟨capacity, cell, same, ran⟩ :=
      holds.allocate_eq holds.objectRoot.1.live .ordinary prototype
    have ranHere : Request.perform host (.newObject prototype) realm =
        .ok (.handle (realm.objects.alloc cell).1)
          { realm with objects := (realm.objects.alloc cell).2 } := Action.bind_ok ran _
    rw [Request.makes, outcome_ok ranHere] at made
    rw [outcome_ok ranHere]
    cases made
    refine ⟨cell, (Arena.get?_alloc holds.sound ..).trans (if_pos rfl), ?_, ?_⟩
    · rw [same]
    · rw [same]
      rfl
  | _ => cases made

/-- A change to one key of an object that keys led to. -/
theorem edited_onObject (holds : realm.Holds chart views) (built : realm.Built object keys)
    {action : Object.Action α}
    (becomes : ∀ (holder : Object) (record : Record), holder.kind = .ordinary →
      holder.store.Holds chart record → Object.Becomes action holder chart record key)
    (held : ((onObject object action).final realm).Holds after seen) :
    realm.Edited ((onObject object action).final realm) object keys key := by
  obtain ⟨holder, found, kind, led⟩ := built
  obtain ⟨_, record, _, _, stored⟩ := holds.ordinary found kind
  obtain ⟨answer, moved, between, last, ran, movedHeld, moves, becomes⟩ :=
    becomes holder record kind stored
  have final : (onObject object action).final realm = { realm with
      objects := realm.objects.set object { holder with store := moved }
      shapes := between.shapes } := by
    have whole : action ⟨holder, chart.shapes⟩ =
        Action.settled (.ok answer) ⟨{ holder with store := moved }, between.shapes⟩ := ran
    rw [Action.final, holds.onObject_eq found whole]
    rfl
  rw [final] at held ⊢
  have foundLater : (realm.objects.set object { holder with store := moved }).get? object =
      some { holder with store := moved } :=
    (Arena.get?_set_live (Arena.contains_of_get? found) _ object).trans (if_pos rfl)
  have before := holds.owns_eq found kind key
  have later := held.owns_eq foundLater kind key
  rw [holds.shapes, Chart.offset?_eq stored.live, stored.layout] at before
  rw [Chart.offset?_eq movedHeld.live, movedHeld.layout] at later
  have ledLater : between.shapes.path realm.objectRoot keys = some holder.store.shape := by
    rw [holds.shapes] at led
    exact moves.grows.path led
  cases becomes with
  | stay shape layout =>
    rw [← shape] at ledLater
    apply Edited.stay
    · rw [later, before, layout]
    · exact ⟨_, foundLater, kind, ledLater⟩
  | add absent layout follows =>
    have ledOn : between.shapes.path realm.objectRoot (keys ++ [key]) = some moved.shape := by
      rw [Shapes.path_concat, ledLater]
      exact follows (holds.spells led).shared
    apply Edited.add
    · rw [before, absent]
      rfl
    · rw [later, layout, Layout.offset?_add stored.layout_sound absent, if_pos rfl]
      rfl
    · exact ⟨_, foundLater, kind, ledOn⟩
  | drop offset present layout =>
    apply Edited.drop
    · rw [before, present]
      rfl
    · rw [later, layout, Layout.offset?_remove, if_pos rfl]
      rfl

/-- A request that may add or delete a key of an object that keys led to. -/
theorem edited_outcome (holds : realm.Holds chart views) (built : realm.Built object keys)
    (direct : request.isDirect = true) (edits : request.edits object = some key)
    (held : (request.outcome host realm).2.Holds after seen) :
    realm.Edited (request.outcome host realm).2 object keys key := by
  have own : ∀ {other name}, (if other = object then some name else none) = some key →
      other = object ∧ name = key := by
    intro other name same
    by_cases here : other = object
    · rw [if_pos here] at same
      exact ⟨here, Option.some.inj same⟩
    · rw [if_neg here] at same
      cases same
  cases request with
  | define other name desc raises =>
    obtain ⟨rfl, rfl⟩ := own edits
    rw [Request.outcome_snd, Request.perform, Request.final_map, define, Action.final_report] at held ⊢
    exact holds.edited_onObject built
      (fun _ _ kind stored => Object.define_becomes kind stored name desc) held
  | delete other name raises =>
    obtain ⟨rfl, rfl⟩ := own edits
    rw [Request.outcome_snd, Request.perform, Request.final_map, delete, Action.final_report] at held ⊢
    exact holds.edited_onObject built (fun _ _ kind stored => Object.delete_becomes kind stored name)
      held
  | put other name value raises => cases direct
  | _ => cases edits

theorem edited_turn (holds : realm.Holds chart views) (valid : views.Valid) (host : Host)
    (lawful : (Turn.make request).isLawful realm = true) (built : realm.Built object keys)
    (edits : request.edits object = some key) :
    realm.Edited (request.outcome host realm).2 object keys key := by
  have staying : ∀ roots, request ≠ .collect roots := by
    rintro roots rfl
    cases edits
  have live : ∀ handle ∈ request.handles, views.Live handle := by
    intro handle member
    have named := Turn.namesLive_of_lawful lawful
    exact holds.live_iff.mpr (Request.live_of_namesLive named staying handle member)
  have first := holds.advances_pursue valid live
  obtain ⟨between, looked⟩ := holds.pursue valid live
  have builtLooked := first.built nofun built
  obtain ⟨view, shown⟩ : views.Live object := by
    obtain ⟨holder, found, _⟩ := built
    exact holds.live_iff.mpr (Arena.contains_of_get? found)
  have same : (request.pursue realm).1.owns object key = realm.owns object key := by
    rw [looked.owns_of_shown shown, holds.owns_of_shown shown]
  obtain ⟨after, seen, held, _⟩ := holds.takeTurn valid host lawful
  change (request.outcome host realm).2.Holds after seen at held
  rcases Turn.after_of_lawful host lawful with reached | ⟨next, asked, reached⟩
  · change (request.outcome host realm).2 = _ at reached
    rw [reached]
    exact .stay same builtLooked
  · change (request.outcome host realm).2 = _ at reached
    rw [reached] at held ⊢
    have nextEdits : next.edits object = some key :=
      (Request.edits_of_ask asked object).trans edits
    rcases looked.edited_outcome builtLooked (Request.direct_of_ask asked) nextEdits held with
      ⟨kept, last⟩ | ⟨absent, present, last⟩ | ⟨present, absent⟩
    · exact .stay (kept.trans same) last
    · exact .add (same ▸ absent) present last
    · exact .drop (same ▸ present) absent

/-- A turn that does not touch the names of an object leaves it where keys led to. -/
theorem built_turn (holds : realm.Holds chart views) (valid : views.Valid) (host : Host)
    (lawful : turn.isLawful realm = true) (apart : turn.changes ≠ some object)
    (survives : (turn.after host realm).objects.contains object = true)
    (built : realm.Built object keys) : (turn.after host realm).Built object keys := by
  by_cases collecting : ∃ roots, turn.request = .collect roots
  · obtain ⟨roots, same⟩ := collecting
    have named := Turn.namesLive_of_lawful lawful
    rw [same] at named
    cases turn with
    | make request =>
      cases same
      exact holds.built_swept valid (holds.clear named) survives built
    | lookUp request =>
      cases same
      exact built
  · exact (holds.advances_turn host valid lawful
      fun roots same => collecting ⟨roots, same⟩).built apart built

end Holds

/-- What changes an object edits one of its names or makes its shape its own. -/
theorem edits_of_changes (changes : request.changes = some object)
    (shared : request.isolates object = false) : ∃ key, request.edits object = some key := by
  cases request with
  | put other key value raises | define other key desc raises | delete other key raises =>
    cases changes
    exact ⟨key, if_pos rfl⟩
  | makeUnique other =>
    cases changes
    rw [Request.isolates, decide_eq_false_iff_not] at shared
    exact absurd rfl shared
  | _ => cases changes

/-- The keys that an object was given lead to its shape. -/
theorem Holds.built_lineage {before : Option (List Key)} (holds : realm.Holds chart views)
    (valid : views.Valid) (host : Host) (lawful : turn.isLawful realm = true)
    (built : ∀ keys, before = some keys → realm.Built object keys)
    (given : turn.lineage host object realm before = some keys) :
    (turn.after host realm).Built object keys := by
  cases turn with
  | lookUp request =>
    have builtHere := built keys given
    apply holds.built_turn valid host lawful nofun _ builtHere
    obtain ⟨holder, found, _⟩ := builtHere
    show (request.pursue realm).1.objects.contains object = true
    rw [objects_of_rest (request.rest_pursue realm)]
    exact Arena.contains_of_get? found
  | make request =>
    unfold Turn.lineage at given
    simp only at given
    by_cases made : request.makes host realm = some object
    · rw [if_pos made] at given
      cases given
      exact holds.built_made made
    rw [if_neg made] at given
    by_cases lost : (request.isolates object ||
        !(request.outcome host realm).2.objects.contains object) = true
    · rw [if_pos lost] at given
      cases given
    rw [if_neg lost] at given
    simp only [Bool.or_eq_true, Bool.not_eq_true', not_or, Bool.not_eq_true, Bool.not_eq_false] at lost
    obtain ⟨shared, survives⟩ := lost
    cases edits : request.edits object with
    | none =>
      rw [edits] at given
      apply holds.built_turn valid host lawful _ survives (built keys given)
      intro changes
      obtain ⟨key, edited⟩ := edits_of_changes changes shared
      rw [edits] at edited
      cases edited
    | some key =>
      rw [edits] at given
      simp only at given
      cases known : before with
      | none =>
        rw [known] at given
        split at given <;> cases given
      | some earlier =>
        rw [known] at given
        rcases holds.edited_turn valid host lawful (built earlier known) edits with
          ⟨same, last⟩ | ⟨absent, present, last⟩ | ⟨present, absent⟩
        · rw [same] at given
          have kept : earlier = keys := by
            cases owned : realm.owns object key <;> rw [owned] at given <;>
              exact Option.some.inj given
          exact kept ▸ last
        · rw [absent, present] at given
          cases given
          exact last
        · rw [absent, present] at given
          cases given

theorem Holds.built_course {before : Option (List Key)} (holds : realm.Holds chart views)
    (valid : views.Valid) (lawful : realm.lawful host turns = true)
    (built : ∀ keys, before = some keys → realm.Built object keys)
    (given : realm.lineage host object before turns = some keys) :
    (realm.course host turns).Built object keys := by
  induction turns generalizing realm chart views before with
  | nil => exact built keys given
  | cons turn rest ih =>
    obtain ⟨first, others⟩ := lawful_cons.mp lawful
    obtain ⟨between, seen, held, validBetween, _⟩ := holds.takeTurn valid host first
    exact ih held validBetween others
      (fun earlier known => holds.built_lineage valid host first built known) given

/-- Objects that only ever gained keys share a shape if and only if they gained the same keys in the
same order, whatever else happened in a course with live handles; and their keys have the offsets in
that order. -/
theorem shape_eq_iff_lineage_eq {config : Config} {other : Handle} {others : List Key}
    (lawful : (ofConfig config).lawful host turns = true)
    (given : (ofConfig config).lineage host object none turns = some keys)
    (givenOther : (ofConfig config).lineage host other none turns = some others) :
    ∃ holder neighbour, ((ofConfig config).course host turns).objects.get? object = some holder ∧
      ((ofConfig config).course host turns).objects.get? other = some neighbour ∧
      (holder.store.shape = neighbour.store.shape ↔ keys = others) ∧
      (∀ index key, keys[index]? = some key →
        ((ofConfig config).course host turns).resolve object key = some index) ∧
      ∀ index key, others[index]? = some key →
        ((ofConfig config).course host turns).resolve other key = some index := by
  obtain ⟨start, holdsStart⟩ := holds_ofConfig config
  obtain ⟨chart, views, holds, valid⟩ := holds_course lawful
  have nothing : ∀ (object : Handle) (keys : List Key), none = some keys →
      (ofConfig config).Built object keys := nofun
  obtain ⟨holder, found, _, led⟩ :=
    holdsStart.built_course valid_empty lawful (nothing object) given
  obtain ⟨neighbour, foundOther, _, ledOther⟩ :=
    holdsStart.built_course valid_empty lawful (nothing other) givenOther
  have spells := holds.spells led
  have spellsOther := holds.spells ledOther
  have resolves : ∀ {object holder keys},
      ((ofConfig config).course host turns).objects.get? object = some holder →
      chart.Spells holder.store.shape keys → ∀ index key, keys[index]? = some key →
      ((ofConfig config).course host turns).resolve object key = some index := by
    intro object holder keys found spells index key placed
    rw [holds.resolve_eq found, holds.shapes, Chart.offset?_eq spells.shared.live]
    exact spells.offset index key placed
  have alike : holder.store.shape = neighbour.store.shape ↔ keys = others := by
    constructor
    · intro same
      rw [same] at spells
      exact spells.unique spellsOther
    · intro same
      rw [same] at led
      exact Option.some.inj (led.symm.trans ledOther)
  exact ⟨holder, neighbour, found, foundOther, alike, resolves found spells,
    resolves foundOther spellsOther⟩

/-- Two objects gain the same two keys by different requests. Between them another object loses one
of the keys and goes on from there, one gets a shape of its own, tables are built, and a collection
frees both. A third object gains the keys in the other order. -/
def kindred : List Turn :=
  let x := Key.named 1
  let y := Key.named 2
  let first : Handle := ⟨0, 0⟩
  let second : Handle := ⟨1, 0⟩
  let forked : Handle := ⟨2, 0⟩
  let lonely : Handle := ⟨3, 0⟩
  let crossed : Handle := ⟨3, 1⟩
  [.make (.intern "x"), .make (.intern "y"), .make (.newObject none), .make (.newObject (some first)),
    .make (.newObject none), .make (.newObject none), .make (.put first x (.int 1) true),
    .make (.put forked x .null true), .make (.put forked y .null true),
    .make (.delete forked x true), .make (.put forked (.index 7) .null true),
    .make (.define first y (.accessor (some .undefined) none {}) true),
    .make (.put lonely x .null true), .make (.makeUnique lonely), .make (.put lonely y .null true),
    .make (.makeTransitionable lonely), .make (.keys first .all), .make (.collect [first, second]),
    .make (.define second x (.data (.object first) {}) true), .make (.delete second y true),
    .make (.delete second x false), .make (.define second y (.plain (.int 2)) true),
    .make (.preventExtensions first), .make (.put first (.index 7) .null false),
    .make (.newObject none), .make (.put crossed y .null true), .make (.put crossed x .null true)]

theorem shape_eq_iff_lineage_eq_kindred :
    (ofConfig {}).lawful Host.none kindred = true ∧
      (ofConfig {}).lineage Host.none ⟨0, 0⟩ none kindred = some [.named 1, .named 2] ∧
      (ofConfig {}).lineage Host.none ⟨1, 0⟩ none kindred = some [.named 1, .named 2] ∧
      ∃ holder neighbour,
        ((ofConfig {}).course Host.none kindred).objects.get? ⟨0, 0⟩ = some holder ∧
        ((ofConfig {}).course Host.none kindred).objects.get? ⟨1, 0⟩ = some neighbour ∧
        holder.store.shape = neighbour.store.shape :=
  have lawful : (ofConfig {}).lawful Host.none kindred = true := by decide +kernel
  have given : (ofConfig {}).lineage Host.none ⟨0, 0⟩ none kindred =
      some [.named 1, .named 2] := by decide +kernel
  have givenOther : (ofConfig {}).lineage Host.none ⟨1, 0⟩ none kindred =
      some [.named 1, .named 2] := by decide +kernel
  have ⟨holder, neighbour, found, foundOther, same, _⟩ :=
    shape_eq_iff_lineage_eq lawful given givenOther
  ⟨lawful, given, givenOther, holder, neighbour, found, foundOther, same.mpr rfl⟩

/-- In the other order the keys lead elsewhere. -/
example : (ofConfig {}).lineage Host.none ⟨3, 1⟩ none kindred = some [.named 2, .named 1] ∧
    (((ofConfig {}).course Host.none kindred).objects.get? ⟨3, 1⟩).map (fun object => object.store.shape) ≠
      (((ofConfig {}).course Host.none kindred).objects.get? ⟨0, 0⟩).map fun object =>
        object.store.shape := by
  decide +kernel

end Realm

end HiddenClass
