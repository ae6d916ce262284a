import HiddenClass.Proofs.Shape.Allotment
import HiddenClass.Proofs.Shape.Births

/-!
Runs of the shape operations, told with the histories by which each shape was obtained. A request that
keeps to the rules never fails. Afterwards no shape is live but those that were obtained, and each of
them stands for the layout that any of its histories leads to.
-/

namespace HiddenClass

/-- The histories by which each shape was obtained. A shape that was reached over again has several,
one that was not obtained has none. -/
abbrev Annals := Handle → List (List Edit)

namespace Shapes

def isUnique (shapes : Shapes) (handle : Handle) : Bool :=
  (shapes.arena.get? handle).any Shape.isUnique

inductive Request where
  | newRoot
  | newUnique
  | newUniqueFrom (source : Handle)
  | add (source : Handle) (key : Key)
  | remove (source : Handle) (key : Key)
  | share (shape : Handle)
  | lookup (shape : Handle) (key : Key)
  | materialize (shape : Handle)
  | names (shape : Handle)
deriving DecidableEq, Repr

end Shapes

/-- The histories that lead over one more edit. A unique shape is edited in place, so nothing is left
of what it was; a shared one leads to a shape that may have been reached before. -/
def Annals.lengthen (annals : Annals) (shapes : Shapes) (source own : Handle) (edit : Edit) :
    List (List Edit) :=
  let longer := (annals source).map fun history => history ++ [edit]
  if shapes.isUnique source then longer else annals own ++ longer

namespace Shapes.Request

/-- Does what is requested, and answers the shape that was made or reached or asked. -/
def perform : Request → Shapes.Action Handle
  | .newRoot => Shapes.newRoot
  | .newUnique => Shapes.newUnique
  | .newUniqueFrom source => Shapes.newUniqueFrom source
  | .add source key => do return (← Shapes.add source key).1
  | .remove source key => Shapes.remove source key
  | .share shape => do
    Shapes.share shape
    return shape
  | .lookup shape key => do
    let _ ← Shapes.lookup shape key
    return shape
  | .materialize shape => do
    Shapes.materialize shape
    return shape
  | .names shape => do
    let _ ← Shapes.names shape
    return shape

/-- Only live shapes may be named, and only a name that is missing may be added. -/
def isLawful (shapes : Shapes) : Request → Bool
  | .newRoot => true
  | .newUnique => true
  | .add source key => (Shapes.lookup source key).answer? shapes == some none
  | .newUniqueFrom shape => shapes.live shape
  | .remove shape _ => shapes.live shape
  | .share shape => shapes.live shape
  | .lookup shape _ => shapes.live shape
  | .materialize shape => shapes.live shape
  | .names shape => shapes.live shape

/-- The histories of the shape that a request answers. -/
def histories (shapes : Shapes) (annals : Annals) (own : Handle) : Request → List (List Edit)
  | .newRoot => [[]]
  | .newUnique => [[]]
  | .newUniqueFrom source => annals source
  | .add source key => annals.lengthen shapes source own (.add key)
  | .remove source key => annals.lengthen shapes source own (.remove key)
  | _ => annals own

end Shapes.Request

/-- The shapes of a heap with the histories by which they were obtained. -/
structure Chronicle where
  shapes : Shapes
  annals : Annals

namespace Chronicle

def start (slotCapacity : Nat) : Chronicle :=
  { shapes := .ofCapacity slotCapacity, annals := fun _ => [] }

def advance (chronicle : Chronicle) (request : Shapes.Request) : Chronicle :=
  match request.perform chronicle.shapes with
  | .ok own after =>
    { shapes := after
      annals := Function.update chronicle.annals own
        (request.histories chronicle.shapes chronicle.annals own) }
  | .error _ after => { chronicle with shapes := after }

def after (chronicle : Chronicle) (requests : List Shapes.Request) : Chronicle :=
  requests.foldl advance chronicle

/-- Whether each request keeps to the rules when its turn comes. -/
def lawful : Chronicle → List Shapes.Request → Bool
  | _, [] => true
  | chronicle, request :: rest =>
    request.isLawful chronicle.shapes && lawful (chronicle.advance request) rest

/-- The live shapes are those that were obtained, and each stands for a layout that comes from every
one of its histories. -/
structure Told (chronicle : Chronicle) (chart : Chart) : Prop where
  shapes : chart.shapes = chronicle.shapes
  obtained : ∀ handle, chart.Live handle ↔ chronicle.annals handle ≠ []
  arises : ∀ handle, ∀ history ∈ chronicle.annals handle, (chart.layouts handle).Arises history

variable {chronicle : Chronicle} {chart later : Chart} {request : Shapes.Request}
  {handle own source : Handle} {shape : Shape} {key : Key} {last : Edit}

theorem told_start (slotCapacity : Nat) : ∃ chart, (start slotCapacity).Told chart := by
  have charted : (Shapes.ofCapacity slotCapacity).Charted fun _ => {} :=
    ⟨Arena.sound_empty, fun handle shape found => absurd found.symm (Option.some_ne_none _)⟩
  refine ⟨⟨_, _, charted⟩, rfl, fun handle => ?_, fun handle history member => ?_⟩
  · constructor
    · intro live
      cases live
    · intro obtained
      exact absurd rfl obtained
  · cases member

namespace Told

variable (told : chronicle.Told chart)
include told

theorem live_of_mem {history : List Edit} (member : history ∈ chronicle.annals handle) :
    chart.Live handle := by
  apply (told.obtained handle).mpr
  intro none
  rw [none] at member
  cases member

/-- It is enough to know the histories of the one shape that was made or reached. -/
theorem update {histories : List (List Edit)} (kept : ∀ handle, chart.Live handle → later.Live handle)
    (reached : later.Live own)
    (born : ∀ handle, later.Live handle → chart.Live handle ∨ handle = own)
    (spared : ∀ handle, chart.Live handle → handle ≠ own →
      later.layouts handle = chart.layouts handle)
    (some_history : histories ≠ [])
    (arises : ∀ history ∈ histories, (later.layouts own).Arises history) :
    Told ⟨later.shapes, Function.update chronicle.annals own histories⟩ later where
  shapes := rfl
  obtained := by
    intro handle
    by_cases same : handle = own
    · subst same
      simp only [Function.update_self]
      exact ⟨fun _ => some_history, fun _ => reached⟩
    · simp only [Function.update_of_ne same, ← told.obtained]
      constructor
      · intro live
        exact (born handle live).resolve_right same
      · exact kept handle
  arises := by
    intro handle history member
    by_cases same : handle = own
    · subst same
      simp only [Function.update_self] at member
      exact arises history member
    · simp only [Function.update_of_ne same] at member
      rw [spared handle (told.live_of_mem member) same]
      exact told.arises handle history member

/-- Nothing is made or changed by asking. -/
theorem ask (live : chart.Live own) (grown : chart.Extends later)
    (born : ∀ handle, later.Live handle → chart.Live handle ∨ handle = own) :
    Told ⟨later.shapes, Function.update chronicle.annals own (chronicle.annals own)⟩ later := by
  apply told.update grown.live (grown.live own live) born
  · intro handle present _
    exact grown.layouts handle present
  · exact (told.obtained own).mp live
  · intro history member
    rw [grown.layouts own live]
    exact told.arises own history member

theorem make {histories : List (List Edit)} (grown : chart.Extends later) (reached : later.Live own)
    (born : ∀ handle, later.Live handle → chart.Live handle ∨ handle = own)
    (some_history : histories ≠ [])
    (arises : ∀ history ∈ histories, (later.layouts own).Arises history) :
    Told ⟨later.shapes, Function.update chronicle.annals own histories⟩ later :=
  told.update grown.live reached born (fun handle present _ => grown.layouts handle present)
    some_history arises

theorem makeEmpty (grown : chart.Extends later) (reached : later.Live own)
    (born : ∀ handle, later.Live handle → chart.Live handle ∨ handle = own)
    (empty : later.layouts own = {}) :
    Told ⟨later.shapes, Function.update chronicle.annals own [[]]⟩ later := by
  apply told.make grown reached born (List.cons_ne_nil [] [])
  intro history member
  rw [List.mem_singleton.mp member, empty]
  exact .empty

/-- An edit makes each history of its source longer. -/
theorem edit (found : chart.get? source = some shape) (moves : chart.Moves later source own)
    (stays : shape.isUnique = true → own = source)
    (born : ∀ handle, later.Live handle → chart.Live handle ∨ handle = own)
    (arises : ∀ history, (chart.layouts source).Arises history →
      (later.layouts own).Arises (history ++ [last])) :
    Told ⟨later.shapes, Function.update chronicle.annals own
      (chronicle.annals.lengthen chart.shapes source own last)⟩ later := by
  have flagged : chart.shapes.isUnique source = shape.isUnique := by
    change chart.shapes.arena.get? source = some shape at found
    rw [Shapes.isUnique, found, Option.any_some]
  have longer : ∀ history ∈ (chronicle.annals source).map fun history => history ++ [last],
      (later.layouts own).Arises history := by
    intro history member
    obtain ⟨front, earlier, same⟩ := List.mem_map.mp member
    rw [← same]
    exact arises front (told.arises source front earlier)
  have some_longer : (chronicle.annals source).map (fun history => history ++ [last]) ≠ [] := by
    rw [Ne, List.map_eq_nil_iff]
    exact (told.obtained source).mp (Chart.live_of_get? found)
  unfold Annals.lengthen
  rw [flagged]
  cases unique : shape.isUnique with
  | true =>
    apply told.update moves.live moves.reached born
    · intro handle live different
      exact moves.layouts handle live fun same => absurd (same.trans (stays unique).symm) different
    · exact some_longer
    · exact longer
  | false =>
    -- the source is shared, so no shape has got another layout
    have spared : ∀ handle, chart.Live handle → later.layouts handle = chart.layouts handle := by
      intro handle live
      apply moves.layouts handle live
      intro same
      rw [same]
      exact (Chart.shared_iff found).mpr unique
    apply told.update moves.live moves.reached born
    · intro handle live _
      exact spared handle live
    · intro none
      exact some_longer (List.append_eq_nil_iff.mp none).2
    · intro history member
      rcases List.mem_append.mp member with old | new
      · rw [spared own (told.live_of_mem old)]
        exact told.arises own history old
      · exact longer history new

end Told

/-! ### One request -/

theorem own_of_add (found : chart.get? source = some shape) (unique : shape.isUnique = true)
    (absent : (chart.layouts source).offset? key = none) {answer : Handle × Nat} {after : Shapes}
    (ran : Shapes.add source key chart.shapes = .ok answer after) : answer.1 = source := by
  obtain ⟨_, extended, _⟩ := Chart.extendUnique_ok found unique absent
  unfold Shapes.add at ran
  rw [Action.bind_ok (Chart.fetch_ok found)] at ran
  cases sharing : shape.sharing with
  | unique =>
    simp only [sharing] at ran
    rw [extended] at ran
    cases ran
    rfl
  | shared children =>
    rw [Shape.isUnique, sharing] at unique
    cases unique

theorem own_of_remove (found : chart.get? source = some shape) (unique : shape.isUnique = true)
    {after : Shapes} (ran : Shapes.remove source key chart.shapes = .ok own after) :
    own = source := by
  obtain ⟨between, cell, built, _, cellFound, _, same, _⟩ := Chart.materialize_ok found
  rw [unique] at same
  obtain ⟨_, shrunk, _⟩ := Chart.shrinkUnique_ok cellFound same key
  unfold Shapes.remove at ran
  rw [Action.bind_ok built, Action.bind_ok (Chart.fetch_ok cellFound)] at ran
  cases sharing : cell.sharing with
  | unique =>
    simp only [sharing] at ran
    rw [shrunk] at ran
    cases ran
    rfl
  | shared children =>
    rw [Shape.isUnique, sharing] at same
    cases same

theorem lawful_add (lawful : (Shapes.Request.add source key).isLawful chart.shapes = true) :
    chart.Live source ∧ (chart.layouts source).offset? key = none := by
  have answered : (Shapes.lookup source key).answer? chart.shapes = some none := eq_of_beq lawful
  have live : chart.Live source := by
    by_contra dead
    have missing : chart.shapes.arena.get? source = none := Arena.get?_eq_none_iff.mpr dead
    unfold Action.answer? Shapes.lookup Shapes.fetch at answered
    rw [Action.bind_apply, Action.bind_ok (Action.get_apply _), missing] at answered
    cases answered
  obtain ⟨after, _, ran⟩ := Chart.lookup_ok live key
  rw [Action.answer?_ok ran] at answered
  exact ⟨live, Option.some.inj answered⟩

theorem bears_asked {α : Type} {action : Shapes.Action α} {shapes : Shapes}
    (keeps : action.Keeps Shapes.live shapes) (asked : Handle) :
    Shapes.Bears (do let _ ← action; return asked) id shapes := by
  apply Shapes.bears_of_keeps
  apply Action.Keeps.bind keeps
  intro _ _ _
  rfl

theorem bears_perform (lawful : request.isLawful chart.shapes = true) :
    Shapes.Bears request.perform id chart.shapes := by
  have sound := chart.charted.sound
  cases request with
  | newRoot => exact Shapes.bears_allocate sound Shape.root
  | newUnique => exact Shapes.bears_allocate sound Shape.emptyUnique
  | newUniqueFrom source => exact Shapes.bears_newUniqueFrom sound source
  | add source key => exact (Shapes.bears_add sound source key).map
  | remove source key =>
    obtain ⟨shape, found⟩ := Chart.live_iff.mp lawful
    exact Shapes.bears_remove found key
  | share asked => exact bears_asked (Shapes.keeps_share asked chart.shapes) asked
  | lookup asked key => exact bears_asked (Shapes.keeps_lookup asked key chart.shapes) asked
  | materialize asked => exact bears_asked (Shapes.keeps_materialize asked chart.shapes) asked
  | names asked => exact bears_asked (Shapes.keeps_names asked chart.shapes) asked

theorem advance_ok {after : Shapes} (ran : request.perform chronicle.shapes = .ok own after) :
    chronicle.advance request = ⟨after, Function.update chronicle.annals own
      (request.histories chronicle.shapes chronicle.annals own)⟩ := by
  rw [advance, ran]

/-- A request that keeps to the rules comes to its end, and what is told stays true. -/
theorem Told.perform (told : chronicle.Told chart)
    (lawful : request.isLawful chronicle.shapes = true) :
    ∃ (own : Handle) (later : Chart), request.perform chronicle.shapes = .ok own later.shapes ∧
      (chronicle.advance request).Told later := by
  rw [← told.shapes] at lawful
  have born {own : Handle} {later : Chart}
      (ran : request.perform chart.shapes = .ok own later.shapes) :
      ∀ handle, later.Live handle → chart.Live handle ∨ handle = own :=
    bears_perform lawful own later.shapes ran
  have settle {own : Handle} {later : Chart}
      (ran : request.perform chart.shapes = .ok own later.shapes)
      (held : Told ⟨later.shapes, Function.update chronicle.annals own
        (request.histories chart.shapes chronicle.annals own)⟩ later) :
      ∃ (own : Handle) (later : Chart), request.perform chronicle.shapes = .ok own later.shapes ∧
        (chronicle.advance request).Told later := by
    rw [told.shapes] at ran held
    refine ⟨own, later, ran, ?_⟩
    rw [advance_ok ran]
    exact held
  cases request with
  | newRoot =>
    obtain ⟨own, later, ran, _, reached, empty, grown⟩ := chart.newRoot_ok
    exact settle ran (told.makeEmpty grown reached (born ran) empty)
  | newUnique =>
    obtain ⟨own, later, ran, _, reached, empty, grown⟩ := chart.newUnique_ok
    exact settle ran (told.makeEmpty grown reached (born ran) empty)
  | newUniqueFrom source =>
    obtain ⟨own, later, ran, _, reached, layout, grown⟩ := Chart.newUniqueFrom_ok lawful
    apply settle ran
      (told.make grown reached (born ran) ((told.obtained source).mp lawful) _)
    intro history member
    rw [layout]
    exact told.arises source history member
  | add source key =>
    obtain ⟨live, absent⟩ := lawful_add lawful
    obtain ⟨shape, found⟩ := Chart.live_iff.mp live
    obtain ⟨own, later, added, layout, moves, _⟩ := Chart.add_ok live absent
    have ran : (Shapes.Request.add source key).perform chart.shapes = .ok own later.shapes :=
      Action.bind_ok added _
    apply settle ran
      (told.edit found moves (fun unique => own_of_add found unique absent added) (born ran) _)
    intro history arises
    rw [layout]
    exact arises.add absent
  | remove source key =>
    obtain ⟨shape, found⟩ := Chart.live_iff.mp lawful
    obtain ⟨own, later, ran, layout, moves⟩ := Chart.remove_ok lawful key
    apply settle ran
      (told.edit found moves (fun unique => own_of_remove found unique ran) (born ran) _)
    intro history arises
    rw [layout]
    exact arises.remove key
  | share asked =>
    obtain ⟨later, shared, _, grown, _⟩ := Chart.share_ok lawful
    have ran : (Shapes.Request.share asked).perform chart.shapes = .ok asked later.shapes :=
      Action.bind_ok shared _
    exact settle ran (told.ask lawful grown (born ran))
  | lookup asked key =>
    obtain ⟨later, agrees, found⟩ := Chart.lookup_ok lawful key
    have ran : (Shapes.Request.lookup asked key).perform chart.shapes = .ok asked later.shapes :=
      Action.bind_ok found _
    exact settle ran (told.ask lawful agrees.extends (born ran))
  | materialize asked =>
    obtain ⟨shape, found⟩ := Chart.live_iff.mp lawful
    obtain ⟨later, _, built, agrees, _⟩ := Chart.materialize_ok found
    have ran : (Shapes.Request.materialize asked).perform chart.shapes = .ok asked later.shapes :=
      Action.bind_ok built _
    exact settle ran (told.ask lawful agrees.extends (born ran))
  | names asked =>
    obtain ⟨later, agrees, listed⟩ := Chart.names_ok lawful
    have ran : (Shapes.Request.names asked).perform chart.shapes = .ok asked later.shapes :=
      Action.bind_ok listed _
    exact settle ran (told.ask lawful agrees.extends (born ran))

/-! ### A whole run -/

theorem Told.after {requests : List Shapes.Request} (told : chronicle.Told chart)
    (lawful : chronicle.lawful requests = true) :
    ∃ later, (chronicle.after requests).Told later := by
  induction requests generalizing chronicle chart with
  | nil => exact ⟨chart, told⟩
  | cons request rest ih =>
    obtain ⟨first, others⟩ := (Bool.and_eq_true ..).mp lawful
    obtain ⟨_, between, _, toldBetween⟩ := told.perform first
    exact ih toldBetween others

end Chronicle

end HiddenClass
