import HiddenClass.Proofs.Realm.Course

/-!
A property of every object of a realm. It lasts through a course when new objects have it and the
definitions and deletions of the course keep it, whatever the other requests do.
-/

namespace HiddenClass.Realm

variable {P : Object.Content → Prop} {G : Request → Prop}

/-- Requests of a kind make objects with a property and take it from none. -/
structure Lasting (P : Object.Content → Prop) (G : Request → Prop) : Prop where
  ordinary : P (.ordinary {})
  array : ∀ {length}, G (.newArray length) → P (.array (.ofLength length))
  define : ∀ {object key desc raises}, G (.define object key desc raises) →
    ∀ {content : Object.Content}, content.Sound → P content → ∀ (bound : Nat) (doomed : List Nat),
      (∀ length, key = Key.length → Elements.lengthOf? desc.value = some length →
        content.Doomed length doomed) →
      ∀ extensible, P (content.define bound doomed key desc extensible).2
  delete : ∀ {object key raises}, G (.delete object key raises) →
    ∀ {content : Object.Content}, content.Sound → P content → P (content.delete key).2
  /-- A request of the kind comes to one of the kind. -/
  ask : ∀ {request next realm}, G request → (request.pursue realm).2 = .ask next → G next

theorem Lasting.and {Q : Object.Content → Prop} {H : Request → Prop} (first : Lasting P G)
    (second : Lasting Q H) :
    Lasting (fun content => P content ∧ Q content) fun request => G request ∧ H request where
  ordinary := ⟨first.ordinary, second.ordinary⟩
  array := fun given => ⟨first.array given.1, second.array given.2⟩
  define := fun given _ sound both bound doomed listed extensible =>
    ⟨first.define given.1 sound both.1 bound doomed listed extensible,
      second.define given.2 sound both.2 bound doomed listed extensible⟩
  delete := fun given _ sound both =>
    ⟨first.delete given.1 sound both.1, second.delete given.2 sound both.2⟩
  ask := fun given asked => ⟨first.ask given.1 asked, second.ask given.2 asked⟩

namespace Views

def Every (P : Object.Content → Prop) (views : Views) : Prop :=
  ∀ handle view, views handle = some view → P view.content

variable {views after : Views} {view : Object.View} {next : Request} {reply : Reply}

theorem every_empty : Every P fun _ => none := fun _ _ shown => by cases shown

theorem Every.update (every : views.Every P) (handle : Handle) (content : P view.content) :
    (views.update handle view).Every P := by
  intro other shown found
  rcases of_update found with ⟨_, rfl⟩ | ⟨_, old⟩
  · exact content
  · exact every other shown old

/-- A step leaves the contents of the objects as they are, apart from those that it makes, defines a
property of or deletes one of. -/
theorem Every.of_step (every : views.Every P) (step : views.Step next reply after)
    (ordinary : P (.ordinary {}))
    (array : ∀ length, next = .newArray length → P (.array (.ofLength length)))
    (define : ∀ object key desc raises view bound doomed, next = .define object key desc raises →
      views object = some view →
      (∀ length, key = Key.length → Elements.lengthOf? desc.value = some length →
        view.content.Doomed length doomed) →
      reply = .ofVerdict raises (view.define bound doomed key desc).1 →
      P (view.content.define bound doomed key desc view.extensible).2)
    (delete : ∀ object key raises view, next = .delete object key raises →
      views object = some view → P (view.content.delete key).2) : after.Every P := by
  cases next with
  | intern text => exact step.2 ▸ every
  | newObject prototype | newUniqueObject prototype =>
    obtain ⟨handle, _, _, rfl⟩ := step
    exact every.update handle ordinary
  | newArray length =>
    obtain ⟨handle, _, _, rfl⟩ := step
    exact every.update handle (array length rfl)
  | getOwn object key =>
    obtain ⟨_, _, _, rfl⟩ := step
    exact every
  | getProperty object key =>
    obtain ⟨_, _, rfl⟩ := step
    exact every
  | define object key desc raises =>
    obtain ⟨view, bound, doomed, shown, listed, answered, rfl⟩ := step
    exact every.update object
      (define object key desc raises view bound doomed rfl shown listed answered)
  | delete object key raises =>
    obtain ⟨view, shown, _, rfl⟩ := step
    exact every.update object (delete object key raises view rfl shown)
  | keys object filter =>
    obtain ⟨_, _, _, _, _, rfl⟩ := step
    exact every
  | preventExtensions object | setPrototype object prototype =>
    obtain ⟨view, shown, _, rfl⟩ := step
    exact every.update object (every object view shown)
  | makeUnique object | makeTransitionable object => exact step.2 ▸ every
  | collect roots => exact fun handle view shown => every handle view (step.2.1 handle view shown)
  | read object key | put object key value raises => exact step.elim

theorem Every.step (every : views.Every P) (lasting : Lasting P G) (valid : views.Valid)
    (given : G next) (step : views.Step next reply after) : after.Every P := by
  refine every.of_step step lasting.ordinary (fun length made => ?_)
    (fun object key desc raises view bound doomed made shown listed _ => ?_)
    fun object key raises view made shown => ?_
  · exact lasting.array (made ▸ given)
  · exact lasting.define (made ▸ given) (valid.sound object view shown) (every object view shown)
      bound doomed listed view.extensible
  · exact lasting.delete (made ▸ given) (valid.sound object view shown) (every object view shown)

end Views

variable {host : Host} {realm : Realm} {chart : Chart} {views : Views} {turn : Turn}
  {turns : List Turn}

/-- A turn shows nothing of itself, or does what a request of the same kind does. -/
theorem Holds.every_turn (holds : realm.Holds chart views) (valid : views.Valid)
    (every : views.Every P) (lasting : Lasting P G) (host : Host)
    (lawful : turn.isLawful realm = true) (given : G turn.request) :
    ∃ (after : Chart) (later : Views), (turn.after host realm).Holds after later ∧ later.Valid ∧
      later.Every P ∧ (later = views ∨ ∃ request next, turn = .make request ∧
        (request.pursue realm).2 = .ask next ∧ G next ∧
        views.Step next (request.outcome host realm).1 later) := by
  obtain ⟨after, later, held, validLater, rfl | ⟨request, next, rfl, asked, step⟩⟩ :=
    holds.takeTurn valid host lawful
  · exact ⟨after, later, held, validLater, every, Or.inl rfl⟩
  · have givenNext := lasting.ask given asked
    exact ⟨after, later, held, validLater, every.step lasting valid givenNext step,
      Or.inr ⟨request, next, rfl, asked, givenNext, step⟩⟩

theorem Holds.every_course (holds : realm.Holds chart views) (valid : views.Valid)
    (every : views.Every P) (lasting : Lasting P G) (lawful : realm.lawful host turns = true)
    (given : ∀ turn ∈ turns, G turn.request) :
    ∃ (after : Chart) (later : Views), (realm.course host turns).Holds after later ∧ later.Valid ∧
      later.Every P := by
  induction turns generalizing realm chart views with
  | nil => exact ⟨chart, views, holds, valid, every⟩
  | cons turn rest ih =>
    obtain ⟨first, others⟩ := lawful_cons.mp lawful
    obtain ⟨givenFirst, givenRest⟩ := List.forall_mem_cons.mp given
    obtain ⟨between, seen, held, validBetween, everyBetween, _⟩ :=
      holds.every_turn valid every lasting host first givenFirst
    exact ih held validBetween everyBetween others givenRest

theorem every_course {config : Config} (lasting : Lasting P G)
    (lawful : (ofConfig config).lawful host turns = true)
    (given : ∀ turn ∈ turns, G turn.request) :
    ∃ (chart : Chart) (views : Views),
      ((ofConfig config).course host turns).Holds chart views ∧ views.Valid ∧ views.Every P := by
  obtain ⟨chart, holds⟩ := holds_ofConfig config
  exact holds.every_course valid_empty Views.every_empty lasting lawful given

end HiddenClass.Realm
