import HiddenClass.Proofs.Realm.Every
import HiddenClass.Proofs.Realm.Stops
import HiddenClass.Proofs.Tunables

/-!
What plain requests lead to: arrays without a hole, and without an index at or above their length.
-/

namespace HiddenClass

/-! ### Plain requests -/

namespace Request

/-- The keys are interned, no hole is among the values, and the length of a new array is a word. -/
def Plain : Request → Prop
  | .getOwn _ key | .getProperty _ key | .read _ key | .delete _ key _ => key.Interned
  | .put _ key value _ => key.Interned ∧ value.Solid
  | .define _ key desc _ => key.Interned ∧ desc.All Value.Solid
  | .newArray length => length < 4294967296
  | _ => True

instance : DecidablePred Plain
  | .getOwn _ key | .getProperty _ key | .read _ key | .delete _ key _ =>
    inferInstanceAs (Decidable key.Interned)
  | .put _ key value _ => inferInstanceAs (Decidable (key.Interned ∧ value.Solid))
  | .define _ key desc _ => inferInstanceAs (Decidable (key.Interned ∧ desc.All Value.Solid))
  | .newArray length => inferInstanceAs (Decidable (length < 4294967296))
  | .intern _ | .newObject _ | .newUniqueObject _ | .keys .. | .preventExtensions _
  | .setPrototype .. | .makeUnique _ | .makeTransitionable _ | .collect _ =>
    inferInstanceAs (Decidable True)

variable {request next : Request} {realm : Realm}

theorem Plain.of_ask (plain : request.Plain) (asked : (request.pursue realm).2 = .ask next) :
    next.Plain := by
  rcases Request.of_ask asked with ⟨_, rfl⟩ | ⟨_, _, _, _, _, rfl, rfl, rfl | rfl⟩
  · exact plain
  · exact ⟨plain.1, Object.View.solid_data plain.2 _⟩
  · exact ⟨plain.1, Object.View.solid_data plain.2 _⟩

end Request

/-! ### Arrays -/

/-- No hole is in an array, and its indices lie below its length. -/
structure Elements.View.Settled (view : View) : Prop where
  bounded : view.Bounded
  solid : view.Proper Value.Solid

namespace Object.Content

variable {content : Content} {key : Key} {desc : Descriptor} {bound : Nat} {doomed : List Nat}
  {extensible : Bool}

def Settled : Content → Prop
  | .ordinary _ => True
  | .array view => view.Settled

/-- Without its prototype, which no definition or deletion looks at, such an array is tidy. -/
theorem Settled.tidy {array : Elements.View} (settled : array.Settled) (sound : array.Sound)
    (extensible : Bool) : View.Tidy { content := .array array, extensible, prototype := none } :=
  ⟨⟨array, rfl, settled.bounded⟩, sound, settled.solid, rfl⟩

theorem settled_of_tidy {view : View} (tidy : view.Tidy) : view.content.Settled := by
  obtain ⟨⟨array, content, bounded⟩, _, solid, _⟩ := tidy
  rw [content] at solid ⊢
  exact ⟨bounded, solid⟩

/-- The indices of a settled array lie below its length, so no definition overflows. -/
theorem Settled.define_fits (settled : content.Settled) (sound : content.Sound)
    (listed : ∀ length, key = Key.length → Elements.lengthOf? desc.value = some length →
      content.Doomed length doomed) :
    (content.define bound doomed key desc extensible).1 ≠ .error .overflow := by
  cases content with
  | ordinary record => exact nofun
  | array array =>
    unfold Content.define
    cases role : key.role with
    | element index => exact nofun
    | name => exact nofun
    | length =>
      exact Elements.View.defineLength_fits sound settled.bounded fun length found =>
        listed length (Key.of_role_length role) found

theorem Settled.define (settled : content.Settled) (sound : content.Sound) (interned : key.Interned)
    (given : desc.All Value.Solid)
    (listed : ∀ length, key = Key.length → Elements.lengthOf? desc.value = some length →
      content.Doomed length doomed) :
    (content.define bound doomed key desc extensible).2.Settled := by
  cases content with
  | ordinary record => trivial
  | array array =>
    have tidy := Settled.tidy settled sound extensible
    exact settled_of_tidy (tidy.define_eq interned given listed listed bound bound).2

/-- A definition comes to a verdict or to an error. -/
theorem Settled.define_ends (settled : content.Settled) (sound : content.Sound)
    (listed : ∀ length, key = Key.length → Elements.lengthOf? desc.value = some length →
      content.Doomed length doomed) :
    ∃ answer : Except Error Verdict,
      (content.define bound doomed key desc extensible).1 = answer.mapError .error := by
  cases defined : (content.define bound doomed key desc extensible).1 with
  | ok verdict => exact ⟨.ok verdict, rfl⟩
  | error fault =>
    rcases fault_define defined with rfl | rfl
    · exact ⟨.error .invalidLength, rfl⟩
    · exact absurd defined (settled.define_fits sound listed)

theorem Settled.delete (settled : content.Settled) (sound : content.Sound)
    (interned : key.Interned) : (content.delete key).2.Settled := by
  cases content with
  | ordinary record => trivial
  | array array => exact settled_of_tidy ((Settled.tidy settled sound true).delete interned)

end Object.Content

/-! ### Realms -/

namespace Realm

variable {host : Host} {realm : Realm} {chart : Chart} {views : Views} {turn : Turn}
  {turns : List Turn}

def Views.Settled (views : Views) : Prop :=
  ∀ handle view, views handle = some view → view.content.Settled

/-- A plain request leaves no hole in an array and no index beyond its length. -/
theorem lasting_settled : Lasting Object.Content.Settled Request.Plain where
  ordinary := trivial
  array := fun plain => ⟨Elements.View.bounded_ofLength plain, Elements.View.proper_ofLength _⟩
  define := fun plain _ sound settled _ _ listed _ =>
    settled.define sound plain.1 plain.2 listed
  delete := fun plain _ sound settled => settled.delete sound plain
  ask := fun plain asked => plain.of_ask asked

/-- What a plain turn shows is nothing, or what a plain request does. -/
theorem Holds.settled_turn (holds : realm.Holds chart views) (valid : views.Valid)
    (settled : views.Settled) (host : Host) (lawful : turn.isLawful realm = true)
    (plain : turn.request.Plain) :
    ∃ (after : Chart) (later : Views), (turn.after host realm).Holds after later ∧ later.Valid ∧
      later.Settled ∧ (later = views ∨ ∃ request next, turn = .make request ∧
        (request.pursue realm).2 = .ask next ∧ next.Plain ∧
        views.Step next (request.outcome host realm).1 later) :=
  holds.every_turn valid settled lasting_settled host lawful plain

theorem settled_course {config : Config} (lawful : (ofConfig config).lawful host turns = true)
    (plain : ∀ turn ∈ turns, turn.request.Plain) :
    ∃ (chart : Chart) (views : Views),
      ((ofConfig config).course host turns).Holds chart views ∧ views.Valid ∧ views.Settled :=
  every_course lasting_settled lawful plain

theorem Views.Settled.not_overflows {request : Request} (settled : views.Settled)
    (valid : views.Valid) : ¬views.Overflows request := by
  rintro ⟨object, key, desc, raises, view, bound, doomed, rfl, shown, listed, exceeds⟩
  exact (settled object view shown).define_fits (valid.sound object view shown) listed exceeds

/-- Turns that are plain do not overflow. -/
theorem Holds.uninterrupted (holds : realm.Holds chart views) (valid : views.Valid)
    (settled : views.Settled) (lawful : realm.lawful host turns = true)
    (plain : ∀ turn ∈ turns, turn.request.Plain) : realm.uninterrupted host turns = true := by
  induction turns generalizing realm chart views with
  | nil => rfl
  | cons turn rest ih =>
    obtain ⟨first, others⟩ := lawful_cons.mp lawful
    obtain ⟨plainFirst, plainRest⟩ := List.forall_mem_cons.mp plain
    obtain ⟨_, _, held, validLater, settledLater, _⟩ :=
      holds.settled_turn valid settled host first plainFirst
    refine uninterrupted_cons.mpr ⟨?_, ih held validLater settledLater others plainRest⟩
    cases turn with
    | lookUp request => rfl
    | make request =>
      refine decide_eq_false fun stopped => ?_
      rcases holds.stopped valid first stopped with ordinary | ⟨_, next, _, overflows⟩
      · cases ordinary
      · exact settled.not_overflows valid overflows

theorem uninterrupted_ofConfig {config : Config}
    (lawful : (ofConfig config).lawful host turns = true)
    (plain : ∀ turn ∈ turns, turn.request.Plain) :
    (ofConfig config).uninterrupted host turns = true := by
  obtain ⟨chart, holds⟩ := holds_ofConfig config
  exact holds.uninterrupted valid_empty Views.every_empty lawful plain

end Realm

end HiddenClass
