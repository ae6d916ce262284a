import HiddenClass.Proofs.Checked.Session

/-!
Scripts are safe. Whatever a script says, it comes to its end or stops at an error of its own, and
all conditions are met on the way: nothing is read or written where there is nothing, and no number
outgrows its type. After each line, and after any collections that follow it, every variable names a
live object, and prototypes are live and lead back to no object.
-/

namespace HiddenClass

section Ancestors

variable {realm : Realm} {chart : Chart} {views : Realm.Views} {age : Handle → Nat}
  {object prototype ancestor : Handle}

/-- A prototype is live, and older. -/
theorem Realm.Holds.inherits (holds : realm.Holds chart views) (valid : views.Valid)
    (aged : views.Aged age) (link : realm.Inherits object prototype) :
    views.Live prototype ∧ age prototype < age object := by
  obtain ⟨cell, found, linked⟩ := link
  obtain ⟨view, shown, held⟩ := holds.view object cell found
  have inherited := held.prototype.symm.trans linked
  exact ⟨valid.prototype object view shown prototype inherited,
    aged object view shown prototype inherited⟩

/-- Ages go down along a chain. -/
theorem Realm.Holds.inherits_along (holds : realm.Holds chart views) (valid : views.Valid)
    (aged : views.Aged age) (chain : Relation.TransGen realm.Inherits object ancestor) :
    views.Live ancestor ∧ age ancestor < age object := by
  induction chain with
  | single link => exact holds.inherits valid aged link
  | tail _ link ih =>
    obtain ⟨live, older⟩ := holds.inherits valid aged link
    exact ⟨live, older.trans ih.2⟩

end Ancestors

namespace Session

/-- Variables name live objects. The prototypes of an object, near and far, are live and are not the
object itself. -/
structure WellFormed (session : Session) : Prop where
  bound : ∀ entry ∈ session.bindings, session.realm.objects.contains entry.2 = true
  chain : ∀ object ancestor, Relation.TransGen session.realm.Inherits object ancestor →
    session.realm.objects.contains ancestor = true ∧ ancestor ≠ object

/-- The line of a collection that keeps what some variables name. -/
def sweep (names : List String) : Nat × List String := (0, "gc" :: names)

variable {session : Session}

theorem Sound.wellFormed (sound : session.Sound) : session.WellFormed := by
  obtain ⟨chart, views, holds, valid, _, age, aged⟩ := sound.stands
  refine ⟨sound.bound, fun object ancestor chain => ?_⟩
  obtain ⟨live, older⟩ := holds.inherits_along valid aged chain
  refine ⟨holds.live_iff.mp live, ?_⟩
  rintro rfl
  exact Nat.lt_irrefl _ older

theorem sound_ofConfig (config : Config) : (ofConfig config).Sound where
  stands := Realm.standing_ofConfig config
  slim := by
    -- both roots are without slots
    have none : (Shapes.ofCapacity config.initialSlotCapacity).Slim :=
      fun _ _ found => absurd found.symm (Option.some_ne_none _)
    have empty : ∀ id, (Shape.root id).isUnique = false →
        (Shape.root id).size ≤ (Shape.root id).serial := fun id _ => Nat.zero_le id
    have first := none.alloc Arena.sound_empty 1 (empty 0)
    exact first.alloc (Arena.sound_alloc Arena.sound_empty _) 2 (empty 1)
  bound := fun _ member => by cases member

theorem Ended.cases {α : Type} {good : α → Session → Prop} {action : Action α}
    (ended : Ended good (action session)) :
    ∃ after : Session, ((∃ answer, action session = .ok answer after) ∨
      ∃ error, action session = .error (.error error) after) ∧ after.Sound := by
  generalize action session = result at ended ⊢
  cases ended with
  | ok sound holds => exact ⟨_, Or.inl ⟨_, rfl⟩, sound⟩
  | error sound => exact ⟨_, Or.inr ⟨_, rfl⟩, sound⟩

/-- A script never crashes. It comes to its end or to an error in the script, its conditions are met
as long as there are fewer identities than words, and whatever lines of it have been executed, with
any collections after them, have left a session that is well formed. -/
theorem run_secure (config : Config) (source : String) :
    ((∃ output after, run source (ofConfig config) = .ok output after) ∨
      ∃ error after, run source (ofConfig config) = .error (.error error) after) ∧
    ((final (run source) (ofConfig config)).realm.shapes.issued ≤ Config.wordMax →
      ∀ crash, runChecked crash source (ofConfig config) = run source (ofConfig config)) ∧
    ∀ executed, executed <+: Script.linesOf source → ∀ sweeps : List (List String),
      ∃ after : Session,
        ((∃ output, follow (executed ++ sweeps.map sweep) (ofConfig config) = .ok output after) ∨
          ∃ error, follow (executed ++ sweeps.map sweep) (ofConfig config) =
            .error (.error error) after) ∧
        after.WellFormed := by
  have sound := sound_ofConfig config
  have secure (crash : Fault) :
      Secure (runChecked crash source) (run source) (ofConfig config) fun _ _ => True :=
    sound.run source
  refine ⟨?_, fun few crash => (secure crash).same few, fun executed _ sweeps => ?_⟩
  · obtain ⟨after, ⟨output, ran⟩ | ⟨error, ran⟩, _⟩ := (secure .tooDeep).ended.cases
    · exact Or.inl ⟨output, after, ran⟩
    · exact Or.inr ⟨error, after, ran⟩
  · have followed : Secure (followChecked .tooDeep (executed ++ sweeps.map sweep))
        (follow (executed ++ sweeps.map sweep)) (ofConfig config) fun _ _ => True :=
      sound.follow _
    obtain ⟨after, ends, soundAfter⟩ := followed.ended.cases
    exact ⟨after, ends, soundAfter.wellFormed⟩

/-- Limits so low that a short script meets them. -/
def narrow : Config := { maxVectorSize := 4, shrinkScanThreshold := 2, initialSlotCapacity := 1 }

/-- An array is cut short and stays sparse, an heir and its base are read and written, and a variable is
asked for after its object is gone. -/
def trial : String :=
  "object base\nset base x 1\nobject child base # an heir\nset child y 2\n" ++
  "define child z \"text\" -\ndelete child y\narray list 4\nset list 2 @child\n" ++
  "define list 9 - w\nlength list \"0x3\"\nseal child\nset child w 5\nget child x\n" ++
  "keys list\nshape list\nunique u\nset u a 1\ngc list\nget u a"

theorem run_secure_trial :
    ((final (run trial) (ofConfig narrow)).realm.shapes.issued ≤ Config.wordMax ∧
      ∀ crash, runChecked crash trial (ofConfig narrow) = run trial (ofConfig narrow)) ∧
    (Script.linesOf trial).take 18 <+: Script.linesOf trial ∧
    ∃ after : Session,
      ((∃ output, follow ((Script.linesOf trial).take 18 ++ [["list", "base"], []].map sweep)
          (ofConfig narrow) = .ok output after) ∨
        ∃ error, follow ((Script.linesOf trial).take 18 ++ [["list", "base"], []].map sweep)
          (ofConfig narrow) = .error (.error error) after) ∧
      after.WellFormed := by
  have few : (final (run trial) (ofConfig narrow)).realm.shapes.issued ≤ Config.wordMax := by
    decide +kernel
  have begun : (Script.linesOf trial).take 18 <+: Script.linesOf trial := List.take_prefix _ _
  obtain ⟨_, same, visited⟩ := run_secure narrow trial
  exact ⟨⟨few, same few⟩, begun, visited _ begun _⟩

end Session

end HiddenClass
