import HiddenClass.Proofs.Checked.Script
import HiddenClass.Proofs.Checked.Standing
import HiddenClass.Proofs.Names
import Mathlib.Logic.Relation

/-!
No script brings a session down. Whatever its lines are, it comes to its end or stops at an error of
its own, all conditions are met on the way, and every variable names a live object, all of whose
prototypes are live and other than itself.
-/

namespace HiddenClass

open HiddenClass.Action (Passes)

variable {α β : Type}

/-- A text is interned to an array index or a name. -/
theorem Names.interned_intern (names : Names) (text : String) : (names.intern text).2.Interned := by
  unfold Names.intern
  cases read : Key.readIndex text.toList with
  | some n => exact Key.readIndex_lt read
  | none =>
    dsimp only
    split <;> trivial

/-- The table of names is no part of what a realm shows. -/
theorem Realm.Standing.withNames {realm : Realm} (stands : realm.Standing) (names : Names) :
    Standing { realm with names } := by
  obtain ⟨chart, views, holds, rest⟩ := stands
  exact ⟨chart, views, ⟨holds.shapes, holds.sound, holds.view, holds.gone, holds.apart,
    holds.objectRoot, holds.arrayRoot⟩, rest⟩

theorem Script.readWord_lt {text : List Char} {n : Nat} (read : readWord text = some n) :
    n < 4294967296 := by
  unfold readWord at read
  extract_lets digits at read
  by_cases odd : (digits.isEmpty || !digits.all Char.isDigit) = true
  · rw [if_pos odd] at read
    cases read
  · rw [if_neg odd] at read
    obtain ⟨small, same⟩ := Option.ite_none_right_eq_some.mp read
    exact Option.some.inj same ▸ Nat.lt_succ_of_le small

namespace Script.Command

/-- The length of a new array is a word. -/
def Fits : Command → Prop
  | .array _ size => size < 4294967296
  | _ => True

theorem fits_of_read {command : String} {words : List String} {commanded : Command}
    (ran : read command words = .ok commanded) : commanded.Fits := by
  unfold read at ran
  split at ran
  case h_6 name size =>
    unfold readArray at ran
    cases word : readWord size.toList with
    | none =>
      rw [word] at ran
      cases ran
    | some length =>
      rw [word] at ran
      cases ran
      exact readWord_lt word
  all_goals cases ran <;> trivial

end Script.Command

namespace Session

def ofConfig (config : Config) : Session := { realm := .ofConfig config }

/-- Lines run one after the other. -/
def follow (lines : List (Nat × List String)) : Action (List (Option String)) :=
  lines.mapM fun (line, words) => runLine line words

/-- The session after an action, reached or not its end. -/
def final (action : Action α) (session : Session) : Session :=
  match action session with
  | .ok _ after => after
  | .error _ after => after

/-- The realm stands, its shapes are slim, and variables name live objects. -/
structure Sound (session : Session) : Prop where
  stands : session.realm.Standing
  slim : session.realm.shapes.Slim
  bound : ∀ entry ∈ session.bindings, session.realm.objects.contains entry.2 = true

/-- An answer of which something is true, or an error in the script. The session is sound. -/
inductive Ended (good : α → Session → Prop) : EStateM.Result Stop Session α → Prop where
  | ok {answer : α} {after : Session} (sound : after.Sound) (holds : good answer after) :
    Ended good (.ok answer after)
  | error {error : Script.Error} {after : Session} (sound : after.Sound) :
    Ended good (.error (.error error) after)

/-- The action ends well, and does the same with its conditions checked as long as there are fewer
identities than words. -/
structure Secure (checked action : Action α) (session : Session) (good : α → Session → Prop) :
    Prop where
  ended : Ended good (action session)
  issued : session.realm.shapes.issued ≤ (final action session).realm.shapes.issued
  same : (final action session).realm.shapes.issued ≤ Config.wordMax →
    checked session = action session

variable {checked action : Action α} {checkedNext next : α → Action β} {session after : Session}
  {good : α → Session → Prop} {further : β → Session → Prop} {answer : α} {crash : Fault}
  {handle : Handle} {line : Nat} {name word : String}

theorem bind_apply (action : Action α) (next : α → Action β) (session : Session) :
    (action >>= next) session =
      match action session with
      | .ok answer after => next answer after
      | .error stop after => .error stop after := by
  change EStateM.bind action next session = _
  unfold EStateM.bind
  cases action session <;> rfl

namespace Secure

theorem of_answer (ran : action session = .ok answer after) (sound : after.Sound)
    (holds : good answer after)
    (issued : session.realm.shapes.issued ≤ after.realm.shapes.issued)
    (same : after.realm.shapes.issued ≤ Config.wordMax → checked session = action session) :
    Secure checked action session good := by
  have reached : final action session = after := by
    unfold final
    rw [ran]
  refine ⟨?_, ?_, ?_⟩
  · rw [ran]
    exact .ok sound holds
  · rw [reached]
    exact issued
  · rw [reached]
    exact same

/-- An action without a check that answers and leaves the shapes as they are. -/
theorem of_ok (ran : action session = .ok answer after) (sound : after.Sound)
    (holds : good answer after) (shapes : after.realm.shapes = session.realm.shapes) :
    Secure action action session good :=
  of_answer ran sound holds (by rw [shapes]) fun _ => rfl

theorem pure (sound : session.Sound) (holds : good answer session) :
    Secure (pure answer) (pure answer) session good :=
  of_ok rfl sound holds rfl

theorem fail (sound : session.Sound) (line : Nat) (cause : Script.Cause) :
    Secure (Session.fail line cause) (Session.fail line cause) session good :=
  ⟨.error sound, Nat.le_refl _, fun _ => rfl⟩

theorem bind (first : Secure checked action session good)
    (second : ∀ answer later, later.Sound → good answer later →
      Secure (checkedNext answer) (next answer) later further) :
    Secure (checked >>= checkedNext) (action >>= next) session further := by
  obtain ⟨ended, issued, same⟩ := first
  unfold final at issued same
  cases ran : action session with
  | ok answer later =>
    rw [ran] at ended issued same
    cases ended with
    | ok sound holds =>
      have rest := second answer later sound holds
      have reached : final (action >>= next) session = final (next answer) later := by
        unfold final
        rw [bind_apply, ran]
      refine ⟨?_, ?_, fun few => ?_⟩
      · rw [bind_apply, ran]
        exact rest.ended
      · rw [reached]
        exact issued.trans rest.issued
      · rw [reached] at few
        rw [bind_apply, bind_apply, same (rest.issued.trans few), ran]
        exact rest.same few
  | error stop later =>
    rw [ran] at ended issued same
    have stopped : (action >>= next) session = .error stop later := by rw [bind_apply, ran]
    cases ended with
    | error sound =>
      refine ⟨?_, ?_, fun few => ?_⟩
      · rw [stopped]
        exact .error sound
      · unfold final
        rw [stopped]
        exact issued
      · unfold final at few
        rw [stopped] at few ⊢
        rw [bind_apply, same few]

/-- After a look at the session the next action starts where the first one did. -/
theorem reads {seen : α → Prop}
    (first : Secure checked action session fun answer after => after = session ∧ seen answer)
    (second : ∀ answer, seen answer →
      Secure (checkedNext answer) (next answer) session further) :
    Secure (checked >>= checkedNext) (action >>= next) session further := by
  refine first.bind fun answer later _ found => ?_
  rw [found.1]
  exact second answer found.2

end Secure

/-! ### Asking the realm -/

theorem attempt_congr {checked action : Realm.Action α}
    (same : checked session.realm = action session.realm) :
    attempt checked session = attempt action session := by
  unfold attempt
  rw [same]

theorem attempt_apply {action : Realm.Action α} {reply : Except Error α} {realm : Realm}
    (ran : action session.realm = Action.settled (reply.mapError .error) realm) :
    attempt action session = .ok reply { session with realm } := by
  unfold attempt
  rw [ran]
  cases reply <;> rfl

namespace Sound

variable (sound : session.Sound)
include sound

/-- A realm that has all the objects of the first may take its place. -/
theorem withRealm {realm : Realm} (reaches : session.realm.Reaches realm)
    (slim : realm.shapes.Slim) : Sound { session with realm } :=
  ⟨reaches.stands, slim, fun entry member => reaches.kept entry.2 (sound.bound entry member)⟩

theorem attempt {checked action : Realm.Action α} {reply : Except Error α} {realm : Realm}
    {good : Except Error α → Session → Prop}
    (passes : Passes true Realm.shapes checked action session.realm)
    (ran : action session.realm = Action.settled (reply.mapError .error) realm)
    (reaches : session.realm.Reaches realm) (holds : good reply { session with realm }) :
    Secure (attempt checked) (attempt action) session good := by
  have final := Action.final_settled ran
  have counts := passes.counts rfl
  have same := passes.same
  rw [final] at counts same
  have slim := counts.slim sound.slim
  exact Secure.of_answer (attempt_apply ran) (sound.withRealm reaches slim) holds counts.issued
    fun few => attempt_congr (same fun _ => ⟨sound.slim, few⟩)

theorem print {checked action : Realm.Action (Option String)}
    (proceeds : session.realm.Proceeds checked action) :
    Secure (print checked) (print action) session fun _ _ => True := by
  obtain ⟨reply, realm, ran, reaches⟩ := proceeds.ends
  have asked : Secure (Session.attempt checked) (Session.attempt action) session fun _ _ => True :=
    sound.attempt proceeds.passes ran reaches trivial
  refine asked.bind fun reply later soundLater _ => ?_
  cases reply <;> exact Secure.pure soundLater trivial

theorem silently {checked action : Realm.Action α} (proceeds : session.realm.Proceeds checked action) :
    Secure (silently checked) (silently action) session fun _ _ => True :=
  sound.print (proceeds.map fun _ => none)

theorem assign (live : session.realm.objects.contains handle = true) (name : String) :
    Secure (assign name handle) (assign name handle) session fun _ _ => True := by
  refine Secure.of_ok rfl ⟨sound.stands, sound.slim, fun entry member => ?_⟩ trivial rfl
  rcases List.mem_cons.mp member with rfl | listed
  · exact live
  · exact sound.bound entry (List.mem_of_mem_filter listed)

theorem create {checked action : Realm.Action Handle} (makes : session.realm.Makes checked action)
    (name : String) :
    Secure (create name checked) (create name action) session fun _ _ => True := by
  obtain ⟨handle, realm, ran, reaches, live⟩ := makes.ends
  have settled : action session.realm =
      Action.settled ((Except.ok handle : Except Error Handle).mapError .error) realm := ran
  have asked : Secure (Session.attempt checked) (Session.attempt action) session fun reply after =>
      reply = .ok handle ∧ after.realm.objects.contains handle = true :=
    sound.attempt makes.passes settled reaches ⟨rfl, live⟩
  refine asked.bind ?_
  rintro _ later soundLater ⟨rfl, present⟩
  exact (soundLater.assign present name).bind fun _ _ named _ => Secure.pure named trivial

/-! ### Reading -/

theorem lookup (line : Nat) (name : String) :
    Secure (lookup line name) (lookup line name) session fun handle after =>
      after = session ∧ session.realm.objects.contains handle = true := by
  have look : Secure get get session fun here after => after = session ∧ here = session :=
    Secure.of_ok rfl sound ⟨rfl, rfl⟩ rfl
  refine look.reads fun here same => ?_
  rw [same]
  cases found : session.bindings.lookup name with
  | none => exact Secure.fail sound line _
  | some handle =>
    obtain ⟨front, back, split, _⟩ := List.lookup_eq_some_iff.mp found
    have listed : (name, handle) ∈ session.bindings := split ▸ List.mem_append_right front
      (List.mem_cons_self ..)
    exact Secure.pure sound ⟨rfl, sound.bound _ listed⟩

theorem value (line : Nat) (word : String) :
    Secure (value line word) (value line word) session fun value after =>
      after = session ∧ session.realm.Holdable value := by
  have plain : ∀ value : Value, value.Solid → value.handles = [] →
      Secure (pure value) (pure value) session fun value after =>
        after = session ∧ session.realm.Holdable value := by
    intro value solid none
    refine Secure.pure sound ⟨rfl, solid, fun handle member => ?_⟩
    rw [none] at member
    cases member
  unfold Session.value
  split
  · refine (sound.lookup line _).reads fun handle live => ?_
    refine Secure.pure sound ⟨rfl, Value.noConfusion, fun target member => ?_⟩
    exact List.mem_singleton.mp member ▸ live
  · split
    · exact plain .undefined Value.noConfusion rfl
    · split
      · exact plain .null Value.noConfusion rfl
      · split
        · exact plain (.bool true) Value.noConfusion rfl
        · split
          · exact plain (.bool false) Value.noConfusion rfl
          · split
            · exact plain (.text _) Value.noConfusion rfl
            · cases Decimal.read word.toList with
              | none => exact Secure.fail sound line _
              | some x =>
                refine plain (.ofDouble x) ?_ ?_
                · unfold Value.ofDouble
                  split
                  · split <;> exact Value.noConfusion
                  · exact Value.noConfusion
                · unfold Value.ofDouble
                  split
                  · split <;> rfl
                  · rfl

theorem intern (name : String) :
    Secure (intern name) (intern name) session fun key after =>
      key.Interned ∧ after.realm.objects = session.realm.objects :=
  Secure.of_ok rfl ⟨sound.stands.withNames _, sound.slim, sound.bound⟩
    ⟨Names.interned_intern session.realm.names name, rfl⟩ rfl

theorem accept (line : Nat) (result : Except Script.Cause α) :
    Secure (accept line result) (accept line result) session fun answer after =>
      after = session ∧ result = .ok answer := by
  cases result with
  | ok answer => exact Secure.pure sound ⟨rfl, rfl⟩
  | error cause => exact Secure.fail sound line cause

theorem descriptor (line : Nat) (word flags : String) :
    Secure (descriptor line word flags) (descriptor line word flags) session fun desc after =>
      after = session ∧ desc.All session.realm.Holdable := by
  refine (sound.accept line _).reads fun attributes _ => ?_
  split
  · have bare := session.realm.holdable_undefined
    exact Secure.pure sound ⟨rfl, bare, bare, bare⟩
  · refine (sound.value line word).reads fun value given => ?_
    exact Secure.pure sound ⟨rfl, given.data attributes⟩

/-- The object that a command is about, and the key. -/
theorem target (line : Nat) (name key : String) {checked action : Handle → Key → Action α}
    (rest : ∀ handle key later, later.Sound → later.realm.objects.contains handle = true →
      key.Interned → Secure (checked handle key) (action handle key) later good) :
    Secure
      (do
        let handle ← Session.lookup line name
        let key ← internChecked crash key
        checked handle key)
      (do
        let handle ← Session.lookup line name
        let key ← Session.intern key
        action handle key)
      session good := by
  refine (sound.lookup line name).reads fun handle live => ?_
  rw [internChecked_eq]
  refine (sound.intern key).bind fun key later soundLater interned => ?_
  refine rest handle key later soundLater ?_ interned.1
  rw [interned.2]
  exact live

theorem describeKeys (live : session.realm.objects.contains handle = true) :
    session.realm.Proceeds (describeKeysChecked crash handle) (describeKeys handle) := by
  refine (sound.stands.keys live .all).bind fun keys later _ reaches => ?_
  exact reaches.stands.proceeds_of_ok rfl

theorem describeObject (live : session.realm.objects.contains handle = true) :
    session.realm.Proceeds (describeObject handle) (describeObject handle) := by
  obtain ⟨object, shape, found, fetched⟩ := sound.stands.fetch live
  have ran : ∃ text, Session.describeObject handle session.realm =
      .ok text session.realm := by
    unfold Session.describeObject
    rw [HiddenClass.Action.bind_ok found, HiddenClass.Action.bind_ok fetched]
    cases object.elements? with
    | none => exact ⟨_, rfl⟩
    | some elements => exact ⟨_, rfl⟩
  obtain ⟨text, ran⟩ := ran
  exact sound.stands.proceeds_of_ok ran

/-! ### Collecting -/

theorem lookups (line : Nat) (names : List String) :
    Secure (names.mapM (Session.lookup line)) (names.mapM (Session.lookup line)) session
      fun handles after => after = session ∧
        ∀ handle ∈ handles, session.realm.objects.contains handle = true := by
  induction names with
  | nil => exact Secure.pure sound ⟨rfl, fun _ member => by cases member⟩
  | cons name rest ih =>
    rw [List.mapM_cons]
    refine (sound.lookup line name).reads fun handle live => ?_
    refine ih.reads fun handles listed => Secure.pure sound ⟨rfl, ?_⟩
    exact List.forall_mem_cons.mpr ⟨live, listed⟩

/-- The variables whose objects are gone are forgotten at once. -/
theorem collect {roots : List Handle}
    (live : ∀ root ∈ roots, session.realm.objects.contains root = true) :
    Secure (collectChecked crash roots) (collect roots) session fun _ _ => True := by
  obtain ⟨passes, census, realm, ran, stands⟩ := sound.stands.collect live
  let told (action : Realm.Action Census) : Realm.Action (Option String) :=
    do return some (describeCensus (← action))
  have passesTold : Passes true Realm.shapes (told (Realm.collectWith (.all crash) roots))
      (told (Realm.collect roots)) session.realm :=
    passes.bind fun _ _ _ => Action.passes_pure _
  have ranTold : told (Realm.collect roots) session.realm =
      Action.settled ((Except.ok (some (describeCensus census)) :
        Except Error (Option String)).mapError .error) realm := Action.bind_ok ran _
  have final := Action.final_settled ranTold
  have counts := passesTold.counts rfl
  have same := passesTold.same
  rw [final] at counts same
  have slim := counts.slim sound.slim
  let after : Session :=
    { realm, bindings := session.bindings.filter fun entry => realm.objects.contains entry.2 }
  have printed : Session.print (told (Realm.collect roots)) session =
      .ok (some (describeCensus census)) { session with realm } := by
    unfold Session.print
    rw [bind_apply, attempt_apply ranTold]
    rfl
  have collected : Session.collect roots session = .ok (some (describeCensus census)) after := by
    change (Session.print (told (Realm.collect roots)) >>= fun text => _) session = _
    rw [bind_apply, printed]
    rfl
  have gone : after.Sound := ⟨stands, slim, fun entry member => (List.mem_filter.mp member).2⟩
  refine Secure.of_answer collected gone trivial counts.issued fun few => ?_
  have alike : Session.print (told (Realm.collectWith (.all crash) roots)) session =
      Session.print (told (Realm.collect roots)) session := by
    unfold Session.print
    rw [bind_apply, bind_apply, attempt_congr (same fun _ => ⟨sound.slim, few⟩)]
  change (Session.print (told (Realm.collectWith (.all crash) roots)) >>= fun text => _) session =
    (Session.print (told (Realm.collect roots)) >>= fun text => _) session
  rw [bind_apply, bind_apply, alike]

/-! ### Commands -/

theorem execute (line : Nat) {command : Script.Command} (fits : command.Fits) :
    Secure (executeChecked crash line command) (execute line command) session fun _ _ => True := by
  cases command with
  | object name prototype =>
    cases prototype with
    | none => exact sound.create (sound.stands.newObject fun _ member => by cases member) name
    | some parent =>
      refine (sound.lookup line parent).reads fun handle live => ?_
      refine sound.create (sound.stands.newObject fun target member => ?_) name
      exact List.mem_singleton.mp member ▸ live
  | unique name => exact sound.create sound.stands.newUniqueObject name
  | array name length => exact sound.create (sound.stands.newArray fits) name
  | set target key word =>
    refine sound.target line target key fun handle key later soundLater live interned => ?_
    rw [valueChecked_eq]
    refine (soundLater.value line word).reads fun value given => ?_
    exact soundLater.silently (soundLater.stands.put live interned given true)
  | define target key word flags =>
    refine sound.target line target key fun handle key later soundLater live interned => ?_
    rw [descriptorChecked_eq]
    refine (soundLater.descriptor line word flags).reads fun desc given => ?_
    exact soundLater.silently (soundLater.stands.define live interned given true)
  | length target word =>
    refine (sound.lookup line target).reads fun handle live => ?_
    rw [valueChecked_eq]
    refine (sound.value line word).reads fun value given => ?_
    have named : Key.length.Interned := trivial
    exact sound.silently (sound.stands.define live named (given.data _) true)
  | delete target key =>
    refine sound.target line target key fun handle key later soundLater live interned => ?_
    exact soundLater.silently (soundLater.stands.delete live interned true)
  | get target key =>
    refine sound.target line target key fun handle key later soundLater live interned => ?_
    exact soundLater.print ((soundLater.stands.read live key).map fun value => some value.display)
  | keys target =>
    refine (sound.lookup line target).reads fun handle live => ?_
    exact sound.print ((sound.describeKeys live).map some)
  | shape target =>
    refine (sound.lookup line target).reads fun handle live => ?_
    exact sound.print ((sound.describeObject live).map some)
  | «seal» target =>
    refine (sound.lookup line target).reads fun handle live => ?_
    exact sound.silently (sound.stands.preventExtensions live)
  | gc roots => exact (sound.lookups line roots).reads fun handles live => sound.collect live

theorem runLine (line : Nat) (words : List String) :
    Secure (runLineChecked crash line words) (runLine line words) session fun _ _ => True := by
  cases words with
  | nil => exact Secure.pure sound trivial
  | cons command words =>
    unfold runLineChecked Session.runLine
    rw [if_neg (by simp), readChecked_eq]
    refine (sound.accept line _).reads fun commanded read => ?_
    exact sound.execute line (Script.Command.fits_of_read read)

theorem follow (lines : List (Nat × List String)) :
    Secure (followChecked crash lines) (follow lines) session fun _ _ => True := by
  induction lines generalizing session with
  | nil => exact Secure.pure sound trivial
  | cons first rest ih =>
    unfold followChecked Session.follow
    rw [List.mapM_cons, List.mapM_cons]
    refine (sound.runLine first.1 first.2).bind fun _ after soundAfter _ => ?_
    exact (ih soundAfter).bind fun _ later soundLater _ => Secure.pure soundLater trivial

theorem run (source : String) :
    Secure (runChecked crash source) (run source) session fun _ _ => True :=
  (sound.follow (Script.linesOf source)).bind fun _ _ soundAfter _ =>
    Secure.pure soundAfter trivial

end Sound

end Session

end HiddenClass
