import HiddenClass.Proofs.Checked.Operations
import HiddenClass.Script.Session

/-!
Sessions with their conditions checked where they are carried out. The words of a line are read by
their places, and a text is cut at places that are counted in bytes. What is read in this way is
what is read otherwise, whatever the line.
-/

namespace HiddenClass.Session

variable (crash : Fault)

def insist {α : Type} : Option α → Action α
  | some answer => return answer
  | none => throw (.fault crash)

def sliceChecked (text : List Char) (start stop : Nat) : Action String := do
  return String.ofList (← insist crash (Text.slice? text start stop))

def subtractChecked (m n : Nat) : Action Nat := insist crash (if n ≤ m then some (m - n) else none)

/-- What follows a sign, and what stands between quotes, is cut out of the word. -/
def valueChecked (line : Nat) (word : String) : Action Value := do
  let characters := word.toList
  if characters.head? = some '@' then
    let name ← sliceChecked crash characters 1 (Text.bytes characters)
    return .object (← lookup line name)
  else if word = "undefined" then return .undefined
  else if word = "null" then return .null
  else if word = "true" then return .bool true
  else if word = "false" then return .bool false
  else if 2 ≤ Text.bytes characters && characters.head? = some '"' &&
      characters.getLast? = some '"' then
    let stop ← subtractChecked crash (Text.bytes characters) 1
    return .text (← sliceChecked crash characters 1 stop)
  else
    match Decimal.read characters with
    | some x => return .ofDouble x
    | none => fail line (.badValue word)

def internChecked (name : String) : Action Key := do
  let _ ← insist crash (Key.readIndexChecked? name.toList)
  intern name

def descriptorChecked (line : Nat) (word flags : String) : Action Descriptor := do
  let attributes ← accept line (Script.readFlags flags.toList)
  if word = "-" then return .dataAttributes attributes
  else return .data (← valueChecked crash line word) attributes

def describeKeysChecked (handle : Handle) : Realm.Action String := do
  let keys ← Realm.keysWith (.all crash) handle .all
  let names := (← get).names
  return "[" ++ String.intercalate ", " (keys.map names.describe) ++ "]"

def collectChecked (roots : List Handle) : Action (Option String) := do
  let text ← print do
    return some (describeCensus (← Realm.collectWith (.all crash) roots))
  forget
  return text

def wordChecked (words : List String) (place : Nat) : Action String := insist crash words[place]?

def arity (line : Nat) (words : List String) (command : String) (count : Nat) : Action Unit :=
  if words.length = count + 1 then return () else fail line (.arity command count)

/-- The command is the first word. -/
def readChecked (line : Nat) (words : List String) : Action Script.Command := do
  let command ← wordChecked crash words 0
  match command with
  | "object" =>
    if words.length ≠ 2 && words.length ≠ 3 then arity line words command 1
    return .object (← wordChecked crash words 1) words[2]?
  | "unique" =>
    arity line words command 1
    return .unique (← wordChecked crash words 1)
  | "array" =>
    arity line words command 2
    let size ← wordChecked crash words 2
    accept line (Script.readArray (← wordChecked crash words 1) size)
  | "set" =>
    arity line words command 3
    let target ← wordChecked crash words 1
    let key ← wordChecked crash words 2
    return .set target key (← wordChecked crash words 3)
  | "define" =>
    arity line words command 4
    let target ← wordChecked crash words 1
    let key ← wordChecked crash words 2
    let value ← wordChecked crash words 3
    return .define target key value (← wordChecked crash words 4)
  | "length" =>
    arity line words command 2
    let target ← wordChecked crash words 1
    return .length target (← wordChecked crash words 2)
  | "delete" =>
    arity line words command 2
    let target ← wordChecked crash words 1
    return .delete target (← wordChecked crash words 2)
  | "get" =>
    arity line words command 2
    let target ← wordChecked crash words 1
    return .get target (← wordChecked crash words 2)
  | "keys" =>
    arity line words command 1
    return .keys (← wordChecked crash words 1)
  | "shape" =>
    arity line words command 1
    return .shape (← wordChecked crash words 1)
  | "seal" =>
    arity line words command 1
    return .seal (← wordChecked crash words 1)
  | "gc" =>
    let _ ← subtractChecked crash words.length 1
    return .gc (words.drop 1)
  | other => fail line (.unknownCommand other)

def executeChecked (line : Nat) : Script.Command → Action (Option String)
  | .object name prototype => do
    match prototype with
    | some parent => create name (Realm.newObjectWith (.all crash) (some (← lookup line parent)))
    | none => create name (Realm.newObjectWith (.all crash) none)
  | .unique name => create name (Realm.newUniqueObjectWith (.all crash) none)
  | .array name length => create name (Realm.newArrayWith (.all crash) length)
  | .set target key word => do
    let object ← lookup line target
    let key ← internChecked crash key
    let value ← valueChecked crash line word
    silently (Realm.putWith (.all crash) true Host.none object key value)
  | .define target key word flags => do
    let object ← lookup line target
    let key ← internChecked crash key
    let desc ← descriptorChecked crash line word flags
    silently (Realm.defineWith (.all crash) true object key desc)
  | .length target word => do
    let object ← lookup line target
    let value ← valueChecked crash line word
    silently (Realm.defineWith (.all crash) true object .length (.assignment value))
  | .delete target key => do
    let object ← lookup line target
    let key ← internChecked crash key
    silently (Realm.deleteWith (.all crash) true object key)
  | .get target key => do
    let object ← lookup line target
    let key ← internChecked crash key
    print do return some (← Realm.readWith (.all crash) Host.none object key).display
  | .keys target => do
    let object ← lookup line target
    print do return some (← describeKeysChecked crash object)
  | .shape target => do
    let object ← lookup line target
    print do return some (← describeObject object)
  | .seal target => do
    let object ← lookup line target
    silently (Realm.preventExtensions object)
  | .gc roots => do
    collectChecked crash (← roots.mapM (lookup line))

def runLineChecked (line : Nat) (words : List String) : Action (Option String) := do
  if words.isEmpty then return none
  else executeChecked crash line (← readChecked crash line words)

def followChecked (lines : List (Nat × List String)) : Action (List (Option String)) :=
  lines.mapM fun (line, words) => runLineChecked crash line words

/-- A script run with its conditions checked. Where one of them is not met, it stops at the fault. -/
def runChecked (source : String) : Action (List String) := do
  return (← followChecked crash (Script.linesOf source)).filterMap id

/-! ### Reading -/

variable {crash} {line : Nat}

theorem sliceChecked_eq {text part : List Char} {start stop : Nat}
    (cut : Text.slice? text start stop = some part) :
    sliceChecked crash text start stop = pure (String.ofList part) := by
  unfold sliceChecked
  rw [cut]
  rfl

/-- A word in quotes is its middle with a quote on either side. -/
theorem slice?_quoted {characters : List Char} (long : 2 ≤ characters.length)
    (first : characters.head? = some '"') (last : characters.getLast? = some '"') :
    1 ≤ Text.bytes characters ∧
      Text.slice? characters 1 (Text.bytes characters - 1) = some characters.tail.dropLast := by
  obtain ⟨rest, rfl⟩ : ∃ rest, characters = '"' :: rest := List.head?_eq_some_iff.mp first
  have nonempty : rest ≠ [] := by
    rintro rfl
    exact absurd long (by decide)
  rw [List.getLast?_cons_of_ne_nil nonempty] at last
  obtain ⟨middle, rfl⟩ := List.getLast?_eq_some_iff.mp last
  have size : Text.bytes ('"' :: (middle ++ ['"'])) = 1 + Text.bytes middle + 1 := by
    rw [Text.bytes_cons, Text.bytes_append, ← Nat.add_assoc]
    rfl
  have cut := Text.slice?_append ['"'] middle ['"']
  rw [size, List.tail_cons, List.dropLast_concat, Nat.add_sub_cancel]
  exact ⟨Nat.le_add_left 1 _, cut⟩

/-- The shortest word in quotes has two characters, and two bytes. -/
theorem two_le_bytes_iff {characters : List Char} (first : characters.head? = some '"') :
    2 ≤ Text.bytes characters ↔ 2 ≤ characters.length := by
  obtain ⟨rest, rfl⟩ : ∃ rest, characters = '"' :: rest := List.head?_eq_some_iff.mp first
  have size : Text.bytes ('"' :: rest) = 1 + Text.bytes rest := Text.bytes_cons _ _
  rw [size, List.length_cons]
  cases rest with
  | nil => simp [Text.bytes]
  | cons c further =>
    have positive := c.utf8Size_pos
    rw [Text.bytes_cons, List.length_cons]
    omega

theorem valueChecked_eq (line : Nat) (word : String) :
    valueChecked crash line word = value line word := by
  unfold value
  split
  · rename_i name written
    have cut : Text.slice? ('@' :: name) 1 (Text.bytes ('@' :: name)) = some name :=
      Text.slice?_tail ['@'] name
    unfold valueChecked
    simp only [written, List.head?_cons, if_true, sliceChecked_eq cut, pure_bind]
  · rename_i plain
    have unsigned : word.toList.head? ≠ some '@' := by
      intro signed
      obtain ⟨name, written⟩ := List.head?_eq_some_iff.mp signed
      exact plain name written
    have quoted : (decide (2 ≤ Text.bytes word.toList) && decide (word.toList.head? = some '"') &&
        decide (word.toList.getLast? = some '"')) =
        (decide (2 ≤ word.toList.length) && decide (word.toList.head? = some '"') &&
          decide (word.toList.getLast? = some '"')) := by
      by_cases first : word.toList.head? = some '"'
      · rw [decide_eq_decide.mpr (two_le_bytes_iff first)]
      · simp only [first, decide_false, Bool.and_false, Bool.false_and]
    unfold valueChecked
    dsimp only
    rw [if_neg unsigned, quoted]
    -- the words before the quotes are compared alike on both sides
    iterate 4 refine ite_congr rfl (fun _ => rfl) fun _ => ?_
    refine ite_congr rfl (fun delimited => ?_) fun _ => rfl
    simp only [Bool.and_eq_true, decide_eq_true_eq] at delimited
    obtain ⟨long, cut⟩ := slice?_quoted delimited.1.1 delimited.1.2 delimited.2
    simp only [subtractChecked, if_pos long, insist, pure_bind, sliceChecked_eq cut]

theorem internChecked_eq (name : String) : internChecked crash name = intern name := by
  unfold internChecked
  rw [Key.readIndexChecked?_eq]
  rfl

theorem descriptorChecked_eq (line : Nat) (word flags : String) :
    descriptorChecked crash line word flags = descriptor line word flags := by
  unfold descriptorChecked descriptor
  rw [valueChecked_eq]

theorem readChecked_eq (line : Nat) (command : String) (words : List String) :
    readChecked crash line (command :: words) =
      accept line (Script.Command.read command words) := by
  unfold readChecked
  simp only [wordChecked, insist, List.getElem?_cons_zero, pure_bind]
  split
  case h_13 =>
    unfold Script.Command.read
    split <;> simp_all [accept]
  -- no command has more than four operands, so with five words the count is settled
  all_goals
    rcases words with _ | ⟨first, _ | ⟨second, _ | ⟨third, _ | ⟨fourth, _ | ⟨fifth, rest⟩⟩⟩⟩⟩ <;>
      rfl

end HiddenClass.Session
