import HiddenClass.Realm.Access
import HiddenClass.Realm.Collect
import HiddenClass.Script.Command

/-!
Scripts run in a session, which names objects by variables. An error of an operation is a line of
output; an error in the script ends it, and what was done before it stays done.
-/

namespace HiddenClass

structure Session where
  realm : Realm
  bindings : List (String × Handle) := []
deriving Repr

namespace Session

/-- Why a script does not come to its end. -/
inductive Stop where
  | error (error : Script.Error)
  | fault (fault : Fault)
deriving DecidableEq, Repr

abbrev Action := EStateM Stop Session

def fail {α : Type} (line : Nat) (cause : Script.Cause) : Action α :=
  throw (.error { line, cause })

def accept {α : Type} (line : Nat) : Except Script.Cause α → Action α
  | .ok answer => return answer
  | .error cause => fail line cause

/-- Runs an action on the realm, with its errors as answers. -/
def attempt {α : Type} (action : Realm.Action α) : Action (Except Error α) := fun session =>
  match action session.realm with
  | .ok answer realm => .ok (.ok answer) { session with realm }
  | .error (.error error) realm => .ok (.error error) { session with realm }
  | .error fault realm => .error (.fault fault) { session with realm }

/-- Runs an action on the realm that has a line of output at most. -/
def print (action : Realm.Action (Option String)) : Action (Option String) := do
  match ← attempt action with
  | .ok text => return text
  | .error error => return some ("! " ++ error.display)

def silently {α : Type} (action : Realm.Action α) : Action (Option String) :=
  print do
    let _ ← action
    return none

def assign (name : String) (handle : Handle) : Action Unit :=
  modify fun session =>
    { session with
      bindings := (name, handle) :: session.bindings.filter fun entry => entry.1 ≠ name }

def lookup (line : Nat) (name : String) : Action Handle := do
  match (← get).bindings.lookup name with
  | some handle => return handle
  | none => fail line (.unknownVariable name)

/-- Makes an object and names it. -/
def create (name : String) (action : Realm.Action Handle) : Action (Option String) := do
  match ← attempt action with
  | .ok handle =>
    assign name handle
    return none
  | .error error => return some ("! " ++ error.display)

/-- A value is a keyword, a variable, a text in double quotes or a number. -/
def value (line : Nat) (word : String) : Action Value := do
  match word.toList with
  | '@' :: name => return .object (← lookup line (String.ofList name))
  | characters =>
    if word = "undefined" then return .undefined
    else if word = "null" then return .null
    else if word = "true" then return .bool true
    else if word = "false" then return .bool false
    else if 2 ≤ characters.length && characters.head? = some '"' && characters.getLast? = some '"'
    then return .text (String.ofList characters.tail.dropLast)
    else
      match Decimal.read characters with
      | some x => return .ofDouble x
      | none => fail line (.badValue word)

def intern (name : String) : Action Key :=
  modifyGet fun session =>
    let (names, key) := session.realm.names.intern name
    (key, { session with realm := { session.realm with names } })

/-- A dash in place of the value leaves the value out. -/
def descriptor (line : Nat) (word flags : String) : Action Descriptor := do
  let attributes ← accept line (Script.readFlags flags.toList)
  if word = "-" then return .dataAttributes attributes
  else return .data (← value line word) attributes

def describeShape (shape : Shape) : String :=
  let sharing := if shape.isUnique then "unique" else "shared"
  s!"structure #{shape.id} {sharing} slots={shape.size} transitions={shape.childCount}"

def describeElements (elements : Elements) : String :=
  let density := if elements.dense then "dense" else "sparse"
  s!" length={elements.length} {density}"

def describeObject (handle : Handle) : Realm.Action String := do
  let object ← Realm.fetch handle
  let shape ← Realm.onShapes (Shapes.fetch object.store.shape)
  match object.elements? with
  | some elements => return describeShape shape ++ describeElements elements
  | none => return describeShape shape

def describeKeys (handle : Handle) : Realm.Action String := do
  let keys ← Realm.keys handle .all
  let names := (← get).names
  return "[" ++ String.intercalate ", " (keys.map names.describe) ++ "]"

def describeCensus (census : Census) : String :=
  s!"objects: {census.liveObjects} live, {census.freedObjects} freed; " ++
    s!"structures: {census.liveShapes} live, {census.freedShapes} freed"

/-- Variables whose objects are gone are forgotten. -/
def forget : Action Unit :=
  modify fun session =>
    { session with
      bindings := session.bindings.filter fun entry =>
        session.realm.objects.contains entry.2 }

def collect (roots : List Handle) : Action (Option String) := do
  let text ← print do
    return some (describeCensus (← Realm.collect roots))
  forget
  return text

def execute (line : Nat) : Script.Command → Action (Option String)
  | .object name prototype => do
    match prototype with
    | some parent => create name (Realm.newObject (some (← lookup line parent)))
    | none => create name (Realm.newObject none)
  | .unique name => create name (Realm.newUniqueObject none)
  | .array name length => create name (Realm.newArray length)
  | .set target key word => do
    let object ← lookup line target
    let key ← intern key
    let value ← value line word
    silently (Realm.put Host.none object key value true)
  | .define target key word flags => do
    let object ← lookup line target
    let key ← intern key
    let desc ← descriptor line word flags
    silently (Realm.define object key desc true)
  | .length target word => do
    let object ← lookup line target
    let value ← value line word
    silently (Realm.define object .length (.assignment value) true)
  | .delete target key => do
    let object ← lookup line target
    let key ← intern key
    silently (Realm.delete object key true)
  | .get target key => do
    let object ← lookup line target
    let key ← intern key
    print do return some (← Realm.read Host.none object key).display
  | .keys target => do
    let object ← lookup line target
    print do return some (← describeKeys object)
  | .shape target => do
    let object ← lookup line target
    print do return some (← describeObject object)
  | .seal target => do
    let object ← lookup line target
    silently (Realm.preventExtensions object)
  | .gc roots => do
    collect (← roots.mapM (lookup line))

/-- A line without words does nothing. -/
def runLine (line : Nat) : List String → Action (Option String)
  | [] => return none
  | command :: words => do execute line (← accept line (Script.Command.read command words))

/-- The output of a script, line by line. -/
def run (source : String) : Action (List String) := do
  let output ← (Script.linesOf source).mapM fun (line, words) => runLine line words
  return output.filterMap id

end Session

end HiddenClass
