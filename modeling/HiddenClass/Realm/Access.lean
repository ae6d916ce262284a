import HiddenClass.Host.Basic

/-!
Property access along the prototype chain: the nearest property with a key governs reading and
assignment. Accessors are called through a host, which gives the native functions their meaning.
-/

namespace HiddenClass.Realm

/-- Searches a prototype chain, which has to end within `bound` objects. -/
def search (key : Key) : Nat → Handle → Action (Option Descriptor)
  | 0, _ => throw .endless
  | bound + 1, holder => do
    match ← getOwn holder key with
    | some desc => return some desc
    | none =>
      match (← fetch holder).prototype with
      | some prototype => search key bound prototype
      | none => return none

/-- The own or nearest inherited property. A chain with more objects than there are places for leads
back to one of them, and the search would go around for ever. -/
def getProperty (handle : Handle) (key : Key) : Action (Option Descriptor) := do
  search key ((← get).objects.capacity + 1) handle

def call (host : Host) (accessor receiver : Value) (arguments : List Value) : Action Value :=
  match accessor with
  | .undefined => return .undefined
  | .native function => host function receiver arguments
  | other => throw (.error (.notCallable other))

def read (host : Host) (handle : Handle) (key : Key) : Action Value := do
  match ← getProperty handle key with
  | none => return .undefined
  | some desc =>
    if desc.isAccessor then call host desc.getter (.object handle) []
    else return desc.value

/-- What an assignment does. -/
inductive Assignment where
  | refused
  | setter (function : Value)
  /-- Changes the value of an own data property. -/
  | overwrite
  /-- Adds an own property. -/
  | create
deriving DecidableEq, Repr

def Assignment.ofSetter (setter : Value) : Assignment :=
  if setter.isUndefined then .refused else .setter setter

def assignment (handle : Handle) (key : Key) : Action Assignment := do
  match ← getOwn handle key with
  | some desc =>
    if desc.isAccessor then return .ofSetter desc.setter
    else return if desc.isWritable then .overwrite else .refused
  | none =>
    let object ← fetch handle
    let inherited ← match object.prototype with
      | some prototype => getProperty prototype key
      | none => pure none
    match inherited with
    | none => return if object.extensible then .create else .refused
    | some desc =>
      if desc.isAccessor then return .ofSetter desc.setter
      else return if object.extensible && desc.isWritable then .create else .refused

def assign (host : Host) (handle : Handle) (key : Key) (value : Value) : Action Verdict := do
  match ← assignment handle key with
  | .refused => return .rejected .notAssignable
  | .setter function =>
    let _ ← call host function (.object handle) [value]
    return .accepted
  | .overwrite => onObject handle (Object.define key (.assignment value))
  | .create => onObject handle (Object.define key (.plain value))

def put (host : Host) (handle : Handle) (key : Key) (value : Value) (raises : Bool) :
    Action Bool :=
  Action.report raises (assign host handle key value)

end HiddenClass.Realm
