import HiddenClass.Realm.Access
import HiddenClass.Realm.Collect

/-!
Everything a program can ask of a realm, as data, and the course of a realm under a list of
requests. A request that stops at a fault leaves the realm as it is at that point, and the next one
goes on from there.
-/

namespace HiddenClass

inductive Request where
  | intern (text : String)
  | newObject (prototype : Option Handle)
  | newUniqueObject (prototype : Option Handle)
  | newArray (length : Nat)
  | getOwn (object : Handle) (key : Key)
  | getProperty (object : Handle) (key : Key)
  | read (object : Handle) (key : Key)
  | put (object : Handle) (key : Key) (value : Value) (raises : Bool)
  | define (object : Handle) (key : Key) (desc : Descriptor) (raises : Bool)
  | delete (object : Handle) (key : Key) (raises : Bool)
  | keys (object : Handle) (filter : KeyFilter)
  | preventExtensions (object : Handle)
  | setPrototype (object : Handle) (prototype : Option Handle)
  | makeUnique (object : Handle)
  | makeTransitionable (object : Handle)
  | collect (roots : List Handle)
deriving Repr

inductive Answer where
  | done
  | key (key : Key)
  | handle (handle : Handle)
  | descriptor (desc : Option Descriptor)
  | value (value : Value)
  | accepted (yes : Bool)
  | keys (keys : List Key)
  | census (census : Census)
deriving DecidableEq, Repr

/-- What becomes of a request. -/
inductive Reply where
  | answered (answer : Answer)
  | stopped (fault : Fault)
deriving DecidableEq, Repr

namespace Request

def perform (host : Host) : Request → Realm.Action Answer
  | .intern text => return .key (← Realm.intern text)
  | .newObject prototype => return .handle (← Realm.newObject prototype)
  | .newUniqueObject prototype => return .handle (← Realm.newUniqueObject prototype)
  | .newArray length => return .handle (← Realm.newArray length)
  | .getOwn object key => return .descriptor (← Realm.getOwn object key)
  | .getProperty object key => return .descriptor (← Realm.getProperty object key)
  | .read object key => return .value (← Realm.read host object key)
  | .put object key value raises => return .accepted (← Realm.put host object key value raises)
  | .define object key desc raises => return .accepted (← Realm.define object key desc raises)
  | .delete object key raises => return .accepted (← Realm.delete object key raises)
  | .keys object filter => return .keys (← Realm.keys object filter)
  | .preventExtensions object => do
    Realm.preventExtensions object
    return .done
  | .setPrototype object prototype => do
    Realm.setPrototype object prototype
    return .done
  | .makeUnique object => do
    Realm.makeUnique object
    return .done
  | .makeTransitionable object => do
    Realm.makeTransitionable object
    return .done
  | .collect roots => return .census (← Realm.collect roots)

/-- The reply, and the realm afterwards. -/
def outcome (host : Host) (request : Request) (realm : Realm) : Reply × Realm :=
  match request.perform host realm with
  | .ok answer realm => (.answered answer, realm)
  | .error fault realm => (.stopped fault, realm)

end Request

namespace Realm

/-- The realm after a list of requests. -/
def after (host : Host) (realm : Realm) (requests : List Request) : Realm :=
  requests.foldl (fun realm request => (request.outcome host realm).2) realm

/-- The replies to a list of requests, in order. -/
def replies (host : Host) : Realm → List Request → List Reply
  | _, [] => []
  | realm, request :: rest =>
    let (reply, realm) := request.outcome host realm
    reply :: replies host realm rest

end Realm

end HiddenClass
