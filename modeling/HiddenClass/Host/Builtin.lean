import HiddenClass.Realm.Access
import HiddenClass.Realm.Collect

/-!
A host with a small set of native functions for accessors.
-/

namespace HiddenClass

namespace Builtin

/-- The object that a function was called on. -/
def receiver (value : Value) : Realm.Action Handle :=
  match value with
  | .object handle => return handle
  | other => throw (.error (.notCallable other))

end Builtin

/-- The functions read and assign properties through the host below them, so that calls can be
nested as deep as the given limit. -/
def Host.builtin : Nat → Host
  | 0, _, _, _ => throw .tooDeep
  | depth + 1, function, this, arguments => do
    let first := arguments.head?.getD .undefined
    match function.name with
    | "answer" => return .int 42
    | "this" => return this
    | "argc" => return .int (Int32.ofNat arguments.length)
    | "sink" =>
      let key ← Realm.intern "sink"
      let _ ← Realm.define (← Builtin.receiver this) key (.plain first) true
      return .undefined
    | "type_error" => throw (.error (.raised .type "native type"))
    | "range_error" => throw (.error (.raised .range "native range"))
    | "get_x" =>
      let key ← Realm.intern "x"
      Realm.read (Host.builtin depth) (← Builtin.receiver this) key
    | "put_y" =>
      let key ← Realm.intern "y"
      return .bool (← Realm.put (Host.builtin depth) (← Builtin.receiver this) key first true)
    | "del_x" =>
      let key ← Realm.intern "x"
      return .bool (← Realm.delete (← Builtin.receiver this) key true)
    | "collect" =>
      let census ← Realm.collect [← Builtin.receiver this]
      return .int (Int32.ofNat census.freedObjects)
    | _ => Host.none function this arguments

/-- Calls nested deeper than this are taken for a recursion without end. -/
def Host.standard : Host := Host.builtin 64

end HiddenClass
