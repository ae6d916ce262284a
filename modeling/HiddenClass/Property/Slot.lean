import HiddenClass.Property.Descriptor
import HiddenClass.Failure

/-!
Stored properties, and the validation and application of a descriptor to one.
-/

namespace HiddenClass

structure Slot where
  value : Value
  getter : Value := .undefined
  setter : Value := .undefined
  flags : Flags
deriving DecidableEq, Repr, Inhabited

namespace Slot

/-- The content of a place that no property occupies. -/
def vacant : Slot := { value := .hole, flags := {} }

/-- A new property: absent fields become false or undefined, and a generic descriptor makes a
read-only data property. -/
def ofDescriptor (desc : Descriptor) : Slot :=
  let enumerable := desc.isEnumerable
  let configurable := desc.isConfigurable
  if desc.isAccessor then
    { value := .undefined
      getter := desc.getter
      setter := desc.setter
      flags := { enumerable, configurable, accessor := true } }
  else
    { value := desc.value
      flags :=
        { writable := desc.isData && desc.isWritable, enumerable, configurable, data := true } }

def plain (value : Value) : Slot := { value, flags := .plain }

def toDescriptor (slot : Slot) : Descriptor :=
  let attributes : Attributes := { toFlags := slot.flags }
  if slot.flags.accessor then .accessor (some slot.getter) (some slot.setter) attributes
  else .data slot.value attributes

/-- Whether every field that the descriptor supplies already has its value here. -/
def agrees (slot : Slot) (desc : Descriptor) : Bool :=
  let given := desc.attributes
  (given.configurableAbsent || given.configurable = slot.flags.configurable)
    && (given.enumerableAbsent || given.enumerable = slot.flags.enumerable)
    && (given.isGeneric
      || given.typeFlags = slot.flags.typeFlags
        && if given.data then
            (given.writableAbsent || given.writable = slot.flags.writable)
              && (given.valueAbsent || desc.value.sameValue slot.value)
          else
            (given.getterAbsent || desc.getter.sameValue slot.getter)
              && (given.setterAbsent || desc.setter.sameValue slot.setter))

/-- Whether the descriptor may be merged. A configurable property accepts everything, and what
changes nothing is accepted by all. -/
def validate (slot : Slot) (desc : Descriptor) : Verdict :=
  let given := desc.attributes
  let flags := slot.flags
  if desc.isAbsent || slot.agrees desc then .accepted
  else if flags.configurable then .accepted
  else if given.configurable then .rejected .configurableChange
  else if !given.enumerableAbsent && flags.enumerable != given.enumerable then
    .rejected .enumerableChange
  else if given.isGeneric then .accepted
  else if flags.data != given.data then .rejected .typeChange
  else if flags.data then
    if flags.writable then .accepted
    else if given.writable then .rejected .writableChange
    else if !given.valueAbsent && !desc.value.sameValue slot.value then .rejected .valueChange
    else .accepted
  else if !given.setterAbsent && !desc.setter.sameValue slot.setter
      || !given.getterAbsent && !desc.getter.sameValue slot.getter then .rejected .accessorChange
  else .accepted

/-- The slot as a data property; an accessor loses its functions and is not writable. -/
def asData (slot : Slot) : Slot :=
  if slot.flags.accessor then
    { value := .undefined
      flags := { slot.flags with accessor := false, writable := false, data := true } }
  else { slot with flags := { slot.flags with data := true } }

/-- The slot as an accessor property; a data property loses its value. -/
def asAccessor (slot : Slot) : Slot :=
  if slot.flags.data then
    { slot with
      value := .undefined
      flags := { slot.flags with data := false, writable := false, accessor := true } }
  else { slot with flags := { slot.flags with accessor := true } }

/-- Applies an accepted descriptor: the supplied fields are taken over and the others kept, unless
the property changes its type. -/
def merge (slot : Slot) (desc : Descriptor) : Slot :=
  let given := desc.attributes
  let shared : Slot :=
    { slot with
      flags :=
        { slot.flags with
          configurable :=
            if given.configurableAbsent then slot.flags.configurable else given.configurable
          enumerable :=
            if given.enumerableAbsent then slot.flags.enumerable else given.enumerable } }
  if given.isGeneric then shared
  else if given.data then
    let target := shared.asData
    { target with
      value := if given.valueAbsent then target.value else desc.value
      flags :=
        { target.flags with
          writable := if given.writableAbsent then target.flags.writable else given.writable } }
  else
    let target := shared.asAccessor
    { target with
      getter := if given.getterAbsent then target.getter else desc.getter
      setter := if given.setterAbsent then target.setter else desc.setter }

end Slot

end HiddenClass
