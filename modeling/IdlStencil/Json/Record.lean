import IdlStencil.Json.Reader

/-!
Records: a fixed sequence of named fields, each with its own type. A record is written as an
object, with the fields in any order among unknown members, or as an array of the fields in their
own order, from which trailing fields with a default may be left out.

The types of the fields are a list, so that reading is defined once for all records, by recursion
on their slots.
-/

namespace IdlStencil.Json

/-- One field of a record. A field without a value for its absence is required. -/
structure Slot (α : Type) where
  name : String
  read : Reader α
  absent : Option α

/-- The fields of a record, by their types. -/
inductive Slots : List Type → Type 1 where
  | nil : Slots []
  | cons {α : Type} {αs : List Type} (slot : Slot α) (rest : Slots αs) : Slots (α :: αs)

/-- A record some of whose fields were read. -/
@[reducible] def Partly : List Type → Type
  | [] => Unit
  | α :: αs => Option α × Partly αs

/-- A complete record. -/
@[reducible] def Tuple : List Type → Type
  | [] => Unit
  | α :: αs => α × Tuple αs

namespace Slots

def count {αs : List Type} : Slots αs → Nat
  | .nil => 0
  | .cons _ rest => rest.count + 1

/-- Nothing read yet. -/
def start {αs : List Type} : Slots αs → Partly αs
  | .nil => ()
  | .cons _ rest => (none, rest.start)

/-- Reads the field with a name; none when the record has no such field. -/
def put {αs : List Type} (source : Source) (name : String) (d : Doc) :
    Slots αs → Partly αs → Option (Except Fault (Partly αs))
  | .nil, _ => none
  | .cons slot rest, (here, others) =>
    if slot.name = name then
      match here with
      | some _ => some (.error (.shape (.duplicateField name)))
      | none => some ((slot.read source d).map fun a => (some a, others))
    else (rest.put source name d others).map fun r => r.map fun others => (here, others)

/-- Reads the members in order and passes over those that are no fields. -/
def members {αs : List Type} (slots : Slots αs) (source : Source) :
    List (Option String × Doc) → Partly αs → Except Fault (Partly αs)
  | [], partly => .ok partly
  | (none, _) :: _, _ => .error .malformed
  | (some name, d) :: ds, partly => do
    match slots.put source name d partly with
    | some read => slots.members source ds (← read)
    | none =>
      source.skip d
      slots.members source ds partly

/-- Completes the record, the first field that is missing being the one reported. -/
def finish {αs : List Type} : Slots αs → Partly αs → Except Fault (Tuple αs)
  | .nil, _ => .ok ()
  | .cons slot rest, (here, others) =>
    match here.or slot.absent with
    | some a => do return (a, ← rest.finish others)
    | none => .error (.shape (.missingField slot.name))

/-- Reads the fields from the items of an array, `index` of them being read already, and gives the
items that are left. -/
def items {αs : List Type} (expected : String) (source : Source) (closed : Bool) (index : Nat) :
    Slots αs → List Doc → Except Fault (Tuple αs × List Doc)
  | .nil, ds => .ok ((), ds)
  | .cons slot rest, d :: ds => do
    let a ← slot.read source d
    let (others, left) ← rest.items expected source closed (index + 1) ds
    return ((a, others), left)
  | .cons slot rest, [] => do
    source.leave closed
    match slot.absent with
    | some a =>
      let (others, left) ← rest.items expected source closed (index + 1) []
      return ((a, others), left)
    | none => .error (.shape (.wrongLength index expected))

/-- The end of an array from which `count` fields were read. -/
def leaveItems (count : Nat) (left : List Doc) (closed : Bool) : Source → Except Fault Unit
  | .held =>
    if left.isEmpty then .ok ()
    else .error (.shape (.wrongLength (count + left.length) (elements count ++ " in sequence")))
  | source => source.leave (closed && left.isEmpty)

end Slots

/-- Records of the given fields; `label` names them in messages. -/
def Reader.record {αs : List Type} (label : String) (slots : Slots αs) : Reader (Tuple αs) :=
  fun source d =>
    match d with
    | .object ds closed => do
      let inner ← source.enter
      let partly ← slots.members inner ds slots.start
      inner.leave closed
      slots.finish partly
    | .array ds closed => do
      let inner ← source.enter
      let expected := s!"{label} with {elements slots.count}"
      let (tuple, left) ← slots.items expected inner closed 0 ds
      Slots.leaveItems slots.count left closed inner
      return tuple
    | d => refuse d label

/-- A required field. -/
def required {α : Type} (name : String) (read : Reader α) : Slot α := ⟨name, read, none⟩

/-- A field that may be left out. -/
def defaulted {α : Type} (name : String) (read : Reader α) (absent : α) : Slot α :=
  ⟨name, read, some absent⟩

end IdlStencil.Json
