import IdlStencil.Json.Fault
import IdlStencil.OrderedMap

/-!
Readers turn documents into values of a type. A reader looks at a document in one of two ways.
From the `stream` the text is judged as it comes: its faults and those of its shape are met in the
order of the text, and arrays and objects may only nest so deep. A `held` value was found to be
sound before, so that only its shape can be at fault, and some faults that would be the text's
while it streams are then the shape's.
-/

namespace IdlStencil.Json

/-- How a document is looked at. -/
inductive Source where
  /-- From the text, with room for so many more open arrays and objects. -/
  | stream (room : Nat)
  | held
  deriving DecidableEq, Repr

/-- Arrays and objects nest at most this deep. -/
def depthLimit : Nat := 127

abbrev Reader (α : Type) := Source → Doc → Except Fault α

/-- Going into an array or object. -/
def Source.enter : Source → Except Fault Source
  | .stream 0 => .error .malformed
  | .stream (room + 1) => .ok (.stream room)
  | .held => .ok .held

/-- The end of an array or object. -/
def Source.leave (closed : Bool) : Source → Except Fault Unit
  | .stream _ => if closed then .ok () else .error .malformed
  | .held => .ok ()

/-- Passing over a value that nobody asked for. -/
def Source.skip (d : Doc) : Source → Except Fault Unit
  | .stream _ => if d.skippable then .ok () else .error .malformed
  | .held => .ok ()

/-- Setting a value aside for later. -/
def Source.hold (d : Doc) : Source → Except Fault Unit
  | .stream room => if d.holdable room then .ok () else .error .malformed
  | .held => .ok ()

/-- The refusal of a value that should have been something else. -/
def refuse {α : Type} (d : Doc) (expected : String) : Except Fault α :=
  match d.found? with
  | some found => .error (.shape (.wrongType found expected))
  | none => .error .malformed

/-- A number of things, in words. -/
def elements (n : Nat) : String := if n = 1 then "1 element" else s!"{n} elements"

namespace Reader

/-- Strings; `expected` names what they stand for. -/
def text (expected : String) : Reader String := fun _ d =>
  match d with
  | .string (some s) => .ok s
  | d => refuse d expected

def string : Reader String := text "a string"

/-- Natural numbers of 32 bits. -/
def natural32 : Reader UInt32 := fun _ d =>
  let outside (n : Int) : Except Fault UInt32 := .error (.shape (.wrongValue (.integer n) "u32"))
  match d with
  | .number n =>
    match n.value? with
    | some (.natural k) => if k < UInt32.size then .ok (UInt32.ofNat k) else outside k
    | some (.negative k) => outside k
    | _ => refuse d "u32"
  | d => refuse d "u32"

/-- Reads the items in order. -/
def items {α : Type} (item : Reader α) (source : Source) : List Doc → Except Fault (List α)
  | [] => .ok []
  | d :: ds => do
    let a ← item source d
    return a :: (← items item source ds)

def list {α : Type} (item : Reader α) : Reader (List α) := fun source d =>
  match d with
  | .array ds closed => do
    let inner ← source.enter
    let values ← items item inner ds
    inner.leave closed
    return values
  | d => refuse d "a sequence"

/-- Nothing, written as null, or something. -/
def optional {α : Type} (some : Reader α) : Reader (Option α) := fun source d =>
  match d with
  | .null => .ok none
  | d => (some source d).map .some

/-- Reads the members in order into a map. -/
def members {α : Type} (value : Reader α) (source : Source) :
    List (Option String × Doc) → OrderedMap α → Except Fault (OrderedMap α)
  | [], map => .ok map
  | (none, _) :: _, _ => .error .malformed
  | (some key, d) :: ds, map => do
    let a ← value source d
    members value source ds (map.insert key a)

/-- Maps from any keys. Of a repeated key the last value counts, in the place of the first. -/
def map {α : Type} (value : Reader α) : Reader (OrderedMap α) := fun source d =>
  match d with
  | .object ds closed => do
    let inner ← source.enter
    let map ← members value inner ds .empty
    inner.leave closed
    return map
  | d => refuse d "a map"

/-! ## Variants -/

/-- What comes with a variant. -/
inductive Payload (α : Type) where
  /-- Nothing. -/
  | bare (value : α)
  | value (read : Reader α)
  /-- A record of its own. -/
  | record (read : Reader α)

/-- The value that stands for nothing, next to the name of a bare variant. -/
def nothing : Reader Unit := fun source d =>
  match source, d with
  | _, .null => .ok ()
  | .held, .object [] _ => .ok ()
  | _, d => refuse d "unit"

/-- A variant by its name alone. -/
def Payload.alone {α : Type} : Payload α → Except Fault α
  | .bare a => .ok a
  | .value _ => .error (.shape (.wrongType .bareVariant "newtype variant"))
  | .record _ => .error (.shape (.wrongType .bareVariant "struct variant"))

/-- A variant with a value next to its name. A record that is held has to look like one. -/
def Payload.beside {α : Type} (source : Source) (d : Doc) : Payload α → Except Fault α
  | .bare a => (nothing source d).map fun _ => a
  | .value read => read source d
  | .record read =>
    match source, d with
    | .stream _, d => read source d
    | .held, .array _ _ => read source d
    | .held, .object _ _ => read source d
    | .held, d => refuse d "struct variant"

/-- The variant with a name. -/
def find {α : Type} (alternatives : List (String × Payload α)) (name : String) :
    Except Fault (Payload α) :=
  match alternatives.lookup name with
  | some payload => .ok payload
  | none => .error (.shape (.unknownVariant name (alternatives.map Prod.fst)))

/-- One of several variants: its name alone, or an object with its name as the one key. -/
def variant {α : Type} (alternatives : List (String × Payload α)) : Reader α := fun source d =>
  match source, d with
  | _, .string (some name) => do (← find alternatives name).alone
  | .stream _, .object ((some name, d) :: others) closed => do
    let inner ← source.enter
    let a ← (← find alternatives name).beside inner d
    inner.leave (closed && others.isEmpty)
    return a
  | .stream _, _ => .error .malformed
  | .held, .object [(some name, d)] _ => do (← find alternatives name).beside .held d
  | .held, .object _ _ => .error (.shape (.wrongValue .map "map with a single key"))
  | .held, d => refuse d "string or map"

end Reader

/-- Reads a whole document, after which nothing may follow. -/
def Document.decode {α : Type} (document : Document) (read : Reader α) : Except Fault α := do
  let a ← read (.stream depthLimit) document.root
  if document.trailing then .error .malformed else return a

end IdlStencil.Json
