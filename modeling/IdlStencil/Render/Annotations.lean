import IdlStencil.Diagnostic
import IdlStencil.Idl.Annot

/-!
What annotations say: the place of a function in the flow of calls, the component type of an
interface, and sample values of a field. Reading them does not touch the snippets.
-/

namespace IdlStencil.Render

open Idl (Annot AnnotValue Literal annotNamed? hasAnnot)

/-- A malformed annotation, by its key and line. -/
inductive AnnotError where
  | emptyCallEdge (key : String) (line : UInt32)
  | missingValue (key : String) (line : UInt32)
  | componentType (key : String) (line : UInt32)
  deriving DecidableEq, Repr

namespace AnnotError

def line : AnnotError → UInt32
  | .emptyCallEdge _ line | .missingValue _ line | .componentType _ line => line

def message : AnnotError → String
  | .emptyCallEdge key _ => s!"call-graph annotation '{key}' needs 1 or more unnamed string values"
  | .missingValue key _ => s!"'{key}' annotation needs values"
  | .componentType key _ => s!"{key} annotation needs one string value"

def diagnostic (e : AnnotError) : Diagnostic where
  severity := .error
  kind := .malformedAnnot
  message := e.message
  line := some e.line

end AnnotError

/-! ## Call flow -/

/-- A fact about the place of a function in the flow of calls. The other function is named by its
literal as written. -/
inductive CallFact where
  /-- The function may be the first call. -/
  | entry
  /-- The function may be the last call. -/
  | exit
  | next (target : String)
  | prev (target : String)
  deriving DecidableEq, Repr

/-- The facts about one function, and what is wrong with the annotations that state them. -/
structure CallFlow where
  facts : List CallFact := []
  errors : List AnnotError := []
  deriving DecidableEq, Repr

namespace CallFlow

def append (a b : CallFlow) : CallFlow := ⟨a.facts ++ b.facts, a.errors ++ b.errors⟩

/-- A fact that an annotation states by being there. -/
def marker (annotations : List Annot) (name : String) (fact : CallFact) : CallFlow :=
  if hasAnnot annotations name then { facts := [fact] } else {}

/-- One fact a value that has a literal, one error a value that has none. -/
def edgeValue (edge : String → CallFact) (key : String) (line : UInt32) :
    AnnotValue → CallFlow
  | some literal => { facts := [edge literal.text] }
  | none => { errors := [.missingValue key line] }

/-- The edges that the first annotation with a name states. -/
def edges (annotations : List Annot) (key : String) (edge : String → CallFact) : CallFlow :=
  match annotNamed? annotations key with
  | none => {}
  | some a =>
    if a.values.isEmpty then { errors := [.emptyCallEdge key a.line] }
    else a.values.foldr (fun v flow => (edgeValue edge key a.line v).append flow) {}

/-- Markers first, then the edges to later calls, then those to earlier ones. -/
def parse (annotations : List Annot) : CallFlow :=
  (marker annotations "entry" .entry).append <|
  (marker annotations "exit" .exit).append <|
  (edges annotations "next_calls" .next).append (edges annotations "prev_calls" .prev)

end CallFlow

/-! ## Component type -/

/-- The annotation that names the component type of an interface. -/
def componentTypeKey : String := "hal_type"

/-- The component type: the one unnamed string of the first annotation that names it. -/
def componentType? (annotations : List Annot) : Except AnnotError (Option String) :=
  match annotNamed? annotations componentTypeKey with
  | none => .ok none
  | some a =>
    match a.values with
    | [some (.string s)] => .ok (some s)
    | _ => .error (.componentType componentTypeKey a.line)

/-! ## Sample values -/

/-- The entry of a field annotation that lists sample values. -/
def sampleKey : String := "normal"

/-- Each sample value has its literal or is an error. -/
def sampleValues (a : Annot) : List (Except AnnotError Literal) :=
  ((a.entries.get? sampleKey).getD []).map fun
    | some literal => .ok literal
    | none => .error (.missingValue sampleKey a.line)

end IdlStencil.Render
