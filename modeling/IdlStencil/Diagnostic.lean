/-!
Diagnostics of a rendering pass, and values that come with the diagnostics noted on the way. A
problem that does not stop a pass is noted and what it would have produced is left empty, so notes
are the only thing a pass yields besides its text.
-/

namespace IdlStencil

inductive Severity where
  | error
  | warning
  deriving DecidableEq, Repr

/-- The severity in a line of text. -/
def Severity.label : Severity → String
  | .error => "error"
  | .warning => "warning"

/-- The severity in a record. -/
def Severity.name : Severity → String
  | .error => "Error"
  | .warning => "Warning"

inductive DiagnosticKind where
  | missingSection
  | malformedAnnot
  | missingInterface
  /-- A snippet that cannot be filled. Literal keys can always be filled, so no pass notes it. -/
  | template
  deriving DecidableEq, Repr

def DiagnosticKind.name : DiagnosticKind → String
  | .missingSection => "missing_section"
  | .malformedAnnot => "malformed_annotation"
  | .missingInterface => "missing_interface"
  | .template => "template"

structure Diagnostic where
  severity : Severity
  kind : DiagnosticKind
  message : String
  line : Option UInt32 := none
  deriving DecidableEq, Repr

namespace Diagnostic

def isError (d : Diagnostic) : Bool := d.severity = .error

def isWarning (d : Diagnostic) : Bool := d.severity = .warning

/-- The diagnostic as one line of text. -/
def text (d : Diagnostic) : String :=
  let head := d.severity.label ++ ": " ++ d.message
  match d.line with
  | some line => s!"{head} (line {line.toNat})"
  | none => head

end Diagnostic

def errorCount (ds : List Diagnostic) : Nat := ds.countP Diagnostic.isError

def warningCount (ds : List Diagnostic) : Nat := ds.countP Diagnostic.isWarning

/-- A value with the diagnostics noted while it was made, in order. -/
structure Noted (α : Type) where
  value : α
  notes : List Diagnostic := []
  deriving Repr

namespace Noted

instance : Monad Noted where
  pure a := ⟨a, []⟩
  bind x f :=
    let y := f x.value
    ⟨y.value, x.notes ++ y.notes⟩

@[ext] theorem ext {α : Type} {x y : Noted α} (hv : x.value = y.value) (hn : x.notes = y.notes) :
    x = y := by
  cases x
  cases y
  simp_all

/-- Notes a diagnostic. -/
def note (d : Diagnostic) : Noted Unit := ⟨(), [d]⟩

@[simp] theorem value_pure {α : Type} (a : α) : (pure a : Noted α).value = a := rfl

@[simp] theorem notes_pure {α : Type} (a : α) : (pure a : Noted α).notes = [] := rfl

@[simp] theorem value_bind {α β : Type} (x : Noted α) (f : α → Noted β) :
    (x >>= f).value = (f x.value).value := rfl

@[simp] theorem notes_bind {α β : Type} (x : Noted α) (f : α → Noted β) :
    (x >>= f).notes = x.notes ++ (f x.value).notes := rfl

/-- The values of all elements, with their notes in order. -/
def traverse {α β : Type} (f : α → Noted β) : List α → Noted (List β)
  | [] => pure []
  | a :: as => do
    let b ← f a
    return b :: (← traverse f as)

/-- The texts of all elements one after another. -/
def concat {α : Type} (f : α → Noted String) (as : List α) : Noted String := do
  return String.join (← traverse f as)

end Noted
end IdlStencil
