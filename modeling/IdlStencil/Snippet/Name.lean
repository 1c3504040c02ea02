import IdlStencil.Text.Find
import IdlStencil.Toml.Table

/-!
The names of sections and snippets. Snippet names are composed when they are looked up, so they are
limited to letters, digits and underscores of ASCII; section names may also have dashes.

A name that is refused is pointed out in the source where it most likely stands as a key. The
search knows the usual ways to write a key and otherwise takes the first place with the name.
-/

namespace IdlStencil.Snippet

open Text (find? byteLength)
open Toml (Span)

/-- What a name is for. -/
inductive NameContext where
  | sectionName
  | snippetName
  deriving DecidableEq, Repr

def NameContext.label : NameContext → String
  | .sectionName => "section"
  | .snippetName => "snippet"

def allowed (context : NameContext) (c : Char) : Bool :=
  c.isAlphanum || c = '_' || (context = .sectionName && c = '-')

/-- Why a name is refused. -/
inductive NameFault where
  | empty
  | badCharacter (context : NameContext)
  deriving DecidableEq, Repr

def NameFault.reason : NameFault → String
  | .empty => "name cannot be empty"
  | .badCharacter .sectionName => "name must contain only letters, numbers, underscores, and dashes"
  | .badCharacter .snippetName => "name must contain only letters, numbers, and underscores"

/-- What is wrong with a name, if anything. -/
def nameFault? (context : NameContext) (name : String) : Option NameFault :=
  if name.isEmpty then some .empty
  else if name.toList.all (allowed context) then none
  else some (.badCharacter context)

theorem nameFault?_eq_none_iff {context : NameContext} {name : String} :
    nameFault? context name = none ↔ name ≠ "" ∧ ∀ c ∈ name.toList, allowed context c = true := by
  simp only [nameFault?, String.isEmpty_iff]
  split
  · simp_all
  · split <;> simp_all

/-- The usual ways to write a key, each with one character before the name. -/
def keyPatterns (name : List Char) : List (List Char) :=
  [['['] ++ name ++ [']'], ['"'] ++ name ++ ['"'], ['\n'] ++ name ++ [' ', '='],
    ['\n'] ++ name ++ ['=']]

/-- Where a name stands in the source. -/
def findName (source name : String) : Option Span :=
  let text := source.toList
  let name := name.toList
  let start := (keyPatterns name).findSome? fun pattern => (find? pattern text).map (· + 1)
  (start <|> find? name text).map fun start => ⟨start, byteLength name⟩

end IdlStencil.Snippet
