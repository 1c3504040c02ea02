import IdlStencil.OrderedMap

/-!
Snippet tables: sections of named templates, both in the order in which they first came.
-/

namespace IdlStencil.Snippet

/-- The templates of one section by their names. -/
abbrev Section := OrderedMap String

/-- The sections by their names. -/
structure Table where
  sections : OrderedMap Section
  deriving DecidableEq, Repr

namespace Table

def empty : Table := ⟨.empty⟩

def section? (t : Table) (name : String) : Option Section := t.sections.get? name

/-- The template of a snippet, where the section and the snippet exist. -/
def get? (t : Table) (sectionName name : String) : Option String := do
  (← t.section? sectionName).get? name

/-- Adds or replaces a snippet, with its section where needed. -/
def insert (t : Table) (sectionName name template : String) : Table :=
  ⟨t.sections.insert sectionName
    (((t.section? sectionName).getD .empty).insert name template)⟩

theorem get?_insert (t : Table) (sectionName name template s n : String) :
    (t.insert sectionName name template).get? s n =
      if s = sectionName ∧ n = name then some template else t.get? s n := by
  by_cases hs : s = sectionName
  · subst hs
    cases h : t.sections.get? s <;>
      by_cases hn : n = name <;> simp [get?, section?, insert, h, hn]
  · simp [get?, section?, insert, hs]

/-- The names of the sections, in order. -/
def names (t : Table) : List String := t.sections.names

def isEmpty (t : Table) : Bool := t.sections.isEmpty

/-- The table of the snippets of each section in order. A section without snippets is not made. -/
def ofPairs (pairs : List (String × List (String × String))) : Table :=
  pairs.foldl (fun t (sectionName, snippets) =>
    snippets.foldl (fun t (name, template) => t.insert sectionName name template) t) empty

end Table
end IdlStencil.Snippet
