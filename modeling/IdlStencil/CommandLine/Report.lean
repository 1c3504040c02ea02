import IdlStencil.CommandLine.Pass
import IdlStencil.Json.Value

/-!
The texts that commands show: the listing of a table, and the results of a check.
-/

namespace IdlStencil.CommandLine

/-- A word for a count: the plural ends in `s`. -/
def counted (n : Nat) (word : String) : String := s!"{n} {word}" ++ if n = 1 then "" else "s"

/-! ## Listing -/

/-- One line a section. -/
def listing (table : Snippet.Table) : String :=
  String.join (table.sections.entries.map fun (name, snippets) =>
    name ++ " (" ++ counted snippets.size "snippet" ++ ")\n")

/-! ## Checks -/

/-- Members stand in the order of their names. -/
def diagnosticJson (d : Diagnostic) : Json.Value :=
  .object [("kind", .string d.kind.name),
    ("line", match d.line with
      | some line => .number line.toNat
      | none => .null),
    ("message", .string d.message), ("severity", .string d.severity.name)]

def SectionCheck.toJson (c : SectionCheck) : Json.Value :=
  .object [("diagnostics", .array (c.diagnostics.map diagnosticJson)),
    ("section", .string c.sectionName)]

/-- The results of a check as JSON. -/
def checksJson (checks : List SectionCheck) : String :=
  (Json.Value.array (checks.map SectionCheck.toJson)).pretty ++ "\n"

/-- The results for one section as lines, where there are any. -/
def SectionCheck.lines (c : SectionCheck) : List String :=
  if c.diagnostics.isEmpty then []
  else (c.sectionName ++ ":") :: c.diagnostics.map Diagnostic.text

/-- What a check without errors says. -/
def cleanLine (ast : String) (checks : List SectionCheck) : String :=
  s!"✓ {ast} renders cleanly for " ++ counted checks.length "section" ++ "\n"

end IdlStencil.CommandLine
