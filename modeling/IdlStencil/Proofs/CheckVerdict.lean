import IdlStencil.Proofs.CallFlowFacts
import IdlStencil.Proofs.CommandRuns
import IdlStencil.Proofs.PassNotes

/-!
# Checking tells what emitting would report

A check renders a unit for every section of a table and keeps the diagnostics. Emitting one section has
options and a place for the text, and collects diagnostics on the way. In a section that exists the notes
of a pass depend on the unit alone (`unitNotes`), not on the snippets, the name of the section or the
newlines of parameters, so both commands log the same lines, and every section has the same list. All of
it are errors, and there are some exactly if something is wrong with the unit that can be said without any
section (`Faulty`). This decides how a check ends (`check_agrees_with_emit`).
-/

namespace IdlStencil.Render

open Idl (PackageUnit Interface Declaration Function Field Annot AnnotValue annotNamed?)

/-! ## What is wrong with a unit -/

/-- Something is wrong with a unit, whatever it is rendered with. -/
inductive Faulty (u : PackageUnit) : Prop where
  | interface (h : u.interface = none)
  /-- The component type is not given by one string. -/
  | componentType {interface : Interface} {a : Annot} (hinterface : u.interface = some interface)
      (ha : FirstNamed interface.annotations "hal_type" a)
      (hvalues : ∀ s, a.values ≠ [some (.string s)])
  /-- The edges of a call flow have no values, or a value without a literal. -/
  | callFlow {f : Function} {key : String} {a : Annot} (hf : f ∈ u.functions)
      (hkey : key ∈ ["next_calls", "prev_calls"]) (ha : FirstNamed f.annotations key a)
      (hvalues : a.values = [] ∨ none ∈ a.values)
  /-- A sample value of a field with a type has no literal. -/
  | sample {f : Function} {field : Field} {a : Annot} {values : List AnnotValue} (hf : f ∈ u.functions)
      (hfield : field ∈ f.params ∨ field ∈ f.generates) (htype : field.type ≠ none)
      (ha : field.annot = some a) (hvalues : a.entries.get? "normal" = some values)
      (hnone : none ∈ values)

theorem lacking_ne_nil_iff {α : Type} (values : List AnnotValue) (a : α) :
    lacking values a ≠ [] ↔ none ∈ values := by
  simp [lacking]

theorem componentNotes_ne_nil_iff (annotations : List Annot) :
    componentNotes annotations ≠ [] ↔
      ∃ a, FirstNamed annotations "hal_type" a ∧ ∀ s, a.values ≠ [some (.string s)] := by
  simp only [← annotNamed?_eq_some_iff, annotNamed?]
  unfold componentNotes
  cases annotations.find? fun a => a.name = "hal_type" with
  | none => simp
  | some a =>
    dsimp only
    split
    · next s hs => simp [hs]
    · next hvalues => simpa using hvalues

theorem edgeNotes_ne_nil_iff (annotations : List Annot) (key : String) :
    edgeNotes annotations key ≠ [] ↔
      ∃ a, FirstNamed annotations key a ∧ (a.values = [] ∨ none ∈ a.values) := by
  simp only [← annotNamed?_eq_some_iff, annotNamed?, edgeNotes]
  cases annotations.find? fun a => a.name = key with
  | none => simp
  | some a =>
    by_cases hvalues : a.values = []
    · simp [hvalues]
    · simp [hvalues, lacking_ne_nil_iff]

theorem sampleNotes_ne_nil_iff (field : Field) :
    sampleNotes field ≠ [] ↔ field.type ≠ none ∧ ∃ a, field.annot = some a ∧
      ∃ values, a.entries.get? "normal" = some values ∧ none ∈ values := by
  unfold sampleNotes
  cases field.type with
  | none => simp
  | some t =>
    cases field.annot with
    | none => simp
    | some a =>
      rw [lacking_ne_nil_iff]
      cases hvalues : a.entries.get? "normal" <;> simp [hvalues]

theorem functionNotes_ne_nil_iff (f : Function) :
    functionNotes f ≠ [] ↔
      (∃ field, (field ∈ f.params ∨ field ∈ f.generates) ∧ sampleNotes field ≠ []) ∨
        ∃ key ∈ ["next_calls", "prev_calls"], edgeNotes f.annotations key ≠ [] := by
  simp only [functionNotes, ne_eq, List.append_eq_nil_iff, List.flatMap_eq_nil_iff]
  grind

theorem declarationNotes_ne_nil_iff (u : PackageUnit) :
    u.declarations.flatMap declarationNotes ≠ [] ↔ ∃ f ∈ u.functions, functionNotes f ≠ [] := by
  have hdeclaration (d : Declaration) :
      declarationNotes d ≠ [] ↔ ∃ f, d.function? = some f ∧ functionNotes f ≠ [] := by
    cases d <;> simp [declarationNotes, Declaration.function?]
  simp only [ne_eq, List.flatMap_eq_nil_iff, Classical.not_forall, PackageUnit.functions,
    List.mem_filterMap]
  grind

/-- The diagnostics of a unit in any section that exists. -/
def unitNotes (u : PackageUnit) : List Diagnostic :=
  match u.interface with
  | none =>
    [{ severity := .error, kind := .missingInterface,
       message := "cannot write output; no interface declared", line := none }]
  | some interface => componentNotes interface.annotations ++ u.declarations.flatMap declarationNotes

theorem unitNotes_ne_nil_iff (u : PackageUnit) : unitNotes u ≠ [] ↔ Faulty u := by
  cases hi : u.interface with
  | none => exact iff_of_true (by simp [unitNotes, hi]) (.interface hi)
  | some interface =>
    have hnotes : unitNotes u ≠ [] ↔ componentNotes interface.annotations ≠ [] ∨
        ∃ f ∈ u.functions, functionNotes f ≠ [] := by
      rw [← declarationNotes_ne_nil_iff]
      simp only [unitNotes, hi, ne_eq, List.append_eq_nil_iff, Classical.not_and_iff_not_or_not]
    rw [hnotes]
    constructor
    · rintro (h | ⟨f, hf, h⟩)
      · obtain ⟨a, ha, hvalues⟩ := (componentNotes_ne_nil_iff _).mp h
        exact .componentType hi ha hvalues
      · rcases (functionNotes_ne_nil_iff f).mp h with ⟨field, hfield, h⟩ | ⟨key, hkey, h⟩
        · obtain ⟨htype, a, ha, values, hvalues, hnone⟩ := (sampleNotes_ne_nil_iff field).mp h
          exact .sample hf hfield htype ha hvalues hnone
        · obtain ⟨a, ha, hvalues⟩ := (edgeNotes_ne_nil_iff _ _).mp h
          exact .callFlow hf hkey ha hvalues
    · rintro (h | ⟨hinterface, ha, hvalues⟩ | ⟨hf, hkey, ha, hvalues⟩ |
        ⟨hf, hfield, htype, ha, hvalues, hnone⟩)
      · rw [hi] at h
        cases h
      · cases hi.symm.trans hinterface
        exact .inl ((componentNotes_ne_nil_iff _).mpr ⟨_, ha, hvalues⟩)
      · exact .inr ⟨_, hf, (functionNotes_ne_nil_iff _).mpr
          (.inr ⟨_, hkey, (edgeNotes_ne_nil_iff _ _).mpr ⟨_, ha, hvalues⟩⟩)⟩
      · exact .inr ⟨_, hf, (functionNotes_ne_nil_iff _).mpr (.inl ⟨_, hfield,
          (sampleNotes_ne_nil_iff _).mpr ⟨htype, _, ha, _, hvalues, hnone⟩⟩)⟩

/-! ## Severity -/

/-- All of the diagnostics are errors. -/
def AllErrors (ds : List Diagnostic) : Prop := ∀ d ∈ ds, d.severity = .error

theorem AllErrors.lacking (values : List AnnotValue) (message : String) (line : UInt32) :
    AllErrors (Render.lacking values (Render.malformed message line)) := by
  intro d hd
  obtain ⟨_, -, rfl⟩ := List.mem_map.mp hd
  rfl

theorem AllErrors.nil : AllErrors [] := List.forall_mem_nil _

theorem AllErrors.malformed (message : String) (line : UInt32) :
    AllErrors [Render.malformed message line] :=
  List.forall_mem_singleton.mpr rfl

theorem AllErrors.append {ds ds' : List Diagnostic} (h : AllErrors ds) (h' : AllErrors ds') :
    AllErrors (ds ++ ds') :=
  List.forall_mem_append.mpr ⟨h, h'⟩

theorem AllErrors.flatMap {α : Type} {f : α → List Diagnostic} (h : ∀ a, AllErrors (f a)) (as : List α) :
    AllErrors (as.flatMap f) := by
  intro d hd
  obtain ⟨a, -, hd⟩ := List.mem_flatMap.mp hd
  exact h a d hd

theorem allErrors_sampleNotes (field : Field) : AllErrors (sampleNotes field) := by
  unfold sampleNotes
  split
  · exact .lacking _ _ _
  · exact .nil

theorem allErrors_edgeNotes (annotations : List Annot) (key : String) :
    AllErrors (edgeNotes annotations key) := by
  unfold edgeNotes
  split
  · exact .nil
  · split
    · exact .malformed _ _
    · exact .lacking _ _ _

theorem allErrors_componentNotes (annotations : List Annot) :
    AllErrors (componentNotes annotations) := by
  unfold componentNotes
  split
  · exact .nil
  · split
    · exact .nil
    · exact .malformed _ _

theorem allErrors_declarationNotes (d : Declaration) : AllErrors (declarationNotes d) := by
  cases d with
  | function f =>
    refine .append (.append (.append ?_ ?_) ?_) ?_
    · exact .flatMap allErrors_sampleNotes _
    · exact .flatMap allErrors_sampleNotes _
    · exact allErrors_edgeNotes _ _
    · exact allErrors_edgeNotes _ _
  | _ => exact .nil

theorem allErrors_unitNotes (u : PackageUnit) : AllErrors (unitNotes u) := by
  unfold unitNotes
  split
  · exact List.forall_mem_singleton.mpr rfl
  · exact (allErrors_componentNotes _).append (.flatMap allErrors_declarationNotes _)

end IdlStencil.Render

namespace IdlStencil.CommandLine

open Render
open Idl (PackageUnit)

variable {table : Snippet.Table} {u : PackageUnit}

theorem notes_render_of_mem {e : Emission} (h : e.sectionName ∈ e.table.names) :
    (e.render u).notes = unitNotes u := by
  rw [Emission.notes_render, Emission.passNotes, unitNotes]
  cases u.interface with
  | none => rfl
  | some interface => exact if_pos h

/-! ## Lines -/

/-- The line of an error in the log. -/
def errorLine (d : Diagnostic) : String :=
  "error: " ++ d.message ++ (match d.line with
    | none => ""
    | some line => " (line " ++ toString line.toNat ++ ")") ++ "\n"

theorem text_eq_errorLine {d : Diagnostic} (h : d.severity = .error) : d.text ++ "\n" = errorLine d := by
  obtain ⟨severity, kind, message, line⟩ := d
  obtain rfl : severity = .error := h
  cases line with
  | none => simp [Diagnostic.text, errorLine, Severity.label]
  | some line =>
    change "error: " ++ message ++ " (line " ++ toString line.toNat ++ ")" ++ "\n" = _
    simp only [errorLine, String.append_assoc]

theorem map_text_eq {ds : List Diagnostic} (h : AllErrors ds) :
    (ds.map fun d => d.text ++ "\n") = ds.map errorLine :=
  List.map_congr_left fun d hd => text_eq_errorLine (h d hd)

/-- The lines of a section in the log of a check: its name and its errors, if there are any. -/
def checkLines (c : SectionCheck) : String :=
  if c.diagnostics = [] then ""
  else c.sectionName ++ ":\n" ++ String.join (c.diagnostics.map errorLine)

theorem logged_eq_checkLines {o : CheckOptions} (hjson : o.json = false) {checks : List SectionCheck}
    (h : ∀ c ∈ checks, AllErrors c.diagnostics) :
    o.logged checks = String.join (checks.map checkLines) := by
  rw [CheckOptions.logged, if_neg (Bool.eq_false_iff.mp hjson)]
  induction checks with
  | nil => rfl
  | cons c checks ih =>
    have hc : String.join (c.lines.map (· ++ "\n")) = checkLines c := by
      unfold SectionCheck.lines checkLines
      rw [← map_text_eq (h c List.mem_cons_self)]
      by_cases hempty : c.diagnostics = []
      · simp [hempty]
      · simp [hempty, String.append_assoc, Function.comp_def]
    rw [List.flatMap_cons, List.map_append, String.join_append, hc, List.map_cons, String.join_cons,
      ih fun c' hc' => h c' (List.mem_cons_of_mem c hc')]

/-! ## Agreement -/

theorem checkSections_eq (table : Snippet.Table) (u : PackageUnit) :
    checkSections table u = table.names.map fun name => ⟨name, unitNotes u⟩ := by
  refine List.map_congr_left fun name hname => ?_
  rw [notes_render_of_mem hname]

theorem anyError_checkSections_iff (table : Snippet.Table) (u : PackageUnit) :
    anyError (checkSections table u) = true ↔ table.names ≠ [] ∧ Faulty u := by
  have herrors : unitNotes u ≠ [] ↔ (unitNotes u).any Diagnostic.isError = true := by
    cases hnotes : unitNotes u with
    | nil => simp
    | cons d ds =>
      have hd : d.severity = .error := allErrors_unitNotes u d (hnotes ▸ List.mem_cons_self)
      simp [Diagnostic.isError, hd]
  rw [← unitNotes_ne_nil_iff, herrors, checkSections_eq, anyError]
  cases table.names with
  | nil => simp
  | cons name names => simp

/-- A check has one entry for each section of the table, in order. Emitting the section alone, whatever
the options, ends its log with the errors of the entry, one a line; without verbosity it logs nothing
else. They are the same errors for every section, never a warning, and the check logs the same lines. So
a check finds errors exactly if there is a section and something is wrong with the unit, and this is how
the command ends. -/
theorem check_agrees_with_emit (table : Snippet.Table) (u : PackageUnit) :
    let checks := checkSections table u
    checks.map SectionCheck.sectionName = table.names ∧
    (∀ c ∈ checks, ∀ (o : EmitOptions) (w : World) (verbose : Bool), o.target = .one c.sectionName →
      w.Holds o.snippets o.ast table u → (∀ path ∈ o.output, (w.write path "").isSome = true) →
      let result := (runEmit World.host verbose o).run.run w
      result.1 = (if u.interface = none then .error (.nothingWritten o.ast) else .ok .fine) ∧
      ∃ records, (verbose = false → records = "") ∧
        result.2.log = w.log ++ records ++ String.join (c.diagnostics.map errorLine)) ∧
    (∀ c ∈ checks, ∀ c' ∈ checks, c.diagnostics = c'.diagnostics) ∧
    (∀ c ∈ checks, ∀ d ∈ c.diagnostics, d.severity = .error) ∧
    (anyError checks = true ↔ table.names ≠ [] ∧ Faulty u) ∧
    ∀ (w : World) (o : CheckOptions) (verbose : Bool), w.Holds o.snippets o.ast table u →
      let result := (runCheck World.host verbose o).run.run w
      exitCode result.1 = (if anyError checks then 1 else 0) ∧
      (o.json = true → result.2.printed = w.printed ++ checksJson checks) ∧
      (o.json = false → ∃ records, (verbose = false → records = "") ∧
        result.2.log = w.log ++ records ++ String.join (checks.map checkLines)) := by
  intro checks
  have hchecks : checks = table.names.map fun name => ⟨name, unitNotes u⟩ := checkSections_eq table u
  have hentry (c : SectionCheck) (hc : c ∈ checks) :
      c.sectionName ∈ table.names ∧ c.diagnostics = unitNotes u := by
    rw [hchecks] at hc
    obtain ⟨name, hname, rfl⟩ := List.mem_map.mp hc
    exact ⟨hname, rfl⟩
  have herrors (c : SectionCheck) (hc : c ∈ checks) : AllErrors c.diagnostics :=
    (hentry c hc).2 ▸ allErrors_unitNotes u
  refine ⟨?names, ?emit, ?same, herrors, anyError_checkSections_iff table u, ?check⟩
  case names =>
    rw [hchecks, List.map_map]
    exact List.map_id _
  case emit =>
    intro c hc o w verbose htarget hholds hwrites
    obtain ⟨hname, hdiagnostics⟩ := hentry c hc
    have hemitted := runEmit_one htarget hholds hwrites verbose
    have hnotes : o.notes table u c.sectionName = c.diagnostics := by
      rw [hdiagnostics]
      exact notes_render_of_mem hname
    obtain ⟨records, hquiet, hlog⟩ := hemitted.log
    rw [hnotes, map_text_eq (herrors c hc)] at hlog
    exact ⟨hemitted.verdict, records, hquiet, hlog⟩
  case same =>
    intro c hc c' hc'
    rw [(hentry c hc).2, (hentry c' hc').2]
  case check =>
    intro w o verbose hholds
    have hchecked := runCheck_checked hholds verbose
    refine ⟨?_, fun hjson => ?_, fun hjson => ?_⟩
    · rw [hchecked.verdict]
      cases anyError checks <;> rfl
    · rw [hchecked.printed, CheckOptions.printed, if_pos hjson]
    · obtain ⟨records, hquiet, hlog⟩ := hchecked.log
      rw [logged_eq_checkLines hjson herrors] at hlog
      exact ⟨records, hquiet, hlog⟩

/-- A component type without a value, with two sections of which one has no snippets. Emitting that one
to a file logs the line that checking has for both. -/
theorem check_agrees_with_emit_on_empty_type :
    let source := "[a]\nfile = \"x\"\n[b-1]\n"
    let text := "[\"p\", \"1.0\", [], [], [\"I\", [[\"hal_type\"]]]]"
    let w : World := { files := [(["t.toml"], source), (["u.json"], text)], distinct := by decide }
    let table := Snippet.tableOf [("a", [("file", "x")]), ("b-1", [])]
    let interface : Idl.Interface := { name := "I", annotations := [{ name := "hal_type" }] }
    let u : PackageUnit := { package := "p", version := ⟨1, 0⟩, interface := some interface }
    let one : EmitOptions :=
      { ast := "u.json", snippets := "t.toml", target := .one "b-1", output := some "b.out",
        multilineParams := true }
    let all : CheckOptions := { ast := "u.json", snippets := "t.toml" }
    let emitted := (runEmit World.host false one).run.run w
    let checked := (runCheck World.host false all).run.run w
    let line := "error: hal_type annotation needs one string value (line 0)\n"
    w.Holds "t.toml" "u.json" table u ∧ emitted.1 = .ok .fine ∧ emitted.2.log = line ∧
      exitCode checked.1 = 1 ∧ checked.2.log = "a:\n" ++ line ++ "b-1:\n" ++ line := by
  intro source text w table interface u one all emitted checked line
  have hsource : w.read "t.toml" = some source := by decide +kernel
  have htext : w.read "u.json" = some text := by decide +kernel
  have hload : Snippet.Table.load source = .ok table := by decide +kernel
  have htokens : Json.tokens text.toList = [.openBracket, .string "p", .comma, .string "1.0", .comma,
      .openBracket, .closeBracket, .comma, .openBracket, .closeBracket, .comma, .openBracket, .string "I",
      .comma, .openBracket, .openBracket, .string "hal_type", .closeBracket, .closeBracket,
      .closeBracket, .closeBracket] := by decide +kernel
  have hdecode : (Json.Document.ofText text).decode PackageUnit.read = .ok u := by
    rw [Json.Document.ofText, htokens]
    rfl
  have hholds : w.Holds "t.toml" "u.json" table u := ⟨⟨source, hsource, hload⟩, ⟨text, htext, hdecode⟩⟩
  have hfirst : FirstNamed interface.annotations "hal_type" { name := "hal_type" } :=
    ⟨[], [], rfl, rfl, by simp⟩
  have hfaulty : Faulty u := .componentType rfl hfirst (by simp)
  have hchecks : checkSections table u = [⟨"a", unitNotes u⟩, ⟨"b-1", unitNotes u⟩] :=
    checkSections_eq table u
  obtain ⟨-, hemit, -, -, hany, hcheck⟩ := check_agrees_with_emit table u
  obtain ⟨hverdict, records, hquiet, hlog⟩ := hemit ⟨"b-1", unitNotes u⟩ (by simp [hchecks]) one w false rfl
    hholds (by decide +kernel)
  obtain ⟨hexit, -, hlines⟩ := hcheck w all false hholds
  obtain ⟨records', hquiet', hlines⟩ := hlines rfl
  rw [hquiet rfl] at hlog
  rw [hquiet' rfl, hchecks] at hlines
  refine ⟨hholds, hverdict, hlog.trans (by decide +kernel), ?_, hlines.trans (by decide +kernel)⟩
  rw [hexit, if_pos (hany.mpr ⟨by decide, hfaulty⟩)]

end IdlStencil.CommandLine
