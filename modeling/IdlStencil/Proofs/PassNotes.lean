import IdlStencil.Proofs.Parametric
import IdlStencil.Proofs.TableBuilding

/-!
# What a pass notes

A pass notes the lack of an interface, or the lack of its section, or else what is wrong with the
annotations of the interface and of the functions (`Emission.emit_notes`). Each note is written out here
with its severity, kind, text and line, as far as it can be told from the unit. Everything else a pass
renders is silent as long as the section exists. Silence is a property that renderings cannot break
(`silence`), so the notes of a pass are those of the few places that note something themselves.
-/

namespace IdlStencil.Noted

variable {α β : Type}

theorem notes_traverse (f : α → Noted β) (as : List α) :
    (traverse f as).notes = as.flatMap fun a => (f a).notes := by
  induction as with
  | nil => rfl
  | cons a as ih => simp [traverse, ih]

theorem notes_concat (f : α → Noted String) (as : List α) :
    (concat f as).notes = as.flatMap fun a => (f a).notes := by
  simp [concat, notes_traverse]

end IdlStencil.Noted

namespace IdlStencil.Render

open Idl (PackageUnit Declaration Function Field Ty Annot AnnotValue annotNamed?)

/-! ## What is wrong with annotations -/

/-- The same for each value that lacks its literal. -/
def lacking {α : Type} (values : List AnnotValue) (a : α) : List α :=
  (values.filter Option.isNone).map fun _ => a

/-- The errors of the edges that the first annotation with a name states, at its line. -/
def edgeErrors (annotations : List Annot) (key : String) : List AnnotError :=
  match annotNamed? annotations key with
  | none => []
  | some a =>
    if a.values = [] then [.emptyCallEdge key a.line]
    else lacking a.values (.missingValue key a.line)

/-- The note that an annotation is malformed, at its line. -/
def malformed (message : String) (line : UInt32) : Diagnostic where
  severity := .error
  kind := .malformedAnnot
  message := message
  line := some line

/-- The notes on the sample values of a field. A field without a type is not asked for them. -/
def sampleNotes (f : Field) : List Diagnostic :=
  match f.type, f.annot with
  | some _, some a =>
    lacking ((a.entries.get? "normal").getD []) (malformed "'normal' annotation needs values" a.line)
  | _, _ => []

/-- The notes on the edges that the first annotation with a name states. -/
def edgeNotes (annotations : List Annot) (key : String) : List Diagnostic :=
  match annotations.find? fun a => a.name = key with
  | none => []
  | some a =>
    if a.values = [] then
      [malformed ("call-graph annotation '" ++ key ++ "' needs 1 or more unnamed string values") a.line]
    else lacking a.values (malformed ("'" ++ key ++ "' annotation needs values") a.line)

/-- The notes on a function: on its results, on its parameters and on its call flow. -/
def functionNotes (f : Function) : List Diagnostic :=
  f.generates.flatMap sampleNotes ++ f.params.flatMap sampleNotes ++
    edgeNotes f.annotations "next_calls" ++ edgeNotes f.annotations "prev_calls"

/-- Of the declarations only functions give notes. -/
def declarationNotes : Declaration → List Diagnostic
  | .function f => functionNotes f
  | _ => []

/-- The note on an interface whose component type is not one string, at the line that names it. -/
def componentNotes (annotations : List Annot) : List Diagnostic :=
  match annotations.find? fun a => a.name = "hal_type" with
  | none => []
  | some a =>
    match a.values with
    | [some (.string _)] => []
    | _ => [malformed "hal_type annotation needs one string value" a.line]

theorem map_diagnostic_edgeErrors (annotations : List Annot) (key : String) :
    (edgeErrors annotations key).map AnnotError.diagnostic = edgeNotes annotations key := by
  unfold edgeErrors edgeNotes annotNamed?
  cases annotations.find? fun a => a.name = key with
  | none => rfl
  | some a =>
    by_cases h : a.values = []
    · simp only [h, if_true, List.map_cons, List.map_nil]
      rfl
    · simp only [h, if_false, lacking, List.map_map]
      rfl

theorem CallFlow.errors_edges (annotations : List Annot) (key : String) (edge : String → CallFact) :
    (CallFlow.edges annotations key edge).errors = edgeErrors annotations key := by
  unfold CallFlow.edges edgeErrors
  cases annotNamed? annotations key with
  | none => rfl
  | some a =>
    have hvalues (values : List AnnotValue) :
        (values.foldr (fun v flow => (CallFlow.edgeValue edge key a.line v).append flow) {}).errors =
          lacking values (.missingValue key a.line) := by
      induction values with
      | nil => rfl
      | cons v values ih => cases v <;> simpa [CallFlow.append, CallFlow.edgeValue, lacking] using ih
    by_cases h : a.values = []
    · simp [h]
    · simp [h, hvalues]

theorem CallFlow.errors_parse (annotations : List Annot) :
    (CallFlow.parse annotations).errors =
      edgeErrors annotations "next_calls" ++ edgeErrors annotations "prev_calls" := by
  have hmarker (name : String) (fact : CallFact) :
      (CallFlow.marker annotations name fact).errors = [] := by
    unfold CallFlow.marker
    split <;> rfl
  simp [CallFlow.parse, CallFlow.append, hmarker, errors_edges]

theorem CallFlow.notes_parse (annotations : List Annot) :
    (CallFlow.parse annotations).errors.map AnnotError.diagnostic =
      edgeNotes annotations "next_calls" ++ edgeNotes annotations "prev_calls" := by
  rw [errors_parse, List.map_append, map_diagnostic_edgeErrors, map_diagnostic_edgeErrors]

theorem componentNotes_eq (annotations : List Annot) :
    componentNotes annotations =
      match componentType? annotations with
      | .error e => [e.diagnostic]
      | .ok _ => [] := by
  unfold componentNotes componentType? annotNamed? componentTypeKey
  cases annotations.find? fun a => a.name = "hal_type" with
  | none => rfl
  | some a =>
    obtain ⟨name, line, values, entries⟩ := a
    -- none, one of each kind, or more than one
    rcases values with _ | ⟨_ | (_ | _ | _), _ | ⟨_, _⟩⟩ <;> rfl

/-! ## Silence -/

/-- One rendering that notes nothing, whatever its texts. -/
def silence : Parametric Unit where
  Text _ := True
  Notes n := n () = []
  const _ := trivial
  append _ _ := trivial
  flatten _ := trivial
  empty_or {f} _ := (Classical.em (f () = "")).imp (fun h _ => h) (fun h _ => h)
  silent := rfl
  notes_append hm hn := by simp only [hm, hn, List.append_nil]

/-- The context renders for a section that exists. -/
def Context.Known (cx : Context) : Prop := cx.table.section? cx.sectionName ≠ none

variable {cx : Context}

theorem Context.Known.notes_snip (h : cx.Known) (name : String)
    (subs : Template.Substitutions) : (cx.snip name subs).notes = [] := by
  obtain ⟨snippets, hs⟩ := Option.ne_none_iff_exists'.mp h
  simp only [Context.snip, hs]
  cases snippets.get? name <;> rfl

theorem Context.Known.keeps (h : cx.Known) : silence.Keeps fun _ => cx where
  package := trivial
  interface := trivial
  special _ := trivial
  snip _ _ := ⟨trivial, h.notes_snip _ _⟩

theorem Context.Known.notes_spell (h : cx.Known) (t : Ty) : (spell cx t).notes = [] :=
  (h.keeps.spell t).notes

theorem Context.Known.notes_commaList (h : cx.Known) (omitNames : Bool) (fields : List Field) :
    (commaList cx omitNames fields).notes = [] :=
  (h.keeps.commaList omitNames fields).notes

theorem Context.Known.notes_semiBlock (h : cx.Known) (fields : List Field) :
    (semiBlock cx fields).notes = [] :=
  (h.keeps.semiBlock fields).notes

theorem Context.Known.notes_bySuffix (h : cx.Known) {stem : String} (hstem : stem ∈ typeStems)
    (fields : List Field) : (bySuffix cx stem fields).notes = [] :=
  (h.keeps.bySuffix hstem fields).notes

theorem Context.Known.notes_callbackParam (h : cx.Known) (f : Function) :
    (callbackParam cx f).notes = [] :=
  (h.keeps.callbackParam f).notes

/-! ## Functions -/

theorem notes_samples (h : cx.Known) {f : Field} {t : Ty} (ht : f.type = some t) :
    (samples cx f t).notes = sampleNotes f := by
  cases ha : f.annot with
  | none => simp [samples, sampleNotes, ht, ha]
  | some a =>
    have hnote : (AnnotError.missingValue sampleKey a.line).diagnostic =
        malformed "'normal' annotation needs values" a.line := rfl
    simp only [samples, sampleNotes, ht, ha, Noted.notes_concat, sampleValues, List.flatMap_map]
    rw [show "normal" = sampleKey from rfl]
    generalize (a.entries.get? sampleKey).getD [] = values
    induction values with
    | nil => rfl
    | cons v values ih =>
      cases v with
      | none => simpa [lacking, Noted.note, hnote] using ih
      | some literal => simpa [lacking, h.notes_snip] using ih

theorem notes_suiteArgs (h : cx.Known) (label : String) (fields : List Field) :
    (suiteArgs cx label fields).notes = fields.flatMap sampleNotes := by
  simp only [suiteArgs, Noted.notes_concat, suiteArg, Noted.notes_bind, h.notes_spell, h.notes_snip]
  induction fields with
  | nil => rfl
  | cons f fields ih =>
    cases ht : f.type with
    | none =>
      have hf : sampleNotes f = [] := by simp [sampleNotes, ht]
      simpa [typed, ht, hf] using ih
    | some t => simpa [typed, ht, notes_samples h ht] using ih

theorem notes_noteErrors (es : List AnnotError) :
    (noteErrors es).notes = es.map AnnotError.diagnostic := by
  induction es with
  | nil => rfl
  | cons e es ih => simp [noteErrors, Noted.note, ih]

theorem notes_functionFacts (h : cx.Known) (f : Function) :
    (functionFacts cx f).notes = functionNotes f := by
  have hnames : (nameList cx none f.params).notes = [] :=
    (h.keeps.nameList (by simp) f.params).notes
  have hreturns : (nameList cx (some "return_param_decl") f.generates).notes = [] :=
    (h.keeps.nameList (by rintro _ ⟨⟩; exact .fixed (by decide)) f.generates).notes
  have hwrites := h.notes_bySuffix (by decide : "param_write_" ∈ typeStems)
  have hreads := h.notes_bySuffix (by decide : "param_read_" ∈ typeStems)
  have hinvocation : (callbackInvocation cx f).notes = [] := (h.keeps.callbackInvocation f).notes
  have hflow (flow : CallFlow) : (renderCallFlow cx flow).notes = [] :=
    (h.keeps.renderCallFlow flow).notes
  simp only [functionFacts, functionNotes, Noted.notes_bind, Noted.notes_pure, h.notes_commaList,
    hnames, hreturns, hwrites, hreads, h.notes_callbackParam, hinvocation, hflow, h.notes_semiBlock,
    notes_suiteArgs h, notes_noteErrors, CallFlow.notes_parse, List.append_assoc, List.nil_append,
    List.append_nil]

/-! ## Units -/

theorem notes_declarationFacts (h : cx.Known) (d : Declaration) :
    (declarationFacts cx d).notes = declarationNotes d := by
  cases d with
  | function f => exact notes_functionFacts h f
  | _ => exact (h.keeps.declarationFacts _ (by rintro f ⟨⟩)).notes

theorem notes_componentType (h : cx.Known) (annotations : List Annot) :
    (Emission.componentType cx annotations).notes = componentNotes annotations := by
  rw [componentNotes_eq, Emission.componentType]
  cases componentType? annotations with
  | ok tag => cases tag <;> simp [h.notes_snip]
  | error e => rfl

theorem notes_declarationTexts (h : cx.Known) (texts : Emission.DeclarationTexts)
    (ds : List (Declaration × Template.Substitutions)) :
    (Emission.declarationTexts cx texts ds).notes = [] := by
  induction ds generalizing texts with
  | nil => rfl
  | cons d ds ih =>
    simp only [Emission.declarationTexts, Noted.notes_bind, h.notes_snip]
    split <;> simp [h.notes_snip, ih]

theorem notes_unitFacts (h : cx.Known) (u : PackageUnit) (annotations : List Annot) :
    (Emission.unitFacts cx u annotations).notes =
      componentNotes annotations ++ u.declarations.flatMap declarationNotes := by
  have himports : (Emission.importsSection cx u.imports).notes = [] :=
    (h.keeps.importsSection u.imports).notes
  have hlines : (Emission.namespaceLines cx u.namespacePath).notes = [] :=
    (h.keeps.namespaceLines u.namespacePath).notes
  have hcalls : (Emission.callList cx u.functions).notes = [] := (h.keeps.callList u.functions).notes
  have hwriter := h.notes_bySuffix (by decide : "param_write_" ∈ typeStems) u.vars
  have hreader := h.notes_bySuffix (by decide : "param_read_" ∈ typeStems) u.vars
  simp only [Emission.unitFacts, Noted.notes_bind, Noted.notes_pure, Noted.notes_traverse,
    notes_componentType h, notes_declarationFacts h, notes_declarationTexts h, h.notes_semiBlock,
    himports, hlines, hcalls, hwriter, hreader, List.nil_append, List.append_nil]

end IdlStencil.Render

namespace IdlStencil.Emission

open Render
open Idl (PackageUnit Interface Function Field Annot)

theorem known_iff_mem_names (table : Snippet.Table) (sectionName : String) :
    table.section? sectionName ≠ none ↔ sectionName ∈ table.names := by
  rw [Snippet.Table.section?, ne_eq, OrderedMap.get?_eq_none_iff, Classical.not_not]
  rfl

/-- The notes of a pass, written out. -/
def passNotes (e : Emission) (u : PackageUnit) : List Diagnostic :=
  match u.interface with
  | none =>
    [{ severity := .error, kind := .missingInterface,
       message := "cannot write output; no interface declared", line := none }]
  | some interface =>
    if e.sectionName ∈ e.table.names then
      componentNotes interface.annotations ++ u.declarations.flatMap declarationNotes
    else
      [{ severity := .warning, kind := .missingSection,
         message := "section '" ++ e.sectionName ++ "' not found in snippets", line := none }]

theorem notes_render (e : Emission) (u : PackageUnit) : (e.render u).notes = e.passNotes u := by
  unfold render passNotes
  cases u.interface with
  | none => rfl
  | some interface =>
    by_cases hs : e.sectionName ∈ e.table.names
    · have hsection : e.table.section? e.sectionName ≠ none := (known_iff_mem_names _ _).mpr hs
      have h : (Context.of e.table e.sectionName u.package interface.name e.multiline).Known := hsection
      simp [hs, hsection, notes_unitFacts h, h.notes_snip]
    · have hsection : e.table.section? e.sectionName = none := by
        rwa [← known_iff_mem_names, Classical.not_not] at hs
      simp only [hs, hsection, Option.isNone_none, if_true, if_false]
      rfl

/-- The notes of a pass do not depend on the sink. With an interface and a section they are what is wrong
with the annotations, in the order of the unit. The notes on a call flow and on a component type are those
that reading them gives as errors. -/
theorem emit_notes {ε α : Type} (e : Emission) (u : PackageUnit) (write : String → Except ε α) :
    ((e.emit u write).notes =
      match u.interface with
      | none =>
        [{ severity := .error, kind := .missingInterface,
           message := "cannot write output; no interface declared", line := none }]
      | some interface =>
        if e.sectionName ∈ e.table.names then
          componentNotes interface.annotations ++ u.declarations.flatMap declarationNotes
        else
          [{ severity := .warning, kind := .missingSection,
             message := "section '" ++ e.sectionName ++ "' not found in snippets", line := none }]) ∧
    (∀ annotations : List Annot, (CallFlow.parse annotations).errors =
      edgeErrors annotations "next_calls" ++ edgeErrors annotations "prev_calls") ∧
    (∀ annotations : List Annot, (CallFlow.parse annotations).errors.map AnnotError.diagnostic =
      edgeNotes annotations "next_calls" ++ edgeNotes annotations "prev_calls") ∧
    ∀ annotations : List Annot, componentNotes annotations =
      match componentType? annotations with
      | .error e => [e.diagnostic]
      | .ok _ => [] := by
  refine ⟨?_, CallFlow.errors_parse, CallFlow.notes_parse, componentNotes_eq⟩
  have hemit : (e.emit u write).notes = (e.render u).notes := by
    simp only [emit, Noted.notes_bind]
    cases (e.render u).value <;> simp
  rw [hemit, notes_render]
  rfl

/-- Everything that can be wrong with a unit at once, beside annotations that nobody asks for: on a field
without a type, inside a type, on a struct, and behind another one with the same name. -/
theorem emit_notes_of_malformed :
    let table := Snippet.Table.empty.insert "s" "vts_args" "vts_values"
    let sample (line : UInt32) : Annot :=
      { name := "range", line,
        entries := OrderedMap.empty.insert "normal" [none, some (.number "1"), none] }
    let inner : Field := { name := "y", type := some .string, annot := some (sample 9) }
    let f : Function :=
      { name := "f",
        params := [{ name := "x", type := some (.struct [inner]), annot := some (sample 5) },
          { name := "z", annot := some (sample 9) }],
        generates := [{ name := "r", type := some .handle, annot := some (sample 4) }],
        annotations := [{ name := "prev_calls", line := 7 },
          { name := "next_calls", line := 6, values := [some (.string "g"), none] },
          { name := "prev_calls", line := 9, values := [none] }] }
    let interface : Interface :=
      { name := "I", annotations := [{ name := "hal_type", line := 3, values := [some (.number "1")] }] }
    let u : PackageUnit :=
      { package := "p", version := ⟨1, 0⟩, interface := some interface,
        declarations := [.struct "S" [inner], .function f] }
    let full (_ : String) : Except String Unit := .error "full"
    ((Emission.mk table "s" none).emit u full).notes =
      [⟨.error, .malformedAnnot, "hal_type annotation needs one string value", some 3⟩,
        ⟨.error, .malformedAnnot, "'normal' annotation needs values", some 4⟩,
        ⟨.error, .malformedAnnot, "'normal' annotation needs values", some 4⟩,
        ⟨.error, .malformedAnnot, "'normal' annotation needs values", some 5⟩,
        ⟨.error, .malformedAnnot, "'normal' annotation needs values", some 5⟩,
        ⟨.error, .malformedAnnot, "'next_calls' annotation needs values", some 6⟩,
        ⟨.error, .malformedAnnot,
          "call-graph annotation 'prev_calls' needs 1 or more unnamed string values", some 7⟩] ∧
    ((Emission.mk table "t" none).emit u full).notes =
      [⟨.warning, .missingSection, "section 't' not found in snippets", none⟩] ∧
    ((Emission.mk table "t" none).emit { u with interface := none } full).notes =
      [⟨.error, .missingInterface, "cannot write output; no interface declared", none⟩] := by
  intro table sample inner f interface u full
  refine ⟨?_, ?_, ?_⟩
  · rw [(emit_notes _ u full).1]
    decide
  · rw [(emit_notes _ u full).1]
    decide
  · rw [(emit_notes _ { u with interface := none } full).1]

end IdlStencil.Emission
