import Mathlib.Algebra.GroupWithZero.Nat
import Mathlib.Data.List.Nodup
import IdlStencil.Proofs.Interleaving
import IdlStencil.Proofs.LoadedNames
import IdlStencil.Proofs.WorldFiles

/-!
# All sections at once

Emitting all sections of a table takes one pass a section. The passes share a collector of
diagnostics and a directory, and nothing is known about the order in which their steps are taken.
Still the outcome is that of the passes alone (`EmitOptions.allEmitted`): names of sections are
checked when a table is loaded and are distinct in it, so that every pass has a file of its own; and
the collector only ever grows at its end, so that it holds the diagnostics of each pass in order. The
passes one after another (`EmitOptions.steps`) are one of the interleavings.
-/

namespace IdlStencil.CommandLine

open Idl (PackageUnit)
open Snippet (nameFault? nameFault?_eq_none_iff)

/-! ## Names of files -/

theorem outputName_injective {s t : String} (h : outputName s = outputName t) : s = t :=
  (String.append_left_inj ".out").mp h

theorem not_mem_outputName {s : String} (h : nameFault? .sectionName s = none) {c : Char}
    (hc : Snippet.allowed .sectionName c = false) (hout : c ∉ ".out".toList) :
    c ∉ (outputName s).toList := by
  rw [outputName, String.toList_append, List.mem_append]
  rintro (hs | hs)
  · rw [(nameFault?_eq_none_iff.mp h).2 c hs] at hc
    cases hc
  · exact hout hs

theorem length_outputName (s : String) : (outputName s).length = s.length + 4 := by
  rw [outputName, String.length_append]
  rfl

theorem properName_outputName {s : String} (h : nameFault? .sectionName s = none) :
    ProperName (outputName s) := by
  have hlong {t : String} (ht : t.length < 4) : outputName s ≠ t := by
    rintro rfl
    rw [length_outputName] at ht
    omega
  exact ⟨hlong (by decide), hlong (by decide), hlong (by decide),
    not_mem_outputName h (by decide) (by decide)⟩

/-- The place of the file of a section in a directory. -/
def outputPlace (d : Place) (sectionName : String) : Place := d ++ [outputName sectionName]

theorem outputPlace_injective {d : Place} {s t : String} (h : outputPlace d s = outputPlace d t) :
    s = t := by
  refine outputName_injective ?_
  simpa [outputPlace] using h

theorem outputPlace_ne_nullDevice {s : String} (h : nameFault? .sectionName s = none) (d : Place) :
    outputPlace d s ≠ World.nullDevice := by
  intro heq
  have hlast : outputName s = "null" := by
    have := congrArg List.getLast? heq
    simpa [outputPlace, World.nullDevice] using this
  have hlength := length_outputName s
  rw [hlast] at hlength
  have hs : s.length = 0 := by
    have : "null".length = 4 := by decide
    omega
  exact (nameFault?_eq_none_iff.mp h).1 (String.length_eq_zero_iff.mp hs)

/-- What can be written is written in the directory. -/
theorem writable_sectionFile {w : World} {directory s : String} {d : Place}
    (hs : nameFault? .sectionName s = none) (hd : w.place? directory = some d)
    (hwrite : (w.write (sectionFile directory s) "").isSome = true) :
    w.Writable (sectionFile directory s) ∧ w.placeOf (sectionFile directory s) = outputPlace d s := by
  have haccepts : w.accepts (sectionFile directory s) = true := hwrite
  rw [World.accepts_eq, Option.isSome_filter, Option.any_eq_true] at haccepts
  obtain ⟨p, hp, -⟩ := haccepts
  have hplace : w.placeOf (sectionFile directory s) = outputPlace d s := by
    rw [World.placeOf, hp, Option.getD_some]
    exact World.place?_joinPath (properName_outputName hs) hd hp
  refine ⟨⟨hwrite, ?_⟩, hplace⟩
  rw [hplace]
  exact outputPlace_ne_nullDevice hs d

/-! ## Steps of passes -/

theorem isSome_render (e : Emission) (u : PackageUnit) :
    (e.render u).value.isSome = u.interface.isSome := by
  unfold Emission.render
  cases u.interface with
  | none => rfl
  | some interface =>
    dsimp only
    split <;> rfl

theorem report_passSteps (e : Emission) (u : PackageUnit) (delivery : Delivery) :
    (passSteps e u delivery).filterMap Step.report? = (e.render u).notes := by
  have hnotes (d : Diagnostic) : (reportSteps d).filterMap Step.report? = [d] := rfl
  have htext (text? : Option String) :
      (textSteps e.sectionName delivery text?).filterMap Step.report? = [] := by
    cases text? <;> rfl
  simp only [passSteps, List.filterMap_append, List.filterMap_flatMap, hnotes, htext,
    List.flatMap_singleton', List.append_nil]
  rfl

/-- What is seen of the delivery alone. -/
theorem delivery_passSteps {α : Type} {f : Step → Option α} (hlog : ∀ record, f (.log record) = none)
    (hreport : ∀ d, f (.report d) = none) (e : Emission) (u : PackageUnit) (delivery : Delivery) :
    (passSteps e u delivery).filterMap f =
      ((e.render u).value.bind fun text => f (.deliver delivery text)).toList := by
  have hnotes (ds : List Diagnostic) : (ds.flatMap reportSteps).filterMap f = [] := by
    rw [List.filterMap_flatMap, List.flatMap_eq_nil_iff]
    intro d _
    simp [reportSteps, hlog, hreport]
  simp only [passSteps, List.filterMap_append, hnotes]
  cases (e.render u).value with
  | none => simp [textSteps, hlog]
  | some text =>
    simp only [textSteps, List.filterMap_cons, List.filterMap_nil, hlog, Option.bind_some]
    cases f (.deliver delivery text) <;> rfl

theorem file_passSteps (e : Emission) (u : PackageUnit) (path : String) :
    (passSteps e u (.file path)).filterMap Step.file? =
      ((e.render u).value.map fun text => (path, text)).toList := by
  rw [delivery_passSteps (fun _ => rfl) (fun _ => rfl)]
  cases (e.render u).value <;> rfl

theorem lacksInterface_eq (e : Emission) (u : PackageUnit) :
    lacksInterface e u = u.interface.isNone := by
  have hsome := isSome_render e u
  rw [lacksInterface, Emission.emit, Noted.value_bind, ← Option.not_isSome, ← hsome]
  cases (e.render u).value with
  | none => rfl
  | some text => rfl

theorem EmitOptions.status_eq_missingInterface_iff (o : EmitOptions) (table : Snippet.Table)
    (u : PackageUnit) :
    o.status table u = .missingInterface ↔ u.interface = none ∧ o.passes table ≠ [] := by
  simp only [status, lacksInterface_eq]
  cases u.interface with
  | none => cases o.passes table <;> simp
  | some interface => simp

section

variable {o : EmitOptions} {table : Snippet.Table} {u : PackageUnit} {steps : List Step}

/-- The text that a section alone gives. -/
def EmitOptions.text? (o : EmitOptions) (table : Snippet.Table) (u : PackageUnit)
    (sectionName : String) : Option String :=
  ((o.emission table sectionName).render u).value

/-- The diagnostics that a section alone gives. -/
def EmitOptions.notes (o : EmitOptions) (table : Snippet.Table) (u : PackageUnit)
    (sectionName : String) : List Diagnostic :=
  ((o.emission table sectionName).render u).notes

/-- The files of the sections can be written, each in its place. -/
def SectionsWritable (o : EmitOptions) (table : Snippet.Table) (w : World) (d : Place) : Prop :=
  ∀ s ∈ table.names, w.Writable (sectionFile o.directory s) ∧
    w.placeOf (sectionFile o.directory s) = outputPlace d s

theorem stepsByPass_all (hall : o.target = .all) : o.stepsByPass table u =
    table.names.map fun s =>
      passSteps (o.emission table s) u (.file (sectionFile o.directory s)) := by
  rw [EmitOptions.stepsByPass, EmitOptions.passes, hall, List.map_map]
  rfl

variable {w : World} {d : Place} {verbose : Bool} {result : Tally × World}

section Interleaved

variable (hall : o.target = .all) (h : Interleaving (o.stepsByPass table u) steps)
include hall h

theorem reports_interleaved :
    Interleaving (table.names.map (o.notes table u)) (steps.filterMap Step.report?) := by
  have hreports := h.filterMap Step.report?
  rw [stepsByPass_all hall, List.map_map] at hreports
  simp only [Function.comp_def, report_passSteps] at hreports
  exact hreports

/-- Every section that has a text writes it, in some order. -/
theorem files_perm :
    (steps.filterMap Step.file?).Perm (table.names.filterMap fun s =>
      (o.text? table u s).map fun text => (sectionFile o.directory s, text)) := by
  have hfiles := (h.filterMap Step.file?).perm
  rw [stepsByPass_all hall, List.map_map] at hfiles
  simp only [Function.comp_def, file_passSteps, ← List.flatMap_def,
    ← List.filterMap_eq_flatMap_toList] at hfiles
  exact hfiles

theorem files_untouched (hi : u.interface = none) (hresult : World.Performed w verbose {} steps result) :
    result.2.files = w.files := by
  have hnone (s : String) : o.text? table u s = none := by
    rw [← Option.not_isSome_iff_eq_none, EmitOptions.text?, isSome_render, hi]
    exact Bool.false_ne_true
  have hfiles : steps.filterMap Step.file? = [] := by
    have hperm := files_perm hall h
    simp only [hnone, Option.map_none, List.filterMap_none] at hperm
    exact hperm.eq_nil
  rw [hresult.files, World.keptFiles, hfiles]
  rfl

variable (hw : SectionsWritable o table w d)
include hw

theorem refusedPaths_eq_nil : w.refusedPaths steps = [] := by
  refine List.filter_eq_nil_iff.mpr fun path hpath => ?_
  obtain ⟨file, hfile, rfl⟩ := List.mem_map.mp hpath
  obtain ⟨s, hs, htext⟩ := List.mem_filterMap.mp ((files_perm hall h).mem_iff.mp hfile)
  obtain ⟨text, -, rfl⟩ := Option.map_eq_some_iff.mp htext
  simp [(hw s hs).1.accepted]

theorem places_perm :
    ((steps.filterMap Step.file?).map fun file => w.placeOf file.1).Perm
      (table.names.filterMap fun s => (o.text? table u s).map fun _ => outputPlace d s) := by
  refine ((files_perm hall h).map _).trans (.of_eq ?_)
  rw [List.map_filterMap]
  refine List.filterMap_congr fun s hs => ?_
  simp only [Option.map_map, Function.comp_def, (hw s hs).2]

theorem places_nodup :
    ((steps.filterMap Step.file?).map fun file => w.placeOf file.1).Nodup := by
  have hnames : table.names.Nodup := table.sections.distinct
  rw [(places_perm hall h hw).nodup_iff]
  refine hnames.filterMap fun s t p hs ht => ?_
  obtain ⟨_, -, rfl⟩ := Option.map_eq_some_iff.mp hs
  obtain ⟨_, -, heq⟩ := Option.map_eq_some_iff.mp ht
  exact outputPlace_injective heq.symm

/-- The text of a section ends in its place. -/
theorem exists_written (hi : u.interface ≠ none) (hresult : World.Performed w verbose {} steps result)
    {s : String} (hs : s ∈ table.names) :
    ∃ text, o.text? table u s = some text ∧ result.2.file? (outputPlace d s) = some text := by
  have hsome : (o.text? table u s).isSome = true := by
    rw [EmitOptions.text?, isSome_render]
    exact Option.isSome_iff_ne_none.mpr hi
  obtain ⟨text, htext⟩ := Option.isSome_iff_exists.mp hsome
  have hfile : (sectionFile o.directory s, text) ∈ steps.filterMap Step.file? := by
    rw [(files_perm hall h).mem_iff, List.mem_filterMap]
    exact ⟨s, hs, by rw [htext, Option.map_some]⟩
  refine ⟨text, htext, ?_⟩
  rw [← (hw s hs).2]
  exact hresult.file?_of_mem (places_nodup hall h hw) (hw s hs).1 hfile

theorem file?_elsewhere (hresult : World.Performed w verbose {} steps result) {p : Place}
    (hp : ∀ s ∈ table.names, p ≠ outputPlace d s) : result.2.file? p = w.file? p := by
  refine hresult.file?_of_not_mem fun hmem => ?_
  obtain ⟨s, hs, hsp⟩ := List.mem_filterMap.mp ((places_perm hall h hw).mem_iff.mp hmem)
  obtain ⟨_, -, heq⟩ := Option.map_eq_some_iff.mp hsp
  exact hp s hs heq.symm

end Interleaved

/-! ## The outcome -/

/-- The outcome of the passes for all sections of a table, with the files at a place. -/
structure AllEmitted (o : EmitOptions) (table : Snippet.Table) (u : PackageUnit) (w : World)
    (d : Place) (result : Tally × World) : Prop where
  /-- Every section has a file of its own, with a name that stays in the directory. -/
  distinct : (table.names.map outputName).Nodup
  separators : ∀ s ∈ table.names, '/' ∉ (outputName s).toList ∧ '\\' ∉ (outputName s).toList
  /-- The diagnostics of each section in order, none lost and none reported twice. -/
  shuffled : Interleaving (table.names.map (o.notes table u)) result.1.diagnostics
  errors : errorCount result.1.diagnostics =
    (table.names.map fun s => errorCount (o.notes table u s)).sum
  warnings : warningCount result.1.diagnostics =
    (table.names.map fun s => warningCount (o.notes table u s)).sum
  refused : result.1.refused = []
  written : u.interface ≠ none → ∀ s ∈ table.names, ∃ text,
    o.text? table u s = some text ∧ result.2.file? (outputPlace d s) = some text
  /-- No other file is touched, and no directory. -/
  others : ∀ p, (∀ s ∈ table.names, p ≠ outputPlace d s) → result.2.file? p = w.file? p
  directories : result.2.directories = w.directories
  untouched : u.interface = none → result.2.files = w.files
  status : o.status table u = .missingInterface ↔ u.interface = none ∧ table.names ≠ []

/-- The outcome depends on no more than what performing the interleaved steps leaves behind. -/
theorem AllEmitted.of_performed {source : String} (hload : Snippet.Table.load source = .ok table)
    (hall : o.target = .all) (hd : w.place? o.directory = some d)
    (hwrites : ∀ s ∈ table.names, (w.write (sectionFile o.directory s) "").isSome = true)
    (h : Interleaving (o.stepsByPass table u) steps)
    (hresult : World.Performed w verbose {} steps result) : AllEmitted o table u w d result := by
  have hnames : table.names.Nodup := table.sections.distinct
  have hfault (s : String) (hs : s ∈ table.names) : nameFault? .sectionName s = none :=
    Snippet.Table.nameFault?_of_load hload hs
  have hw : SectionsWritable o table w d := fun s hs =>
    writable_sectionFile (hfault s hs) hd (hwrites s hs)
  have hshuffled : Interleaving (table.names.map (o.notes table u)) result.1.diagnostics := by
    have hdiagnostics : result.1.diagnostics = steps.filterMap Step.report? := hresult.diagnostics
    rw [hdiagnostics]
    exact reports_interleaved hall h
  have hcount (p : Diagnostic → Bool) : result.1.diagnostics.countP p =
      (table.names.map fun s => (o.notes table u s).countP p).sum := by
    rw [hshuffled.perm.countP_eq, List.countP_flatten, List.map_map]
    rfl
  refine ⟨?distinct, ?separators, hshuffled, hcount _, hcount _, ?refused, ?written,
    ?others, hresult.places.directories, ?untouched, ?status⟩
  case distinct => exact hnames.map fun _ _ => outputName_injective
  case separators =>
    intro s hs
    exact ⟨not_mem_outputName (hfault s hs) (by decide) (by decide),
      not_mem_outputName (hfault s hs) (by decide) (by decide)⟩
  case refused =>
    rw [hresult.refused, refusedPaths_eq_nil hall h hw]
    rfl
  case written => exact fun hi s hs => exists_written hall h hw hi hresult hs
  case others => exact fun p hp => file?_elsewhere hall h hw hresult hp
  case untouched => exact fun hi => files_untouched hall h hi hresult
  case status =>
    rw [o.status_eq_missingInterface_iff, EmitOptions.passes, hall]
    simp

/-- However the passes of a loaded table are interleaved, the outcome is that of the passes alone,
when the files of the sections can be written before the first step. -/
theorem EmitOptions.allEmitted {source : String} (hload : Snippet.Table.load source = .ok table)
    (hall : o.target = .all) (u : PackageUnit)
    (hd : w.place? o.directory = some d)
    (hwrites : ∀ s ∈ table.names, (w.write (sectionFile o.directory s) "").isSome = true)
    (h : Interleaving (o.stepsByPass table u) steps) (verbose : Bool) :
    AllEmitted o table u w d ((performAll World.host verbose {} steps).run w) :=
  .of_performed hload hall hd hwrites h (World.performed w verbose {} steps)

end

/-- The second of two passes starts before the first one and ends after it. -/
theorem EmitOptions.allEmitted_nested :
    let source := "[a]\nfile = \"x\"\n[b-1]\n"
    let table := Snippet.tableOf [("a", [("file", "x")]), ("b-1", [])]
    let o : EmitOptions := { ast := "u.json", snippets := "t.toml", target := .all }
    let u : PackageUnit := { package := "p", version := ⟨1, 0⟩, interface := some { name := "I" } }
    ∃ first second rest, o.stepsByPass table u = [first, second :: rest] ∧
      Snippet.Table.load source = .ok table ∧
      AllEmitted o table u World.workplace ["tmp", "work"]
        ((performAll World.host true {} (second :: (first ++ rest))).run World.workplace) := by
  intro source table o u
  have hload : Snippet.Table.load source = .ok table := by decide +kernel
  have hpasses : ∃ first second rest, o.stepsByPass table u = [first, second :: rest] :=
    ⟨_, _, _, rfl⟩
  obtain ⟨first, second, rest, hpasses⟩ := hpasses
  have hnested : Interleaving (o.stepsByPass table u) (second :: (first ++ rest)) := by
    have hrest := Interleaving.flatten [first, rest]
    rw [List.flatten_cons, List.flatten_cons, List.flatten_nil, List.append_nil] at hrest
    rw [hpasses]
    exact .cons [first] second hrest
  refine ⟨first, second, rest, hpasses, hload, ?_⟩
  exact EmitOptions.allEmitted hload rfl u (by decide) (by decide) hnested true

end IdlStencil.CommandLine
