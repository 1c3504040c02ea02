import IdlStencil.Proofs.AllSections

/-!
# Runs of commands

What the commands that render a unit do in a world that holds their inputs: how they end, what they log
and print, and which files they leave. Emitting opens the inputs, makes the directory for all sections,
performs its steps, and logs what was reported unless a file was refused (`runEmit_eq`). For one section
this leaves the text of the section in one place and its diagnostics in the log (`runEmit_one`); for all
sections it is the outcome of the passes one after another (`runEmit_all`). A check leaves the files as
they are (`runCheck_checked`).
-/

namespace IdlStencil.CommandLine

open Idl (PackageUnit)

/-- The files of a command hold a table and a unit. -/
structure World.Holds (w : World) (snippets ast : String) (table : Snippet.Table) (u : PackageUnit) :
    Prop where
  table : ∃ source, w.read snippets = some source ∧ Snippet.Table.load source = .ok table
  unit : ∃ text, w.read ast = some text ∧
    (Json.Document.ofText text).decode PackageUnit.read = .ok u

/-- The world with a text at the end of its log. -/
def World.logged (w : World) (text : String) : World := { w with log := w.log ++ text }

/-- The world in which the inputs of a command have been read. -/
def World.opened (w : World) (verbose : Bool) (u : PackageUnit) : World :=
  w.logged (if verbose then loadedRecord u else "")

variable {table : Snippet.Table} {u : PackageUnit} {w : World}

theorem World.logged_empty (w : World) : w.logged "" = w := by
  simp [World.logged]

theorem World.logged_logged (w : World) (s t : String) : (w.logged s).logged t = w.logged (s ++ t) := by
  simp [World.logged, String.append_assoc]

/-! ## Inputs and logs -/

theorem run_bind_ok {α β : Type} {x : ExceptT Failure (StateM World) α}
    {f : α → ExceptT Failure (StateM World) β} {after : World} {a : α}
    (h : x.run.run w = (.ok a, after)) : (x >>= f).run.run w = (f a).run.run after := by
  rw [ExceptT.run_bind, StateT.run_bind, h]
  rfl

theorem run_readFile {path text : String} (hread : w.read path = some text) :
    (liftM (World.host.readFile path) : ExceptT Failure (StateM World) (Option String)).run.run w =
      (.ok (some text), w) := by
  rw [← hread]
  rfl

theorem run_openTable {path source : String} (hread : w.read path = some source)
    (hload : Snippet.Table.load source = .ok table) :
    (openTable World.host path).run.run w = (.ok table, w) := by
  rw [openTable, run_bind_ok (run_readFile hread)]
  simp only [hload]
  rfl

theorem run_openUnit {path text : String} (hread : w.read path = some text)
    (hdecode : (Json.Document.ofText text).decode PackageUnit.read = .ok u) (verbose : Bool) :
    (openUnit World.host verbose path).run.run w = (.ok u, w.opened verbose u) := by
  rw [openUnit, run_bind_ok (run_readFile hread)]
  simp only [hdecode]
  cases verbose with
  | false => exact congrArg (Prod.mk (Except.ok u)) w.logged_empty.symm
  | true => rfl

/-- A command goes on with the inputs that the world holds. -/
theorem World.Holds.run_open {snippets ast : String} (h : w.Holds snippets ast table u) (verbose : Bool)
    (next : Snippet.Table → PackageUnit → ExceptT Failure (StateM World) Verdict) :
    (do
      let table ← openTable World.host snippets
      let u ← openUnit World.host verbose ast
      next table u).run.run w = (next table u).run.run (w.opened verbose u) := by
  obtain ⟨source, hsource, hload⟩ := h.table
  obtain ⟨text, htext, hdecode⟩ := h.unit
  rw [run_bind_ok (run_openTable hsource hload), run_bind_ok (run_openUnit htext hdecode verbose)]

theorem run_makeDirectory (path : String) (w : World) :
    (liftM (World.host.makeDirectory path) : ExceptT Failure (StateM World) Bool).run.run w =
      (.ok (w.makeDirectory path).2, (w.makeDirectory path).1) :=
  rfl

theorem run_lift {α : Type} (x : StateM World α) (w : World) :
    (ExceptT.lift x : ExceptT Failure (StateM World) α).run.run w = (.ok (x.run w).1, (x.run w).2) :=
  rfl

theorem run_logLines (lines : List String) (w : World) :
    (logLines World.host lines).run w = ((), w.logged (String.join (lines.map (· ++ "\n")))) := by
  induction lines generalizing w with
  | nil => exact congrArg (Prod.mk ()) w.logged_empty.symm
  | cons line lines ih =>
    have hlog : (World.host.log (line ++ "\n")).run w = ((), w.logged (line ++ "\n")) := rfl
    rw [logLines, StateT.run_bind, hlog]
    refine (ih (w.logged (line ++ "\n"))).trans ?_
    rw [World.logged_logged, List.map_cons, String.join_cons]

/-! ## Emitting -/

section

variable {o : EmitOptions}

/-- Where the passes start, and whether they can: all sections need their directory. -/
def EmitOptions.prepare (o : EmitOptions) (w : World) : World × Bool :=
  if o.target = .all then w.makeDirectory o.directory else (w, true)

/-- How emitting ends when no file is refused. -/
def EmitOptions.verdict (o : EmitOptions) (table : Snippet.Table) (u : PackageUnit) :
    Except Failure Verdict :=
  if u.interface = none ∧ o.passes table ≠ [] then .error (.nothingWritten o.ast) else .ok .fine

/-- How emitting ends after its steps. -/
def EmitOptions.ending (o : EmitOptions) (table : Snippet.Table) (u : PackageUnit)
    (result : Tally × World) : Except Failure Verdict × World :=
  match result.1.refused with
  | path :: _ => (.error (.fileRefused path), result.2)
  | [] =>
    (o.verdict table u,
      result.2.logged (String.join (result.1.diagnostics.map fun d => d.text ++ "\n")))

theorem run_runPasses (verbose : Bool) (o : EmitOptions) (table : Snippet.Table) (u : PackageUnit)
    (w : World) :
    (runPasses World.host verbose o table u).run.run w =
      o.ending table u ((performAll World.host verbose {} (o.steps table u)).run w) := by
  rw [runPasses, run_bind_ok (run_lift _ w)]
  generalize (performAll World.host verbose {} (o.steps table u)).run w = result
  obtain ⟨⟨diagnostics, refused⟩, after⟩ := result
  cases refused with
  | cons path paths => rfl
  | nil =>
    have hmissing := o.status_eq_missingInterface_iff table u
    dsimp only [EmitOptions.ending]
    rw [run_bind_ok (run_lift _ after), run_logLines, List.map_map, EmitOptions.verdict]
    cases hstatus : o.status table u with
    | missingInterface =>
      rw [if_pos (hmissing.mp hstatus)]
      rfl
    | written _ =>
      have hnot : ¬ (u.interface = none ∧ o.passes table ≠ []) := by simp [← hmissing, hstatus]
      rw [if_neg hnot]
      rfl

theorem runEmit_eq (h : w.Holds o.snippets o.ast table u) (verbose : Bool) :
    (runEmit World.host verbose o).run.run w =
      if (o.prepare (w.opened verbose u)).2 then
        o.ending table u ((performAll World.host verbose {} (o.steps table u)).run
          (o.prepare (w.opened verbose u)).1)
      else (.error (.directoryRefused o.directory), (o.prepare (w.opened verbose u)).1) := by
  rw [runEmit, h.run_open verbose]
  generalize w.opened verbose u = opened
  by_cases htarget : o.target = .all
  · have hmake := run_makeDirectory o.directory opened
    simp only [htarget, EmitOptions.prepare, if_true]
    rw [run_bind_ok hmake]
    cases hmade : (opened.makeDirectory o.directory).2 with
    | true => exact run_runPasses verbose o table u _
    | false => rfl
  · simp only [htarget, EmitOptions.prepare, if_false, if_true]
    exact run_runPasses verbose o table u opened

theorem ending_of_not_refused {result : Tally × World} (h : result.1.refused = []) :
    o.ending table u result = (o.verdict table u,
      result.2.logged (String.join (result.1.diagnostics.map fun d => d.text ++ "\n"))) := by
  rw [EmitOptions.ending, h]

theorem exists_place_of_makeDirectory {start : World} {path : String}
    (h : w.makeDirectory path = (start, true)) : ∃ d, start.place? path = some d := by
  unfold World.makeDirectory at h
  split at h
  · cases h
  · obtain ⟨rfl, hmade⟩ := Prod.mk.inj h
    obtain ⟨d, hd, -⟩ := (Option.any_eq_true _ _).mp (Bool.and_eq_true_iff.mp hmade).2
    exact ⟨d, hd⟩

theorem samePlaces_opened (w : World) (verbose : Bool) (u : PackageUnit) :
    World.SamePlaces w (w.opened verbose u) :=
  ⟨rfl, rfl⟩

/-- Apart from a verbose run, the log is that of before. -/
theorem exists_records_of_opened {verbose : Bool} {steps : List Step} {result : Tally × World}
    (h : World.Performed (w.opened verbose u) verbose {} steps result) :
    ∃ records, (verbose = false → records = "") ∧ result.2.log = w.log ++ records := by
  refine ⟨(if verbose then loadedRecord u else "") ++ (w.opened verbose u).records verbose steps,
    fun hquiet => ?_, ?_⟩
  · simp [hquiet, World.records]
  · rw [h.log, ← String.append_assoc]
    rfl

/-- The outcome of emitting one section. -/
structure OneEmitted (o : EmitOptions) (table : Snippet.Table) (u : PackageUnit) (verbose : Bool)
    (w : World) (sectionName : String) (result : Except Failure Verdict × World) : Prop where
  verdict : result.1 = if u.interface = none then .error (.nothingWritten o.ast) else .ok .fine
  /-- The diagnostics end the log, behind the records of a verbose run. -/
  log : ∃ records, (verbose = false → records = "") ∧ result.2.log = w.log ++ records ++
    String.join ((o.notes table u sectionName).map fun d => d.text ++ "\n")
  /-- Without a file for it the text is printed. -/
  printed : result.2.printed =
    w.printed ++ if o.output = none then (o.text? table u sectionName).getD "" else ""
  files : result.2.files = insertPairs w.files (o.output.bind fun path =>
    (o.text? table u sectionName).bind fun text => w.kept? (path, text)).toList

theorem steps_one {sectionName : String} (htarget : o.target = .one sectionName) :
    o.steps table u = passSteps (o.emission table sectionName) u ((o.output.map .file).getD .print) := by
  rw [EmitOptions.steps, EmitOptions.stepsByPass, EmitOptions.passes, htarget]
  cases o.output with
  | none => exact List.append_nil _
  | some path => exact List.append_nil _

section One

variable {sectionName : String} (htarget : o.target = .one sectionName)
include htarget

theorem reports_one : (o.steps table u).filterMap Step.report? = o.notes table u sectionName := by
  rw [steps_one htarget, report_passSteps, EmitOptions.notes]

theorem files_one : (o.steps table u).filterMap Step.file? = (o.output.bind fun path =>
    (o.text? table u sectionName).map fun text => (path, text)).toList := by
  rw [steps_one htarget, delivery_passSteps (fun _ => rfl) (fun _ => rfl), EmitOptions.text?]
  cases o.output <;> cases ((o.emission table sectionName).render u).value <;> rfl

theorem prints_one : String.join ((o.steps table u).filterMap Step.print?) =
    if o.output = none then (o.text? table u sectionName).getD "" else "" := by
  rw [steps_one htarget, delivery_passSteps (fun _ => rfl) (fun _ => rfl), EmitOptions.text?]
  cases o.output <;> cases ((o.emission table sectionName).render u).value <;> simp [Step.print?]

/-- Emitting a section whose file, if it is to have one, can be written. -/
theorem runEmit_one (h : w.Holds o.snippets o.ast table u)
    (haccepts : ∀ path ∈ o.output, w.accepts path = true) (verbose : Bool) :
    OneEmitted o table u verbose w sectionName ((runEmit World.host verbose o).run.run w) := by
  have hprepare : o.prepare (w.opened verbose u) = (w.opened verbose u, true) := by
    simp [EmitOptions.prepare, htarget]
  have hplaces := samePlaces_opened w verbose u
  have hresult := World.performed (w.opened verbose u) verbose {} (o.steps table u)
  rw [runEmit_eq h, hprepare, if_pos rfl]
  generalize (performAll World.host verbose {} (o.steps table u)).run (w.opened verbose u) = result
    at hresult
  have hdiagnostics : result.1.diagnostics = o.notes table u sectionName := by
    rw [hresult.diagnostics, reports_one htarget]
    rfl
  have hrefused : result.1.refused = [] := by
    rw [hresult.refused, World.refusedPaths, files_one htarget, hplaces.accepts_eq]
    cases houtput : o.output with
    | none => rfl
    | some path =>
      cases o.text? table u sectionName with
      | none => rfl
      | some text => simp [haccepts path houtput]
  rw [ending_of_not_refused hrefused]
  refine ⟨?verdict, ?log, ?printed, ?files⟩
  case verdict => simp [EmitOptions.verdict, EmitOptions.passes, htarget]
  case log =>
    obtain ⟨records, hquiet, hlog⟩ := exists_records_of_opened hresult
    refine ⟨records, hquiet, ?_⟩
    rw [← hdiagnostics, ← hlog]
    rfl
  case printed => exact hresult.printed.trans (congrArg (w.printed ++ ·) (prints_one htarget))
  case files =>
    refine hresult.files.trans (congrArg (insertPairs w.files) ?_)
    rw [World.keptFiles, files_one htarget, hplaces.kept?_eq]
    cases o.output with
    | none => rfl
    | some path =>
      cases o.text? table u sectionName with
      | none => rfl
      | some text => cases hkept : w.kept? (path, text) <;> simp [hkept]

end One

/-- Emitting all sections, when the directory can be made and the files in it can be written, is taking
the passes one after another. -/
theorem runEmit_all {start : World} (h : w.Holds o.snippets o.ast table u) (hall : o.target = .all)
    {verbose : Bool} (hmade : (w.opened verbose u).makeDirectory o.directory = (start, true))
    (hwrites : ∀ s ∈ table.names, (start.write (sectionFile o.directory s) "").isSome = true) :
    ∃ d result, start.place? o.directory = some d ∧ AllEmitted o table u start d result ∧
      result.1.diagnostics = table.names.flatMap (o.notes table u) ∧
      (runEmit World.host verbose o).run.run w =
        (if u.interface = none ∧ table.names ≠ [] then .error (.nothingWritten o.ast) else .ok .fine,
          result.2.logged (String.join (result.1.diagnostics.map fun d => d.text ++ "\n"))) := by
  obtain ⟨source, -, hload⟩ := h.table
  have hprepare : o.prepare (w.opened verbose u) = (start, true) := by
    rw [EmitOptions.prepare, if_pos hall, hmade]
  obtain ⟨d, hd⟩ := exists_place_of_makeDirectory hmade
  have hresult := World.performed start verbose {} (o.steps table u)
  rw [runEmit_eq h, hprepare, if_pos rfl]
  generalize (performAll World.host verbose {} (o.steps table u)).run start = result at hresult
  have hsequence : Interleaving (o.stepsByPass table u) (o.steps table u) := .flatten _
  have hemitted : AllEmitted o table u start d result :=
    .of_performed hload hall hd hwrites hsequence hresult
  refine ⟨d, result, hd, hemitted, ?_, ?_⟩
  · rw [hresult.diagnostics, EmitOptions.steps, stepsByPass_all hall, ← List.flatMap_def,
      List.filterMap_flatMap]
    exact List.flatMap_congr fun s _ => report_passSteps _ _ _
  · rw [ending_of_not_refused hemitted.refused, EmitOptions.verdict, EmitOptions.passes, hall]
    simp

-- a directory for two sections, and the same error from both
example :
    let w : World :=
      { files := [(["t.toml"], "[a]\nfile = \"x\"\n[b-1]\n"),
          (["u.json"], "[\"p\", \"1.0\", [], [], [\"I\", [[\"hal_type\"]]]]")], distinct := by decide }
    let o : EmitOptions := { ast := "u.json", snippets := "t.toml", target := .all, output := some "out" }
    let result := (runEmit World.host false o).run.run w
    let line := "error: hal_type annotation needs one string value (line 0)\n"
    result.1 = .ok .fine ∧ result.2.directories = [["out"]] ∧
      result.2.file? ["out", "a.out"] = some "x" ∧ result.2.file? ["out", "b-1.out"] = some "" ∧
      result.2.log = line ++ line := by
  decide +kernel

end

/-! ## Checking -/

/-- What a check adds to the log. -/
def CheckOptions.logged (o : CheckOptions) (checks : List SectionCheck) : String :=
  if o.json then "" else String.join ((checks.flatMap SectionCheck.lines).map (· ++ "\n"))

/-- What a check prints. -/
def CheckOptions.printed (o : CheckOptions) (checks : List SectionCheck) : String :=
  if o.json then checksJson checks else if anyError checks then "" else cleanLine o.ast checks

theorem run_showChecks (o : CheckOptions) (checks : List SectionCheck) (w : World) :
    (showChecks World.host o checks).run.run w =
      (.ok (if anyError checks then .faulty else .fine),
        { w.logged (o.logged checks) with printed := w.printed ++ o.printed checks }) := by
  obtain ⟨ast, snippets, json⟩ := o
  cases json with
  | true =>
    simp only [showChecks, CheckOptions.logged, CheckOptions.printed, if_true, World.logged_empty]
    cases anyError checks <;> rfl
  | false =>
    simp only [showChecks, CheckOptions.logged, CheckOptions.printed, Bool.false_eq_true, if_false]
    rw [run_bind_ok (run_lift _ w), run_logLines]
    cases anyError checks with
    | true =>
      simp only [if_true, String.append_empty]
      rfl
    | false => rfl

/-- The outcome of a check. -/
structure Checked (o : CheckOptions) (table : Snippet.Table) (u : PackageUnit) (verbose : Bool)
    (w : World) (result : Except Failure Verdict × World) : Prop where
  verdict : result.1 = .ok (if anyError (checkSections table u) then .faulty else .fine)
  log : ∃ records, (verbose = false → records = "") ∧
    result.2.log = w.log ++ records ++ o.logged (checkSections table u)
  printed : result.2.printed = w.printed ++ o.printed (checkSections table u)
  files : result.2.files = w.files

/-- The steps of a check deliver nothing. -/
theorem delivery_checkSteps {α : Type} {f : Step → Option α} (hlog : ∀ record, f (.log record) = none)
    (hreport : ∀ d, f (.report d) = none) (hdiscard : ∀ text, f (.deliver .discard text) = none) :
    (checkSteps table u).filterMap f = [] := by
  rw [checkSteps, List.filterMap_flatMap, List.flatMap_eq_nil_iff]
  intro name _
  simp [delivery_passSteps hlog hreport, hdiscard]

theorem runCheck_checked {o : CheckOptions} (h : w.Holds o.snippets o.ast table u) (verbose : Bool) :
    Checked o table u verbose w ((runCheck World.host verbose o).run.run w) := by
  have hresult := World.performed (w.opened verbose u) verbose {} (checkSteps table u)
  rw [runCheck, h.run_open verbose, run_bind_ok (run_lift _ _)]
  generalize (performAll World.host verbose {} (checkSteps table u)).run (w.opened verbose u) = result
    at hresult
  rw [run_showChecks]
  refine ⟨rfl, ?log, ?printed, ?files⟩
  case log =>
    obtain ⟨records, hquiet, hlog⟩ := exists_records_of_opened hresult
    exact ⟨records, hquiet, congrArg (· ++ o.logged (checkSections table u)) hlog⟩
  case printed =>
    have hprinted : result.2.printed = w.printed := by
      rw [hresult.printed, delivery_checkSteps (fun _ => rfl) (fun _ => rfl) (fun _ => rfl)]
      exact String.append_empty
    exact congrArg (· ++ o.printed (checkSections table u)) hprinted
  case files =>
    refine hresult.files.trans ?_
    rw [World.keptFiles, delivery_checkSteps (fun _ => rfl) (fun _ => rfl) (fun _ => rfl)]
    rfl

end IdlStencil.CommandLine
