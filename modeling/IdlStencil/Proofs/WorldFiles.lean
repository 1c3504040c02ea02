import IdlStencil.CommandLine.World

/-!
# Files in a world

Where a path inside a directory leads (`World.place?_joinPath`), and what performing steps does to a
world (`World.performed`): the reports are collected in order, and so are the paths of the files that
cannot be written; the texts of the others are put in the places of their paths; what is printed and
logged is added at the end; and nothing changes that a path depends on. So a step meets the same places
whatever steps were taken before it.
-/

namespace IdlStencil.CommandLine

/-! ## Paths inside a directory -/

/-- A name that leads from a directory to something in it. -/
structure ProperName (name : String) : Prop where
  ne_empty : name ≠ ""
  ne_dot : name ≠ "."
  ne_dots : name ≠ ".."
  no_slash : '/' ∉ name.toList

theorem pathNames_of_no_slash {name : String} (h : '/' ∉ name.toList) : pathNames name = [name] := by
  rw [pathNames, List.splitOn_eq_singleton h, List.map_singleton, String.ofList_toList]

theorem pathNames_slash (s t : String) : pathNames (s ++ "/" ++ t) = pathNames s ++ pathNames t := by
  have hsplit : (s ++ "/" ++ t).toList = s.toList ++ '/' :: t.toList := by simp
  rw [pathNames, hsplit, List.splitOn_append_cons_self, List.map_append]
  rfl

@[simp] theorem pathNames_empty : pathNames "" = [""] := pathNames_of_no_slash (by simp)

/-- The names of a directory, up to an empty one at their end, lead to what is inside of it. -/
theorem pathNames_joinPath (directory : String) {name : String} (h : '/' ∉ name.toList) :
    ∃ front, pathNames (joinPath directory name) = front ++ [name] ∧
      (pathNames directory = front ∨ pathNames directory = front ++ [""]) := by
  cases hlast : directory.toList.getLast? with
  | none =>
    obtain rfl : directory = "" := by simpa using hlast
    refine ⟨[], ?_, .inr pathNames_empty⟩
    simp [joinPath, pathNames_of_no_slash h]
  | some c =>
    by_cases hc : c = '/'
    · obtain ⟨front, hfront⟩ := List.getLast?_eq_some_iff.mp hlast
      obtain rfl : directory = String.ofList front ++ "/" := by
        rw [← String.toList_inj, hfront, hc]
        simp
      refine ⟨pathNames (String.ofList front), ?_, .inr ?_⟩
      · simp only [joinPath, hlast, hc, Option.all_some, decide_true, if_true]
        rw [pathNames_slash, pathNames_of_no_slash h]
      · rw [← String.append_empty (s := String.ofList front ++ "/"), pathNames_slash,
          pathNames_empty]
    · refine ⟨pathNames directory, ?_, .inl rfl⟩
      simp only [joinPath, hlast, Option.all_some, hc, decide_false, Bool.false_eq_true, if_false]
      rw [pathNames_slash, pathNames_of_no_slash h]

theorem isRooted_joinPath (directory : String) {name : String} (h : '/' ∉ name.toList) :
    isRooted (joinPath directory name) = isRooted directory := by
  by_cases hempty : directory = ""
  · have hname : name.toList.head? ≠ some '/' := fun hhead => h (List.mem_of_head? hhead)
    simp [hempty, joinPath, isRooted, hname]
  · have hne : directory.toList ≠ [] := by simpa using hempty
    obtain ⟨c, cs, hcs⟩ := List.exists_cons_of_ne_nil hne
    unfold joinPath
    split <;> simp [isRooted, hcs]

namespace World

variable {w w' : World} {p d : Place} {path text : String}

theorem follow_append (w : World) (p : Place) (names rest : List String) :
    w.follow p (names ++ rest) = (w.follow p names).bind fun q => w.follow q rest := by
  induction names generalizing p with
  | nil => rfl
  | cons name names ih =>
    simp only [List.cons_append, follow, ih]
    split
    · rfl
    · split
      · rfl
      · split <;> rfl

theorem eq_of_follow_empty {q : Place} (h : w.follow p [""] = some q) : q = p := by
  simp only [follow] at h
  split at h
  · cases h
  · simpa using h.symm

theorem eq_of_follow_proper {name : String} (hname : ProperName name) {q : Place}
    (h : w.follow p [name] = some q) : q = p ++ [name] := by
  simp only [follow, hname.ne_empty, hname.ne_dot, hname.ne_dots] at h
  split at h
  · cases h
  · simpa using h.symm

theorem place?_eq_some (h : w.place? path = some p) :
    w.follow (w.start path) (pathNames path) = some p := by
  unfold place? at h
  split at h
  · cases h
  · exact h

/-- A path inside a directory leads nowhere else than into the directory. -/
theorem place?_joinPath {directory name : String} (hname : ProperName name)
    (hd : w.place? directory = some d) (hp : w.place? (joinPath directory name) = some p) :
    p = d ++ [name] := by
  obtain ⟨front, hjoin, hnames⟩ := pathNames_joinPath directory hname.no_slash
  have hfollow := place?_eq_some hp
  rw [start, isRooted_joinPath directory hname.no_slash, ← start, hjoin, follow_append] at hfollow
  obtain ⟨q, hq, hlast⟩ := Option.bind_eq_some_iff.mp hfollow
  have hqd : q = d := by
    have hdirectory := place?_eq_some hd
    rcases hnames with hfront | hfront
    · rw [hfront, hq] at hdirectory
      exact Option.some.inj hdirectory
    · rw [hfront, follow_append, hq] at hdirectory
      exact (eq_of_follow_empty hdirectory).symm
  rw [eq_of_follow_proper hname hlast, hqd]

/-! ## Writing -/

/-- The places of paths are the same in two worlds. -/
structure SamePlaces (w w' : World) : Prop where
  here : w'.here = w.here
  directories : w'.directories = w.directories

namespace SamePlaces

theorem refl (w : World) : SamePlaces w w := ⟨rfl, rfl⟩

theorem trans {w'' : World} (h : SamePlaces w w') (h' : SamePlaces w' w'') : SamePlaces w w'' :=
  ⟨h'.here.trans h.here, h'.directories.trans h.directories⟩

theorem isDirectory_eq (h : SamePlaces w w') (p : Place) : w'.isDirectory p = w.isDirectory p := by
  rw [isDirectory, isDirectory, h.directories]

theorem follow_eq (h : SamePlaces w w') (p : Place) (names : List String) :
    w'.follow p names = w.follow p names := by
  induction names generalizing p with
  | nil => rfl
  | cons name names ih => simp only [follow, h.isDirectory_eq, ih]

theorem place?_eq (h : SamePlaces w w') (path : String) : w'.place? path = w.place? path := by
  rw [place?, place?, start, start, h.here, h.follow_eq]

end SamePlaces

/-- The place of a path that leads somewhere. -/
def placeOf (w : World) (path : String) : Place := (w.place? path).getD []

theorem write_eq_map (w : World) (path text : String) :
    w.write path text = ((w.place? path).filter fun p => !w.isDirectory p).map fun p =>
      if p = nullDevice then w else w.put p text := by
  unfold write
  cases w.place? path with
  | none => rfl
  | some p =>
    cases hp : w.isDirectory p with
    | true => simp [hp, Option.filter]
    | false =>
      by_cases hnull : p = nullDevice
      · simp [hnull, hnull ▸ hp, Option.filter]
      · simp [hp, hnull, Option.filter]

/-- A text can be written at a path. -/
def accepts (w : World) (path : String) : Bool := (w.write path "").isSome

theorem accepts_eq (w : World) (path : String) :
    w.accepts path = ((w.place? path).filter fun p => !w.isDirectory p).isSome := by
  rw [accepts, write_eq_map, Option.isSome_map]

/-- The place and the text of a file that can be written and keeps its text. -/
def kept? (w : World) (file : String × String) : Option (Place × String) :=
  if w.accepts file.1 ∧ w.placeOf file.1 ≠ nullDevice then some (w.placeOf file.1, file.2) else none

/-- The world with a text written at a path, as far as it can be. -/
def written (w : World) (path text : String) : World :=
  match w.kept? (path, text) with
  | some (p, text) => w.put p text
  | none => w

theorem write_eq (w : World) (path text : String) :
    w.write path text = if w.accepts path then some (w.written path text) else none := by
  rw [write_eq_map, written, kept?, accepts_eq]
  cases hplace : (w.place? path).filter fun p => !w.isDirectory p with
  | none => rfl
  | some p =>
    have hp : w.placeOf path = p := by
      rw [placeOf, (Option.filter_eq_some_iff.mp hplace).1, Option.getD_some]
    by_cases hnull : p = nullDevice <;> simp [hp, hnull]

theorem written_of_not_accepts (h : w.accepts path = false) : w.written path text = w := by
  simp [written, kept?, h]

theorem SamePlaces.written (w : World) (path text : String) : SamePlaces w (w.written path text) := by
  unfold World.written
  split
  · exact ⟨rfl, rfl⟩
  · exact .refl w

/-- A file that keeps its text can be written at a path. -/
structure Writable (w : World) (path : String) : Prop where
  accepted : w.accepts path = true
  kept : w.placeOf path ≠ nullDevice

theorem Writable.kept?_eq (h : w.Writable path) (text : String) :
    w.kept? (path, text) = some (w.placeOf path, text) :=
  if_pos ⟨h.accepted, h.kept⟩

namespace SamePlaces

variable (h : SamePlaces w w')
include h

theorem placeOf_eq (path : String) : w'.placeOf path = w.placeOf path := by
  rw [placeOf, placeOf, h.place?_eq]

theorem accepts_eq : w'.accepts = w.accepts := by
  funext path
  simp only [World.accepts_eq, h.place?_eq, h.isDirectory_eq]

theorem kept?_eq : w'.kept? = w.kept? := by
  funext file
  rw [kept?, kept?, h.accepts_eq, h.placeOf_eq]

end SamePlaces
end World

/-! ## Performing steps -/

namespace Step

/-- The diagnostic that a step reports. -/
def report? : Step → Option Diagnostic
  | .report d => some d
  | _ => none

/-- The path and the text of the file that a step writes. -/
def file? : Step → Option (String × String)
  | .deliver (.file path) text => some (path, text)
  | _ => none

/-- The text that a step prints. -/
def print? : Step → Option String
  | .deliver .print text => some text
  | _ => none

/-- The record that a step adds to the verbose log of a world. -/
def record? (w : World) : Step → Option String
  | .log record => some record
  | .deliver (.file path) _ => if w.accepts path then some (wroteRecord path) else none
  | _ => none

end Step

section

variable {κ α : Type} [DecidableEq κ]

/-- The pairs after inserting others in order. -/
def insertPairs (pairs new : List (κ × α)) : List (κ × α) :=
  new.foldl (fun pairs (key, value) => insertPair key value pairs) pairs

variable [BEq κ] [LawfulBEq κ] {pairs new : List (κ × α)} {key : κ}

theorem lookup_insertPairs_of_not_mem (h : key ∉ new.map Prod.fst) :
    (insertPairs pairs new).lookup key = pairs.lookup key := by
  induction new generalizing pairs with
  | nil => rfl
  | cons pair new ih =>
    rw [List.map_cons, List.mem_cons, not_or] at h
    rw [insertPairs, List.foldl_cons, ← insertPairs, ih h.2, lookup_insertPair, if_neg h.1]

theorem lookup_insertPairs_of_mem {value : α} (hnew : (new.map Prod.fst).Nodup)
    (h : (key, value) ∈ new) : (insertPairs pairs new).lookup key = some value := by
  induction new generalizing pairs with
  | nil => cases h
  | cons pair new ih =>
    obtain ⟨hfirst, hrest⟩ := List.nodup_cons.mp hnew
    rw [insertPairs, List.foldl_cons, ← insertPairs]
    rcases List.mem_cons.mp h with rfl | h
    · rw [lookup_insertPairs_of_not_mem hfirst, lookup_insertPair, if_pos rfl]
    · exact ih hrest h

end

namespace World

variable {w w' : World} {tally tally' : Tally} {steps steps' : List Step} {verbose : Bool}

/-- The places and texts that steps leave in a world. -/
def keptFiles (w : World) (steps : List Step) : List (Place × String) :=
  (steps.filterMap Step.file?).filterMap w.kept?

/-- The paths that steps cannot write to. -/
def refusedPaths (w : World) (steps : List Step) : List String :=
  ((steps.filterMap Step.file?).map Prod.fst).filter fun path => !w.accepts path

/-- What steps add to the log. -/
def records (w : World) (verbose : Bool) (steps : List Step) : String :=
  if verbose then String.join (steps.filterMap (Step.record? w)) else ""

/-- What performing steps leaves behind. -/
structure Performed (w : World) (verbose : Bool) (tally : Tally) (steps : List Step)
    (result : Tally × World) : Prop where
  places : SamePlaces w result.2
  diagnostics : result.1.diagnostics = tally.diagnostics ++ steps.filterMap Step.report?
  refused : result.1.refused = tally.refused ++ w.refusedPaths steps
  files : result.2.files = insertPairs w.files (w.keptFiles steps)
  printed : result.2.printed = w.printed ++ String.join (steps.filterMap Step.print?)
  log : result.2.log = w.log ++ w.records verbose steps

theorem SamePlaces.record?_eq (h : SamePlaces w w') : Step.record? w' = Step.record? w := by
  funext step
  unfold Step.record?
  rw [h.accepts_eq]

theorem records_append (w : World) (verbose : Bool) (steps steps' : List Step) :
    w.records verbose (steps ++ steps') = w.records verbose steps ++ w.records verbose steps' := by
  cases verbose <;> simp [records]

theorem Performed.nil (w : World) (verbose : Bool) (tally : Tally) :
    Performed w verbose tally [] (tally, w) :=
  ⟨.refl w, by simp, by simp [refusedPaths], rfl, by simp, by simp [records]⟩

theorem Performed.append {result : Tally × World} (h : Performed w verbose tally steps (tally', w'))
    (h' : Performed w' verbose tally' steps' result) :
    Performed w verbose tally (steps ++ steps') result where
  places := h.places.trans h'.places
  diagnostics := by
    rw [h'.diagnostics, h.diagnostics, List.filterMap_append, List.append_assoc]
  refused := by
    rw [h'.refused, h.refused]
    simp [refusedPaths, h.places.accepts_eq]
  files := by
    rw [h'.files, h.files]
    simp [insertPairs, keptFiles, h.places.kept?_eq]
  printed := by
    rw [h'.printed, h.printed]
    simp [String.append_assoc]
  log := by
    rw [h'.log, h.log, records_append, String.append_assoc]
    simp only [records, h.places.record?_eq]

theorem run_writeFile (w : World) (path text : String) :
    (host.writeFile path text).run w = (w.accepts path, w.written path text) := by
  have hwrite := w.write_eq path text
  simp only [host, StateT.run, modifyGet, MonadStateOf.modifyGet, StateT.modifyGet, hwrite]
  cases hpath : w.accepts path with
  | true => rfl
  | false =>
    rw [written_of_not_accepts hpath]
    rfl

theorem files_written (w : World) (path text : String) :
    (w.written path text).files = insertPairs w.files (w.keptFiles [.deliver (.file path) text]) := by
  have hkept : w.keptFiles [.deliver (.file path) text] = (w.kept? (path, text)).toList := by
    simp only [keptFiles, List.filterMap_cons, List.filterMap_nil, Step.file?]
    cases w.kept? (path, text) <;> rfl
  rw [hkept, written]
  cases w.kept? (path, text) <;> rfl

theorem printed_written (w : World) (path text : String) :
    (w.written path text).printed = w.printed := by
  unfold written
  split <;> rfl

theorem log_written (w : World) (path text : String) : (w.written path text).log = w.log := by
  unfold written
  split <;> rfl

theorem performed_file (w : World) (verbose : Bool) (tally : Tally) (path text : String) :
    Performed w verbose tally [.deliver (.file path) text]
      ((perform host verbose tally (.deliver (.file path) text)).run w) := by
  have hplaces := SamePlaces.written w path text
  have hdiagnostics : tally.diagnostics = tally.diagnostics ++ [] := (List.append_nil _).symm
  have hfiles := files_written w path text
  have hprinted : (w.written path text).printed = w.printed ++ "" :=
    (printed_written w path text).trans String.append_empty.symm
  have hlog := log_written w path text
  simp only [perform, StateT.run_bind, run_writeFile]
  cases hpath : w.accepts path with
  | true =>
    have hrefused : tally.refused = tally.refused ++ w.refusedPaths [.deliver (.file path) text] := by
      simp [refusedPaths, Step.file?, hpath]
    cases verbose with
    | false =>
      have hlog : (w.written path text).log = w.log ++ "" := hlog.trans String.append_empty.symm
      exact ⟨hplaces, hdiagnostics, hrefused, hfiles, hprinted, hlog⟩
    | true =>
      have hrecords : w.records true [.deliver (.file path) text] = wroteRecord path := by
        simp [records, Step.record?, hpath]
      have hlog : (w.written path text).log ++ wroteRecord path =
          w.log ++ w.records true [.deliver (.file path) text] := by rw [hlog, hrecords]
      exact ⟨⟨hplaces.here, hplaces.directories⟩, hdiagnostics, hrefused, hfiles, hprinted, hlog⟩
  | false =>
    have hrefused : tally.refused ++ [path] =
        tally.refused ++ w.refusedPaths [.deliver (.file path) text] := by
      simp [refusedPaths, Step.file?, hpath]
    have hrecords : w.records verbose [.deliver (.file path) text] = "" := by
      cases verbose <;> simp [records, Step.record?, hpath]
    have hlog : (w.written path text).log =
        w.log ++ w.records verbose [.deliver (.file path) text] := by
      rw [hlog, hrecords, String.append_empty]
    exact ⟨hplaces, hdiagnostics, hrefused, hfiles, hprinted, hlog⟩

theorem performed_step (w : World) (verbose : Bool) (tally : Tally) (step : Step) :
    Performed w verbose tally [step] ((perform host verbose tally step).run w) := by
  have hdiagnostics : tally.diagnostics = tally.diagnostics ++ [] := (List.append_nil _).symm
  have hrefused : tally.refused = tally.refused ++ [] := (List.append_nil _).symm
  have hprinted : w.printed = w.printed ++ "" := String.append_empty.symm
  have hlog : w.log = w.log ++ w.records verbose [] := by cases verbose <;> simp [records]
  have hjoin (text : String) : text = String.join [text] := by simp
  cases step with
  | log record =>
    cases verbose with
    | false => exact ⟨.refl w, hdiagnostics, hrefused, rfl, hprinted, hlog⟩
    | true =>
      exact ⟨⟨rfl, rfl⟩, hdiagnostics, hrefused, rfl, hprinted, congrArg (w.log ++ ·) (hjoin record)⟩
  | report d => exact ⟨.refl w, rfl, hrefused, rfl, hprinted, hlog⟩
  | deliver delivery text =>
    cases delivery with
    | discard => exact ⟨.refl w, hdiagnostics, hrefused, rfl, hprinted, hlog⟩
    | print =>
      exact ⟨⟨rfl, rfl⟩, hdiagnostics, hrefused, rfl, congrArg (w.printed ++ ·) (hjoin text), hlog⟩
    | file path => exact performed_file w verbose tally path text

/-- The step lemma along a sequence of steps. -/
theorem performed (w : World) (verbose : Bool) (tally : Tally) (steps : List Step) :
    Performed w verbose tally steps ((performAll host verbose tally steps).run w) := by
  induction steps generalizing w tally with
  | nil => exact .nil w verbose tally
  | cons step steps ih => exact (performed_step w verbose tally step).append (ih _ _)

namespace Performed

variable {result : Tally × World}

theorem keys_keptFiles_sublist (w : World) (steps : List Step) :
    ((w.keptFiles steps).map Prod.fst).Sublist
      ((steps.filterMap Step.file?).map fun file => w.placeOf file.1) := by
  unfold keptFiles
  induction steps.filterMap Step.file? with
  | nil => exact .slnil
  | cons file files ih =>
    by_cases hkept : w.accepts file.1 = true ∧ w.placeOf file.1 ≠ nullDevice
    · have hfile : w.kept? file = some (w.placeOf file.1, file.2) := if_pos hkept
      rw [List.filterMap_cons_some hfile, List.map_cons, List.map_cons]
      exact ih.cons_cons _
    · have hfile : w.kept? file = none := if_neg hkept
      rw [List.filterMap_cons_none hfile, List.map_cons]
      exact ih.cons _

/-- Where files have places of their own, each of them ends with the text written to it. -/
theorem file?_of_mem (h : Performed w verbose tally steps result)
    (hdistinct : ((steps.filterMap Step.file?).map fun file => w.placeOf file.1).Nodup)
    {path text : String} (hw : w.Writable path)
    (hfile : (path, text) ∈ steps.filterMap Step.file?) :
    result.2.file? (w.placeOf path) = some text := by
  rw [World.file?, if_neg hw.kept, h.files]
  refine lookup_insertPairs_of_mem (hdistinct.sublist (keys_keptFiles_sublist w steps)) ?_
  exact List.mem_filterMap.mpr ⟨_, hfile, hw.kept?_eq text⟩

theorem file?_of_not_mem (h : Performed w verbose tally steps result) {p : Place}
    (hp : p ∉ (steps.filterMap Step.file?).map fun file => w.placeOf file.1) :
    result.2.file? p = w.file? p := by
  rw [World.file?, World.file?, h.files, lookup_insertPairs_of_not_mem]
  exact fun hmem => hp ((keys_keptFiles_sublist w steps).subset hmem)

end Performed
end World
end IdlStencil.CommandLine
