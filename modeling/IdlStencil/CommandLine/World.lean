import IdlStencil.CommandLine.Path
import IdlStencil.CommandLine.Run

/-!
A world in memory: a tree of files and directories, what was printed, and the log. Commands run in
it as they do on a machine, from a directory inside the tree.
-/

namespace IdlStencil.CommandLine

/-- A place in the tree, by the names on the way to it from the root. -/
abbrev Place := List String

structure World where
  /-- The directory in which commands run. -/
  here : Place := []
  files : List (Place × String) := []
  /-- No place has two files. -/
  distinct : (files.map Prod.fst).Nodup := by simp
  /-- The directories below the root. -/
  directories : List Place := []
  printed : String := ""
  log : String := ""
  deriving DecidableEq, Repr

namespace World

/-- The file that has no text, whatever is written to it. -/
def nullDevice : Place := ["dev", "null"]

def isDirectory (w : World) (p : Place) : Bool := p.isEmpty || w.directories.contains p

def file? (w : World) (p : Place) : Option String :=
  if p = nullDevice then some "" else w.files.lookup p

/-! ## Paths -/

/-- Goes along the names of a path. Every place on the way has to be a directory, the last one
apart. The root lies above itself. -/
def follow (w : World) (p : Place) : List String → Option Place
  | [] => some p
  | name :: names =>
    if !w.isDirectory p || nameLimit < name.utf8ByteSize then none
    else if name = "" || name = "." then w.follow p names
    else if name = ".." then w.follow p.dropLast names
    else w.follow (p ++ [name]) names

/-- Where a path starts. -/
def start (w : World) (path : String) : Place :=
  if isRooted path then [] else w.here

/-- The place of a path. -/
def place? (w : World) (path : String) : Option Place :=
  if pathLimit < path.utf8ByteSize then none else w.follow (w.start path) (pathNames path)

/-! ## Files -/

def read (w : World) (path : String) : Option String := do w.file? (← w.place? path)

/-- Replaces the text of a file, or adds the file. -/
def put (w : World) (p : Place) (text : String) : World :=
  { w with files := insertPair p text w.files, distinct := nodup_insertPair p text w.distinct }

/-- Writes a file. The directory has to be there, and no directory in the place of the file. -/
def write (w : World) (path text : String) : Option World := do
  let p ← w.place? path
  if w.isDirectory p then none
  else if p = nullDevice then some w
  else some (w.put p text)

/-! ## Directories -/

/-- Makes the directories on the way along names. Those made before a name that is taken by a file
or too long stay. -/
def makeAlong (w : World) (p : Place) : List String → World × Bool
  | [] => (w, true)
  | name :: names =>
    if name = "" || name = "." then w.makeAlong p names
    else if name = ".." then w.makeAlong p.dropLast names
    else
      let q := p ++ [name]
      if w.isDirectory q then w.makeAlong q names
      else if (w.file? q).isSome || nameLimit < name.utf8ByteSize then (w, false)
      else makeAlong { w with directories := w.directories ++ [q] } q names

/-- Makes the directory of a path and those around it. -/
def makeDirectory (w : World) (path : String) : World × Bool :=
  if pathLimit < path.utf8ByteSize then (w, false)
  else
    let (w, made) := w.makeAlong (w.start path) (namesToMake path)
    (w, made && (w.place? path).any w.isDirectory)

/-- The world as a host. It has no scripts for shells. -/
def host : Host (StateM World) where
  readFile path := do return (← get).read path
  makeDirectory path := modifyGet fun w =>
    let (w, made) := w.makeDirectory path
    (made, w)
  writeFile path text := modifyGet fun w =>
    match w.write path text with
    | some w => (true, w)
    | none => (false, w)
  print text := modify fun w => { w with printed := w.printed ++ text }
  log text := modify fun w => { w with log := w.log ++ text }
  printCompletions _ := pure ()

/-- A directory for work among the directories that every machine has. -/
def workplace : World where
  here := ["tmp", "work"]
  directories := [["dev"], ["tmp"], ["tmp", "work"]]

/-- The world that holds some files at its workplace, with the directories around them. -/
def ofFiles (files : List (String × String)) : World :=
  files.foldl (fun w (path, text) =>
    let w := (w.makeAlong w.here (pathNames path).dropLast).1
    (w.write path text).getD w) workplace

/-- Runs a command line in the world. -/
def runIn (w : World) (args : List String) : Except Failure Verdict × World :=
  (run host args).run.run w

/-! ## Changes -/

/-- The path of a place from the directory in which commands run; none for places outside of it. -/
def pathOf? (w : World) (p : Place) : Option String :=
  if w.here.isPrefixOf p then some ("/".intercalate (p.drop w.here.length)) else none

/-- The files that are new or have another text than before, and the new directories, which end in
a slash and have no text, as far as they are inside the directory in which commands run. -/
def changes (before after : World) : List (String × String) :=
  ((after.directories.filter fun p => !before.directories.contains p).filterMap fun p =>
      (after.pathOf? p).map fun path => (path ++ "/", "")) ++
    (after.files.filter fun (p, text) => before.file? p ≠ some text).filterMap fun (p, text) =>
      (after.pathOf? p).map fun path => (path, text)

end World
end IdlStencil.CommandLine
