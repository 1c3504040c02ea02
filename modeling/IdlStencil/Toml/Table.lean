import IdlStencil.Toml.Plain

/-!
TOML tables with their entries in order. Every entry knows where its value stands in the text: the
value itself, the header that made a table, or the key that implied one.

A table remembers how it came about, because that decides what may be added to it later. A table
with a header is complete. One that was only passed through on the way to a longer header may still
get a header of its own, and then moves behind the entries that are there. One made by dotted keys
takes more dotted keys, and an inline table takes nothing.
-/

namespace IdlStencil.Toml

/-- A place in a text, in bytes. -/
structure Span where
  start : Nat
  length : Nat
  deriving DecidableEq, Repr

/-- How a table came about. -/
inductive Origin where
  | header
  | implied
  | dotted
  | inline
  deriving DecidableEq, Repr

mutual

inductive Item where
  | text (s : String)
  | plain (p : Plain)
  | array (items : List Item)
  | table (t : Table)
  /-- Tables under one repeated header, the last apart. -/
  | tables (earlier : List Table) (last : Table)

structure Entry where
  key : String
  span : Span
  item : Item

structure Table where
  origin : Origin
  entries : List Entry

end

/-- A key and its place in the text. -/
structure Key where
  name : String
  span : Span
  deriving DecidableEq, Repr

namespace Table

def find? (t : Table) (key : String) : Option Item :=
  (t.entries.find? fun e => e.key = key).map Entry.item

def append (t : Table) (key : String) (span : Span) (item : Item) : Table :=
  { t with entries := t.entries ++ [⟨key, span, item⟩] }

def replace (t : Table) (key : String) (item : Item) : Table :=
  { t with entries := t.entries.map fun e => if e.key = key then { e with item } else e }

def erase (t : Table) (key : String) : Table :=
  { t with entries := t.entries.filter fun e => e.key ≠ key }

/-- Applies `f` to the table at a path, making the tables that are missing on the way. A path of
dotted keys does not lead into tables with a header, no path into inline tables. -/
def modify (dotted : Bool) (f : Table → Option Table) : List Key → Table → Option Table
  | [], t => f t
  | key :: path, t =>
    match t.find? key.name with
    | none => do
      let inner ← modify dotted f path ⟨if dotted then .dotted else .implied, []⟩
      return t.append key.name key.span (.table inner)
    | some (.table inner) =>
      if inner.origin = .inline || (dotted && inner.origin = .header) then none
      else do
        let inner ← modify dotted f path inner
        return t.replace key.name (.table inner)
    | some (.tables earlier last) => do
      let last ← modify dotted f path last
      return t.replace key.name (.tables earlier last)
    | some _ => none

/-- Gives a new key a value. The keys before the last one name tables that dotted keys made. -/
def assign (t : Table) (path : List Key) (key : Key) (span : Span) (item : Item) : Option Table :=
  t.modify (!path.isEmpty) (fun parent =>
    if (parent.origin = .dotted) = path.isEmpty then none
    else if (parent.find? key.name).isSome then none
    else some (parent.append key.name span item)) path

/-- Starts the table of a header. -/
def openTable (t : Table) (path : List Key) (key : Key) (span : Span) : Option Table :=
  t.modify false (fun parent =>
    match parent.find? key.name with
    | none => some (parent.append key.name span (.table ⟨.header, []⟩))
    | some (.table inner) =>
      if inner.origin = .implied then
        some ((parent.erase key.name).append key.name span
          (.table { inner with origin := .header }))
      else none
    | some _ => none) path

/-- Starts one more table of a repeated header. -/
def openNext (t : Table) (path : List Key) (key : Key) (span : Span) : Option Table :=
  t.modify false (fun parent =>
    match parent.find? key.name with
    | none => some (parent.append key.name span (.tables [] ⟨.header, []⟩))
    | some (.tables earlier last) =>
      some (parent.replace key.name (.tables (earlier ++ [last]) ⟨.header, []⟩))
    | some _ => none) path

end Table
end IdlStencil.Toml
