import IdlStencil.Text.Find
import IdlStencil.Toml.Table

/-!
TOML documents. The text is first read into statements, each a header or an assignment, and the
statements are then carried out on the table of the document. A text that breaks the grammar and
one whose statements contradict each other are both malformed.

Reading goes by fuel. Every call takes a character off the text or goes from one rule of the
grammar to the next, so three units a character are enough.
-/

namespace IdlStencil.Toml

open Text (byteLength)

/-- Arrays and inline tables nest at most this deep. -/
def nestingLimit : Nat := 80

/-- A key has at most so many parts. -/
def keyLimit : Nat := 80

/-- The place between two rests of a text of `total` bytes. -/
def spanBetween (total : Nat) (before after : List Char) : Span :=
  ⟨total - byteLength before, byteLength before - byteLength after⟩

/-! ## Keys -/

def isBareChar (c : Char) : Bool := c.isAlphanum || c = '_' || c = '-'

/-- One part of a key: a bare word or a string on one line. -/
def simpleKey (total : Nat) (cs : List Char) : Option (Key × List Char) := do
  let (name, rest) ← match cs with
    | '"' :: cs => basicString cs
    | '\'' :: cs => literalString cs
    | cs =>
      let name := cs.takeWhile isBareChar
      if name.isEmpty then none else some (name, cs.dropWhile isBareChar)
  return (⟨String.ofList name, spanBetween total cs rest⟩, rest)

/-- The parts of a key, of which there is `room` for so many: those before the last one, and the
last one. -/
def keyParts (total : Nat) : (room : Nat) → List Char → Option (List Key × Key × List Char)
  | 0, _ => none
  | room + 1, cs => do
    let (key, rest) ← simpleKey total cs
    match dropBlanks rest with
    | '.' :: rest =>
      let (path, last, rest) ← keyParts total room (dropBlanks rest)
      return (key :: path, last, rest)
    | rest => return ([], key, rest)

/-- A key of one or more parts with dots between them. -/
def dottedKey (total : Nat) (cs : List Char) : Option (List Key × Key × List Char) :=
  keyParts total keyLimit cs

/-! ## Values -/

mutual

/-- A value, with `room` for so many more open brackets around values inside it. -/
def value (total : Nat) : (fuel room : Nat) → List Char → Option (Item × List Char)
  | 0, _, _ => none
  | fuel + 1, room, cs =>
    match anyString? cs with
    | some read => read.map fun (s, rest) => (.text (String.ofList s), rest)
    | none =>
      match cs, room with
      | '[' :: cs, room + 1 => do
        let (items, rest) ← arrayItems total fuel room cs
        return (.array items, rest)
      | '\x7b' :: cs, room + 1 => do
        let (t, rest) ← inlineEntries total fuel room ⟨.header, []⟩ cs
        return (.table { t with origin := .inline }, rest)
      | cs, _ => do
        let (word, rest) := splitWord cs
        return (.plain (← plain? word), rest)

/-- The items of an array, up to and with its closing bracket. -/
def arrayItems (total : Nat) : (fuel room : Nat) → List Char → Option (List Item × List Char)
  | 0, _, _ => none
  | fuel + 1, room, cs => do
    match ← skipTrivia false cs with
    | ']' :: rest => return ([], rest)
    | cs =>
      let (item, rest) ← value total fuel room cs
      match ← skipTrivia false rest with
      | ']' :: rest => return ([item], rest)
      | ',' :: rest =>
        let (items, rest) ← arrayItems total fuel room rest
        return (item :: items, rest)
      | _ => none

/-- The entries of an inline table, added to those that are there, up to and with its closing
brace. -/
def inlineEntries (total : Nat) :
    (fuel room : Nat) → Table → List Char → Option (Table × List Char)
  | 0, _, _, _ => none
  | fuel + 1, room, t, cs => do
    match ← skipTrivia false cs with
    | '\x7d' :: rest => return (t, rest)
    | cs =>
      let (path, key, rest) ← dottedKey total cs
      let cs ← skipTrivia false (← expect? '=' (← skipTrivia false rest))
      let (item, rest) ← value total fuel room cs
      let t ← t.assign path key (spanBetween total cs rest) item
      match ← skipTrivia false rest with
      | '\x7d' :: rest => return (t, rest)
      | ',' :: rest => inlineEntries total fuel room t rest
      | _ => none

end

/-! ## Statements -/

inductive Statement where
  | header (path : List Key) (key : Key) (span : Span)
  /-- A header in double brackets. -/
  | nextHeader (path : List Key) (key : Key) (span : Span)
  | assignment (path : List Key) (key : Key) (span : Span) (item : Item)

/-- A statement, up to the end of its line. -/
def statement (total fuel : Nat) (cs : List Char) : Option (Statement × List Char) :=
  match cs with
  | '[' :: '[' :: inner => do
    let (path, key, rest) ← dottedKey total (dropBlanks inner)
    let rest ← expect? ']' (← expect? ']' rest)
    return (.nextHeader path key (spanBetween total cs rest), ← endLine rest)
  | '[' :: inner => do
    let (path, key, rest) ← dottedKey total (dropBlanks inner)
    let rest ← expect? ']' rest
    return (.header path key (spanBetween total cs rest), ← endLine rest)
  | cs => do
    let (path, key, rest) ← dottedKey total cs
    let cs := dropBlanks (← expect? '=' rest)
    let (item, rest) ← value total fuel nestingLimit cs
    return (.assignment path key (spanBetween total cs rest) item, ← endLine rest)

def statements (total : Nat) : (fuel : Nat) → List Char → Option (List Statement)
  | 0, _ => none
  | fuel + 1, cs => do
    match ← skipTrivia false cs with
    | [] => return []
    | cs =>
      let (s, rest) ← statement total fuel cs
      return s :: (← statements total fuel rest)

/-! ## Carrying statements out -/

/-- Carries statements out on the table of the document; assignments go to the table at the path of
the last header. -/
def build (current : List Key) : List Statement → Table → Option Table
  | [], t => some t
  | .header path key span :: rest, t => do build (path ++ [key]) rest (← t.openTable path key span)
  | .nextHeader path key span :: rest, t => do
    build (path ++ [key]) rest (← t.openNext path key span)
  | .assignment path key span item :: rest, t => do
    build current rest (← t.modify false (·.assign path key span item) current)

/-- The text behind a byte order mark. -/
def dropMark : List Char → List Char
  | '\ufeff' :: cs => cs
  | cs => cs

/-- The table of a document; none when the text is malformed. -/
def parse? (text : String) : Option Table := do
  let cs := text.toList
  let found ← statements (byteLength cs) (3 * cs.length + 3) (dropMark cs)
  build [] found ⟨.header, []⟩

end IdlStencil.Toml
