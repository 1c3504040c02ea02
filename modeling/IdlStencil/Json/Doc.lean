import IdlStencil.Json.Token

/-!
JSON documents, read as far as they go. A text that is not JSON still has a document: the part
before the fault is kept, a value that cannot be read is `torn`, and an array or object that is not
closed says so. A decoder that walks the document from left to right then meets the first fault of
the text in its place among the things it objects to itself.

Main definitions: `Doc` and `Document`, the reader `Document.ofText`, and two degrees of soundness.
`Doc.skippable` is enough for a value nobody looks at; `Doc.holdable` is what it takes to keep a
value for later.
-/

namespace IdlStencil.Json

/-- A JSON value as far as its text goes. A string or key without text has an unpaired surrogate. -/
inductive Doc where
  | null
  | bool (b : Bool)
  | number (n : Number)
  | string (text : Option String)
  | array (items : List Doc) (closed : Bool)
  | object (members : List (Option String × Doc)) (closed : Bool)
  /-- No value stands here. -/
  | torn
  deriving Repr

/-- A document, and whether anything but blanks follows its value. -/
structure Document where
  root : Doc
  trailing : Bool
  deriving Repr

/-! ## Reading -/

/-- An array or object that is being read, with what came before, last first. -/
inductive Frame where
  | array (items : List Doc)
  | object (members : List (Option String × Doc)) (key : Option String)

/-- The value around an open frame once the value inside it is complete. -/
def Frame.fill (inner : Doc) (closed : Bool) : Frame → Doc
  | .array items => .array (inner :: items).reverse closed
  | .object members key => .object ((key, inner) :: members).reverse closed

/-- The document when the text fails inside the open frames. -/
def tear (inner : Doc) (frames : List Frame) : Document :=
  ⟨frames.foldl (fun inner frame => frame.fill inner false) inner, false⟩

mutual

/-- Reads a value inside the open frames. -/
def readValue (frames : List Frame) : List Token → Document
  | .null :: ts => readRest frames .null ts
  | .bool b :: ts => readRest frames (.bool b) ts
  | .number n :: ts => readRest frames (.number n) ts
  | .string s :: ts => readRest frames (.string s) ts
  | .openBracket :: .closeBracket :: ts => readRest frames (.array [] true) ts
  | .openBracket :: ts => readValue (.array [] :: frames) ts
  | .openBrace :: .closeBrace :: ts => readRest frames (.object [] true) ts
  | .openBrace :: .string key :: .colon :: ts => readValue (.object [] key :: frames) ts
  | .openBrace :: .string key :: _ => tear (.object [(key, .torn)] false) frames
  | .openBrace :: _ => tear (.object [] false) frames
  | _ => tear .torn frames

/-- Goes on after a complete value inside the open frames. -/
def readRest (frames : List Frame) (value : Doc) (ts : List Token) : Document :=
  match frames, ts with
  | [], ts => ⟨value, !ts.isEmpty⟩
  | .array items :: frames, .closeBracket :: ts =>
    readRest frames ((Frame.array items).fill value true) ts
  | .array items :: frames, .comma :: .closeBracket :: _ =>
    tear ((Frame.array items).fill value false) frames
  | .array items :: frames, .comma :: ts => readValue (.array (value :: items) :: frames) ts
  | .object members key :: frames, .closeBrace :: ts =>
    readRest frames ((Frame.object members key).fill value true) ts
  | .object members key :: frames, .comma :: .string next :: .colon :: ts =>
    readValue (.object ((key, value) :: members) next :: frames) ts
  | .object members key :: frames, .comma :: .string next :: _ =>
    tear ((Frame.object ((key, value) :: members) next).fill .torn false) frames
  | frame :: frames, _ => tear (frame.fill value false) frames

end

def Document.ofText (text : String) : Document := readValue [] (tokens text.toList)

/-! ## Soundness -/

mutual

/-- Nothing inside is torn or left open. -/
def Doc.skippable : Doc → Bool
  | .array items closed => closed && skippableItems items
  | .object members closed => closed && skippableMembers members
  | .torn => false
  | _ => true

def skippableItems : List Doc → Bool
  | [] => true
  | d :: ds => d.skippable && skippableItems ds

def skippableMembers : List (Option String × Doc) → Bool
  | [] => true
  | (_, d) :: ds => d.skippable && skippableMembers ds

end

mutual

/-- Skippable, and moreover every string has a text, every number a value, and arrays and objects
nest at most `room` deep. -/
def Doc.holdable (room : Nat) : Doc → Bool
  | .null | .bool _ => true
  | .number n => n.value?.isSome
  | .string s => s.isSome
  | .array items closed =>
    match room with
    | 0 => false
    | room + 1 => closed && holdableItems room items
  | .object members closed =>
    match room with
    | 0 => false
    | room + 1 => closed && holdableMembers room members
  | .torn => false

def holdableItems (room : Nat) : List Doc → Bool
  | [] => true
  | d :: ds => d.holdable room && holdableItems room ds

def holdableMembers (room : Nat) : List (Option String × Doc) → Bool
  | [] => true
  | (key, d) :: ds => key.isSome && d.holdable room && holdableMembers room ds

end

end IdlStencil.Json
