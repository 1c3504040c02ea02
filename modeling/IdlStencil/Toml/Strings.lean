import IdlStencil.Json.Token

/-!
The strings of TOML and what stands between its values: blanks, newlines and comments. A function
that reads a part of the text gives what follows it; none means that the text is malformed.
-/

namespace IdlStencil.Toml

open Json (hexDigit?)

def isBlank (c : Char) : Bool := c = ' ' ∨ c = '\t'

/-- A character that may stand in a comment or, short of the delimiters, in a string: no control
character except the tab. -/
def isVisible (c : Char) : Bool := c = '\t' ∨ (0x20 ≤ c.toNat ∧ c.toNat ≠ 0x7f)

def dropBlanks (cs : List Char) : List Char := cs.dropWhile isBlank

/-- Passes over blanks, newlines and comments. A carriage return stands only before a newline. -/
def skipTrivia : (inComment : Bool) → List Char → Option (List Char)
  | _, [] => some []
  | _, '\n' :: cs => skipTrivia false cs
  | _, '\r' :: '\n' :: cs => skipTrivia false cs
  | true, c :: cs => if isVisible c then skipTrivia true cs else none
  | false, c :: cs =>
    if isBlank c then skipTrivia false cs
    else if c = '#' then skipTrivia true cs
    else some (c :: cs)

/-- The end of a line, after blanks and a comment, or of the text. -/
def endLine (cs : List Char) : Option (List Char) :=
  match dropBlanks cs with
  | [] => some []
  | '\n' :: cs => some cs
  | '\r' :: '\n' :: cs => some cs
  | '#' :: cs => skipTrivia true cs
  | _ => none

/-! ## Escapes -/

/-- The character whose code point is spelled by hexadecimal digits. -/
def codePoint? (ds : List Char) : Option Char := do
  let n ← ds.foldlM (fun n c => (hexDigit? c).map (n * 16 + ·)) 0
  if n < 0xd800 ∨ (0xdfff < n ∧ n < 0x110000) then some (Char.ofNat n) else none

def namedEscape? (c : Char) : Option Char :=
  if c = '"' ∨ c = '\\' then some c
  else if c = 'b' then some '\x08'
  else if c = 't' then some '\t'
  else if c = 'n' then some '\n'
  else if c = 'f' then some '\x0c'
  else if c = 'r' then some '\r'
  else if c = 'e' then some '\x1b'
  else none

/-! ## Strings on one line -/

/-- A string in double quotes, from behind the opening one. -/
def basicString : List Char → Option (List Char × List Char)
  | [] => none
  | '"' :: rest => some ([], rest)
  | '\\' :: 'x' :: a :: b :: rest => do
    let c ← codePoint? [a, b]
    let (cs, rest) ← basicString rest
    return (c :: cs, rest)
  | '\\' :: 'u' :: a :: b :: c :: d :: rest => do
    let c ← codePoint? [a, b, c, d]
    let (cs, rest) ← basicString rest
    return (c :: cs, rest)
  | '\\' :: 'U' :: a :: b :: c :: d :: e :: f :: g :: h :: rest => do
    let c ← codePoint? [a, b, c, d, e, f, g, h]
    let (cs, rest) ← basicString rest
    return (c :: cs, rest)
  | '\\' :: e :: rest => do
    let c ← namedEscape? e
    let (cs, rest) ← basicString rest
    return (c :: cs, rest)
  | c :: rest =>
    if isVisible c then do
      let (cs, rest) ← basicString rest
      return (c :: cs, rest)
    else none

/-- A string in single quotes, from behind the opening one. -/
def literalString : List Char → Option (List Char × List Char)
  | [] => none
  | '\'' :: rest => some ([], rest)
  | c :: rest =>
    if isVisible c then do
      let (cs, rest) ← literalString rest
      return (c :: cs, rest)
    else none

/-! ## Strings over several lines -/

/-- The newline right behind the opening quotes does not count. -/
def dropFirstBreak : List Char → List Char
  | '\n' :: cs => cs
  | '\r' :: '\n' :: cs => cs
  | cs => cs

/-- Where a string over several lines stands: in its text, on the rest of a line whose end is
escaped, or in the blanks and newlines after such a line. -/
inductive Fold where
  | text
  | lineEnd
  | lineStart

/-- A string between triple double quotes, from behind the opening ones. One or two more quotes may
stand right before the closing ones. -/
def longBasicString : Fold → List Char → Option (List Char × List Char)
  | _, [] => none
  | .lineEnd, '\n' :: rest => longBasicString .lineStart rest
  | .lineEnd, '\r' :: '\n' :: rest => longBasicString .lineStart rest
  | .lineEnd, c :: rest => if isBlank c then longBasicString .lineEnd rest else none
  | .lineStart, '\n' :: rest => longBasicString .lineStart rest
  | .lineStart, '\r' :: '\n' :: rest => longBasicString .lineStart rest
  | .lineStart, ' ' :: rest => longBasicString .lineStart rest
  | .lineStart, '\t' :: rest => longBasicString .lineStart rest
  | _, '"' :: '"' :: '"' :: '"' :: '"' :: rest => some (['"', '"'], rest)
  | _, '"' :: '"' :: '"' :: '"' :: rest => some (['"'], rest)
  | _, '"' :: '"' :: '"' :: rest => some ([], rest)
  | _, '\\' :: 'x' :: a :: b :: rest => do
    let c ← codePoint? [a, b]
    let (cs, rest) ← longBasicString .text rest
    return (c :: cs, rest)
  | _, '\\' :: 'u' :: a :: b :: c :: d :: rest => do
    let c ← codePoint? [a, b, c, d]
    let (cs, rest) ← longBasicString .text rest
    return (c :: cs, rest)
  | _, '\\' :: 'U' :: a :: b :: c :: d :: e :: f :: g :: h :: rest => do
    let c ← codePoint? [a, b, c, d, e, f, g, h]
    let (cs, rest) ← longBasicString .text rest
    return (c :: cs, rest)
  | _, '\\' :: '\n' :: rest => longBasicString .lineStart rest
  | _, '\\' :: '\r' :: '\n' :: rest => longBasicString .lineStart rest
  | _, '\\' :: ' ' :: rest => longBasicString .lineEnd rest
  | _, '\\' :: '\t' :: rest => longBasicString .lineEnd rest
  | _, '\\' :: e :: rest => do
    let c ← namedEscape? e
    let (cs, rest) ← longBasicString .text rest
    return (c :: cs, rest)
  | _, '\n' :: rest => do
    let (cs, rest) ← longBasicString .text rest
    return ('\n' :: cs, rest)
  | _, '\r' :: '\n' :: rest => do
    let (cs, rest) ← longBasicString .text rest
    return ('\r' :: '\n' :: cs, rest)
  | _, c :: rest =>
    if isVisible c then do
      let (cs, rest) ← longBasicString .text rest
      return (c :: cs, rest)
    else none

/-- A string between triple single quotes, from behind the opening ones. -/
def longLiteralString : List Char → Option (List Char × List Char)
  | [] => none
  | '\'' :: '\'' :: '\'' :: '\'' :: '\'' :: rest => some (['\'', '\''], rest)
  | '\'' :: '\'' :: '\'' :: '\'' :: rest => some (['\''], rest)
  | '\'' :: '\'' :: '\'' :: rest => some ([], rest)
  | '\n' :: rest => do
    let (cs, rest) ← longLiteralString rest
    return ('\n' :: cs, rest)
  | '\r' :: '\n' :: rest => do
    let (cs, rest) ← longLiteralString rest
    return ('\r' :: '\n' :: cs, rest)
  | c :: rest =>
    if isVisible c then do
      let (cs, rest) ← longLiteralString rest
      return (c :: cs, rest)
    else none

/-- A string of any of the four kinds; none where no string starts. -/
def anyString? : List Char → Option (Option (List Char × List Char))
  | '"' :: '"' :: '"' :: rest => some (longBasicString .text (dropFirstBreak rest))
  | '"' :: rest => some (basicString rest)
  | '\'' :: '\'' :: '\'' :: rest => some (longLiteralString (dropFirstBreak rest))
  | '\'' :: rest => some (literalString rest)
  | _ => none

end IdlStencil.Toml
