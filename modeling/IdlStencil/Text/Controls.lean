/-!
Terminal controls in a text. A terminal obeys some characters instead of showing them: the control
characters, and the sequences that an escape character opens. `withoutControls` leaves out what a
terminal would obey, except for the controls that are white space.
-/

namespace IdlStencil.Text

/-- Where a text stands, as a terminal reads it. -/
inductive ControlState where
  /-- Outside of sequences. -/
  | plain
  /-- Right behind an escape character. -/
  | escape
  /-- In an escape sequence with characters before its last one. -/
  | longEscape
  /-- In a control sequence, up to its final letter. -/
  | control
  /-- In a command to the system around the terminal, up to a bell. -/
  | command
  /-- At the start of a device string. -/
  | deviceStart
  /-- In the parameters of a device string. -/
  | deviceParameters
  /-- Behind the parameters of a device string. -/
  | deviceMarks
  /-- In a string that only its terminator ends. -/
  | string
  deriving DecidableEq, Repr

def isControl (c : Char) : Bool := c.toNat < 0x20 ∨ c.toNat = 0x7f

/-- White space among the control characters. -/
def isSpacing (c : Char) : Bool := c = '\t' ∨ c = '\n' ∨ c = '\x0c' ∨ c = '\r'

/-- The terminator of a string is a byte, also where it is only part of a character. -/
def holdsTerminator (c : Char) : Bool := (String.utf8EncodeChar c).contains 0x9c

namespace ControlState

/-- The state after a character that is no escape character and cancels nothing. -/
def next (state : ControlState) (c : Char) : ControlState :=
  let within (low high : Nat) : Bool := low ≤ c.toNat ∧ c.toNat ≤ high
  match state with
  | .plain => .plain
  | .escape =>
    if within 0x20 0x2f then .longEscape
    else if c = '[' then .control
    else if c = ']' then .command
    else if c = 'P' then .deviceStart
    else if c = 'X' ∨ c = '^' ∨ c = '_' then .string
    else if within 0x30 0x7e then .plain
    else .escape
  | .longEscape => if within 0x30 0x7e then .plain else .longEscape
  | .control => if within 0x40 0x7e then .plain else .control
  | .command => if c = '\x07' then .plain else .command
  | .deviceStart =>
    if within 0x20 0x2f then .deviceMarks
    else if within 0x30 0x3f then .deviceParameters
    else if within 0x40 0x7e then .string
    else .deviceStart
  | .deviceParameters =>
    if within 0x20 0x2f then .deviceMarks
    else if within 0x3c 0x7e then .string
    else .deviceParameters
  | .deviceMarks => if within 0x30 0x7e then .string else .deviceMarks
  | .string => if holdsTerminator c then .plain else .string

/-- A sequence that white space interrupts. -/
def isBreakable : ControlState → Bool
  | .escape | .longEscape | .control => true
  | _ => false

end ControlState

/-- A character that shows outside of sequences. -/
def isShown (c : Char) : Bool := isSpacing c || !isControl c

/-- How far a terminal has read. White space puts the sequence around it aside: what follows shows,
until a control character takes the sequence up again. -/
structure Reading where
  state : ControlState
  /-- The sequence is put aside. -/
  aside : Bool
  deriving DecidableEq, Repr

namespace Reading

/-- Before the first character. -/
def start : Reading := ⟨.plain, false⟩

/-- Reads a character: where it leads, and whether it shows. An escape character opens a new
sequence everywhere, and two of the control characters cancel one. A character beyond ASCII that
shows ends a sequence put aside. -/
def step (r : Reading) (c : Char) : Reading × Bool :=
  if c = '\x1b' then (⟨.escape, false⟩, false)
  else if c = '\x18' ∨ c = '\x1a' then (start, false)
  else if r.state = .plain then (start, isShown c)
  else if r.aside && isShown c then (if c.toNat < 0x80 then r else start, true)
  else if r.state.isBreakable && isSpacing c then (⟨r.state, true⟩, true)
  else (⟨r.state.next c, false⟩, false)

/-- The characters that show. -/
def shown (r : Reading) : List Char → List Char
  | [] => []
  | c :: cs =>
    match r.step c with
    | (r, true) => c :: r.shown cs
    | (r, false) => r.shown cs

end Reading

/-- A text without what a terminal would obey. -/
def withoutControls (s : String) : String := String.ofList (Reading.start.shown s.toList)

end IdlStencil.Text
