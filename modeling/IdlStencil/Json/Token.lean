import IdlStencil.Json.Number

/-!
The tokens of a JSON text. The text is cut from left to right, blanks between tokens being
skipped, up to its end or to the first place where no token stands; that place is marked by a token
of its own, and what follows it is not looked at.

A string whose escapes leave half a surrogate pair is a token, but one without a text.
-/

namespace IdlStencil.Json

inductive Token where
  | openBrace
  | closeBrace
  | openBracket
  | closeBracket
  | comma
  | colon
  | null
  | bool (b : Bool)
  | number (n : Number)
  | string (text : Option String)
  | junk
  deriving DecidableEq, Repr

/-! ## Strings -/

/-- A piece of a string: a character, or a UTF-16 unit written by its number. -/
inductive Piece where
  | char (c : Char)
  | unit (n : Nat)
  deriving DecidableEq, Repr

def hexDigit? (c : Char) : Option Nat :=
  if '0' ≤ c ∧ c ≤ '9' then some (c.toNat - '0'.toNat)
  else if 'a' ≤ c ∧ c ≤ 'f' then some (c.toNat - 'a'.toNat + 10)
  else if 'A' ≤ c ∧ c ≤ 'F' then some (c.toNat - 'A'.toNat + 10)
  else none

def hexUnit? (a b c d : Char) : Option Nat := do
  return (((← hexDigit? a) * 16 + (← hexDigit? b)) * 16 + (← hexDigit? c)) * 16 + (← hexDigit? d)

/-- The character named by one letter after a backslash. -/
def namedEscape? (c : Char) : Option Char :=
  if c = '"' ∨ c = '\\' ∨ c = '/' then some c
  else if c = 'b' then some '\x08'
  else if c = 'f' then some '\x0c'
  else if c = 'n' then some '\n'
  else if c = 'r' then some '\r'
  else if c = 't' then some '\t'
  else none

/-- The pieces of a string up to its closing quote, and the text after that quote. Control
characters have to be escaped. -/
def scanPieces : List Char → Option (List Piece × List Char)
  | [] => none
  | '"' :: rest => some ([], rest)
  | '\\' :: 'u' :: a :: b :: c :: d :: rest => do
    let n ← hexUnit? a b c d
    let (pieces, rest) ← scanPieces rest
    return (.unit n :: pieces, rest)
  | '\\' :: e :: rest => do
    let c ← namedEscape? e
    let (pieces, rest) ← scanPieces rest
    return (.char c :: pieces, rest)
  | c :: rest =>
    if c.toNat < 0x20 then none
    else do
      let (pieces, rest) ← scanPieces rest
      return (.char c :: pieces, rest)

def isHighSurrogate (n : Nat) : Bool := 0xd800 ≤ n && n < 0xdc00

def isLowSurrogate (n : Nat) : Bool := 0xdc00 ≤ n && n < 0xe000

/-- The text of the pieces; none when a surrogate stands without its partner. -/
def joinPieces : List Piece → Option (List Char)
  | [] => some []
  | .char c :: ps => do return c :: (← joinPieces ps)
  | .unit high :: .unit low :: ps =>
    if isHighSurrogate high then
      if isLowSurrogate low then do
        return Char.ofNat (0x10000 + (high - 0xd800) * 0x400 + (low - 0xdc00)) :: (← joinPieces ps)
      else none
    else if isLowSurrogate high then none
    else do return Char.ofNat high :: (← joinPieces (.unit low :: ps))
  | .unit n :: ps =>
    if isHighSurrogate n || isLowSurrogate n then none
    else do return Char.ofNat n :: (← joinPieces ps)

/-! ## Numbers -/

def digitValue (c : Char) : Nat := c.toNat - '0'.toNat

/-- A non-empty run of digits and the text after it. -/
def scanDigits? (cs : List Char) : Option (List Nat × List Char) :=
  let ds := cs.takeWhile Char.isDigit
  if ds.isEmpty then none else some (ds.map digitValue, cs.dropWhile Char.isDigit)

/-- The digits before the point. A zero stands alone. -/
def scanWhole? (cs : List Char) : Option (List Nat × List Char) := do
  let (ds, rest) ← scanDigits? cs
  if ds.length ≠ 1 && ds.head? = some 0 then none else return (ds, rest)

def scanFraction? : List Char → Option (Option (List Nat) × List Char)
  | '.' :: cs => do
    let (ds, rest) ← scanDigits? cs
    return (some ds, rest)
  | cs => some (none, cs)

def digitsValue (ds : List Nat) : Nat := ds.foldl (fun n d => n * 10 + d) 0

def scanExponentDigits? (negative : Bool) (cs : List Char) : Option (Option Int × List Char) := do
  let (ds, rest) ← scanDigits? cs
  let n : Int := digitsValue ds
  return (some (if negative then -n else n), rest)

def scanExponent? : List Char → Option (Option Int × List Char)
  | c :: cs =>
    if c = 'e' ∨ c = 'E' then
      match cs with
      | '+' :: cs => scanExponentDigits? false cs
      | '-' :: cs => scanExponentDigits? true cs
      | cs => scanExponentDigits? false cs
    else some (none, c :: cs)
  | [] => some (none, [])

/-- A number without its sign, and the text after it. -/
def scanNumber? (negative : Bool) (cs : List Char) : Option (Number × List Char) := do
  let (whole, rest) ← scanWhole? cs
  let (fraction, rest) ← scanFraction? rest
  let (exponent, rest) ← scanExponent? rest
  return (⟨negative, whole, fraction, exponent⟩, rest)

/-! ## The cut -/

def isBlank (c : Char) : Bool := c = ' ' ∨ c = '\n' ∨ c = '\t' ∨ c = '\r'

/-- The token that starts with the character `c`, and the text after it. -/
def tokenAt (c : Char) (cs : List Char) : Token × List Char :=
  let orJunk : Option (Token × List Char) → Token × List Char := (·.getD (.junk, []))
  if c = '\x7b' then (.openBrace, cs)
  else if c = '\x7d' then (.closeBrace, cs)
  else if c = '[' then (.openBracket, cs)
  else if c = ']' then (.closeBracket, cs)
  else if c = ',' then (.comma, cs)
  else if c = ':' then (.colon, cs)
  else if c = '"' then
    orJunk ((scanPieces cs).map fun (pieces, rest) =>
      (.string ((joinPieces pieces).map String.ofList), rest))
  else if c = '-' then orJunk ((scanNumber? true cs).map fun (n, rest) => (.number n, rest))
  else if c.isDigit then
    orJunk ((scanNumber? false (c :: cs)).map fun (n, rest) => (.number n, rest))
  else
    match c, cs with
    | 'n', 'u' :: 'l' :: 'l' :: rest => (.null, rest)
    | 't', 'r' :: 'u' :: 'e' :: rest => (.bool true, rest)
    | 'f', 'a' :: 'l' :: 's' :: 'e' :: rest => (.bool false, rest)
    | _, _ => (.junk, [])

/-! Every token takes at least one character, so the cut comes to an end. -/

theorem scanPieces_length {cs rest : List Char} {ps : List Piece}
    (h : scanPieces cs = some (ps, rest)) : rest.length < cs.length := by
  fun_induction scanPieces cs generalizing ps rest with
  | case1 => simp at h
  | case2 r => simp_all
  | case3 a b c d r ih =>
    simp only [Option.bind_eq_bind, Option.bind_eq_some_iff] at h
    obtain ⟨_, _, ⟨qs, r'⟩, hr, h⟩ := h
    have := ih hr
    simp at h
    simp only [List.length_cons, ← h.2]
    omega
  | case4 e r _ ih =>
    simp only [Option.bind_eq_bind, Option.bind_eq_some_iff] at h
    obtain ⟨_, _, ⟨qs, r'⟩, hr, h⟩ := h
    have := ih hr
    simp at h
    simp only [List.length_cons, ← h.2]
    omega
  | case5 => simp at h
  | case6 c r _ _ _ _ ih =>
    simp only [Option.bind_eq_bind, Option.bind_eq_some_iff] at h
    obtain ⟨⟨qs, r'⟩, hr, h⟩ := h
    have := ih hr
    simp at h
    simp only [List.length_cons, ← h.2]
    omega

theorem length_dropWhile_le (p : Char → Bool) (cs : List Char) :
    (cs.dropWhile p).length ≤ cs.length :=
  (List.dropWhile_sublist p).length_le

theorem scanDigits?_length {cs rest : List Char} {ds : List Nat}
    (h : scanDigits? cs = some (ds, rest)) : rest.length < cs.length := by
  cases cs with
  | nil => simp [scanDigits?] at h
  | cons c cs =>
    simp only [scanDigits?] at h
    by_cases hc : c.isDigit
    · simp [hc] at h
      have := length_dropWhile_le Char.isDigit cs
      simp only [List.length_cons, ← h.2]
      omega
    · simp [hc] at h

theorem scanWhole?_length {cs rest : List Char} {ds : List Nat}
    (h : scanWhole? cs = some (ds, rest)) : rest.length < cs.length := by
  simp only [scanWhole?, Option.bind_eq_bind, Option.bind_eq_some_iff] at h
  obtain ⟨⟨ds', r⟩, hr, h⟩ := h
  split at h
  · simp at h
  · simp at h
    exact h.2 ▸ scanDigits?_length hr

theorem scanFraction?_length {cs rest : List Char} {f : Option (List Nat)}
    (h : scanFraction? cs = some (f, rest)) : rest.length ≤ cs.length := by
  unfold scanFraction? at h
  split at h
  · simp only [Option.bind_eq_bind, Option.bind_eq_some_iff] at h
    obtain ⟨⟨ds, r⟩, hr, h⟩ := h
    have := scanDigits?_length hr
    simp at h
    simp only [List.length_cons, ← h.2]
    omega
  · simp at h
    simp [h.2]

theorem scanExponentDigits?_length {negative : Bool} {cs rest : List Char} {e : Option Int}
    (h : scanExponentDigits? negative cs = some (e, rest)) : rest.length ≤ cs.length := by
  simp only [scanExponentDigits?, Option.bind_eq_bind, Option.bind_eq_some_iff] at h
  obtain ⟨⟨ds, r⟩, hr, h⟩ := h
  have := scanDigits?_length hr
  simp at h
  rw [← h.2]
  omega

theorem scanExponent?_length {cs rest : List Char} {e : Option Int}
    (h : scanExponent? cs = some (e, rest)) : rest.length ≤ cs.length := by
  unfold scanExponent? at h
  split at h
  · split at h
    · split at h <;> have := scanExponentDigits?_length h <;> simp_all only [List.length_cons] <;>
        omega
    · simp at h
      simp [← h.2]
  · simp at h
    simp [h.2]

theorem scanNumber?_length {negative : Bool} {cs rest : List Char} {n : Number}
    (h : scanNumber? negative cs = some (n, rest)) : rest.length < cs.length := by
  simp only [scanNumber?, Option.bind_eq_bind, Option.bind_eq_some_iff] at h
  obtain ⟨⟨w, r₁⟩, h₁, ⟨f, r₂⟩, h₂, ⟨e, r₃⟩, h₃, h⟩ := h
  have := scanWhole?_length h₁
  have := scanFraction?_length h₂
  have := scanExponent?_length h₃
  simp at h
  simp_all only
  omega

theorem tokenAt_length (c : Char) (cs : List Char) : (tokenAt c cs).2.length ≤ cs.length := by
  unfold tokenAt
  repeat' split
  all_goals try simp
  · cases h : scanPieces cs with
    | none => simp
    | some r =>
      obtain ⟨ps, rest⟩ := r
      have := scanPieces_length h
      simp
      omega
  · cases h : scanNumber? true cs with
    | none => simp
    | some r =>
      obtain ⟨n, rest⟩ := r
      have := scanNumber?_length h
      simp
      omega
  · cases h : scanNumber? false (c :: cs) with
    | none => simp
    | some r =>
      obtain ⟨n, rest⟩ := r
      have := scanNumber?_length h
      simp at this
      simp
      omega
  all_goals omega

/-- The tokens of a text. -/
def tokens : List Char → List Token
  | [] => []
  | c :: cs =>
    if isBlank c then tokens cs
    else
      let next := tokenAt c cs
      if next.1 = .junk then [.junk] else next.1 :: tokens next.2
termination_by cs => cs.length
decreasing_by
  · simp
  · have := tokenAt_length c cs
    simp only [List.length_cons]
    omega

end IdlStencil.Json
