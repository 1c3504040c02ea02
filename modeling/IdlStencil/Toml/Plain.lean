import IdlStencil.Decimal.Binary64
import IdlStencil.Toml.Strings

/-!
The values of TOML that are written without quotes or brackets: booleans, integers, floating point
numbers, dates and times. The form of a word tells which of them it is. A date or time has to be one
at once, while a number of the right form may turn out to have no value.
-/

namespace IdlStencil.Toml

open Decimal (Binary64 Magnitude)

inductive Plain where
  | boolean (b : Bool)
  | integer (n : Int)
  | float (x : Binary64)
  /-- A word with the form of a number that spells none, or one too large to be held. It is only
  refused where its value is asked for. -/
  | valueless
  /-- A date, a time, or both. -/
  | moment
  deriving DecidableEq, Repr

/-! ## Digits -/

def isDigitOf (base : Nat) (c : Char) : Bool := (Json.hexDigit? c).any (· < base)

/-- The number spelled by digits in a base. -/
def number (base : Nat) (ds : List Char) : Nat :=
  ds.foldl (fun n c => n * base + (Json.hexDigit? c).getD 0) 0

/-- The text without its underscores, each of which stands between two digits; `behind` tells
whether the text comes behind a digit. -/
def dropUnderscores? (isDigit : Char → Bool) (behind : Bool) : List Char → Option (List Char)
  | [] => some []
  | ['_'] => none
  | '_' :: c :: cs =>
    if behind && isDigit c then (dropUnderscores? isDigit true cs).map (c :: ·) else none
  | c :: cs => (dropUnderscores? isDigit (isDigit c) cs).map (c :: ·)

/-- The sign of a number, where it has one, and what follows it. -/
def splitSign : List Char → Option Char × List Char
  | '+' :: cs => (some '+', cs)
  | '-' :: cs => (some '-', cs)
  | cs => (none, cs)

/-- A number with its sign. -/
def signed (sign : Option Char) (n : Nat) : Int := if sign = some '-' then -n else n

/-! ## Integers -/

/-- The integer that digits spell, if they are digits of the base. -/
def integer (base : Nat) (sign : Option Char) (ds : List Char) : Plain :=
  if !ds.isEmpty && ds.all (isDigitOf base) then .integer (signed sign (number base ds))
  else .valueless

/-- An integer in another base than ten, from behind the two characters that name the base. It may
be without digits. -/
def based? (base : Nat) (cs : List Char) : Option Plain :=
  if cs.all fun c => c = '_' || isDigitOf base c then
    (dropUnderscores? (isDigitOf base) false cs).map (integer base none)
  else none

/-- An integer in base ten, from behind its sign. The first digit is no zero unless it stands
alone. Letters count as digits at the underscores. -/
def decimal? (sign : Option Char) (cs : List Char) : Option Plain :=
  if cs.head? = some '0' && cs ≠ ['0'] then none
  else (dropUnderscores? (isDigitOf 16) false cs).map (integer 10 sign)

/-! ## Floating point numbers -/

def isExponentMark (c : Char) : Bool := c = 'e' ∨ c = 'E'

/-- The digits of the fraction, where there is one, and what follows them. -/
def fraction? : List Char → Option (List Char × List Char)
  | '.' :: cs =>
    let ds := cs.takeWhile Char.isDigit
    if ds.isEmpty then none else some (ds, cs.dropWhile Char.isDigit)
  | cs => some ([], cs)

/-- The exponent, where there is one, up to the end. -/
def exponent? : List Char → Option Int
  | [] => some 0
  | c :: cs =>
    let (sign, ds) := splitSign cs
    if isExponentMark c && !ds.isEmpty && ds.all Char.isDigit then some (signed sign (number 10 ds))
    else none

/-- A number with a fraction, an exponent or both, from behind its sign. The first digit is no zero
unless it is the only one before the fraction. -/
def float? (sign : Option Char) (cs : List Char) : Option Plain := do
  let ds ← dropUnderscores? Char.isDigit false cs
  let whole := ds.takeWhile Char.isDigit
  if whole.isEmpty || (cs.head? = some '0' && 1 < whole.length) then none
  else
    let (fraction, rest) ← fraction? (ds.dropWhile Char.isDigit)
    let exponent ← exponent? rest
    match Magnitude.ofDecimal? (number 10 (whole ++ fraction)) (exponent - fraction.length) with
    | some x => return .float (.finite (sign = some '-') x)
    | none => return .valueless

/-! ## Dates and times -/

/-- A number of exactly `n` decimal digits, and what follows them. -/
def fixedDigits? (n : Nat) (cs : List Char) : Option (Nat × List Char) :=
  let ds := cs.take n
  if ds.length = n && ds.all Char.isDigit then some (number 10 ds, cs.drop n) else none

def expect? (c : Char) : List Char → Option (List Char)
  | d :: cs => if d = c then some cs else none
  | [] => none

def daysInMonth (year month : Nat) : Nat :=
  if month = 2 then
    if year % 4 = 0 && (year % 100 ≠ 0 || year % 400 = 0) then 29 else 28
  else if month = 4 ∨ month = 6 ∨ month = 9 ∨ month = 11 then 30
  else 31

/-- A date; gives what follows it. -/
def date? (cs : List Char) : Option (List Char) := do
  let (year, cs) ← fixedDigits? 4 cs
  let (month, cs) ← fixedDigits? 2 (← expect? '-' cs)
  let (day, cs) ← fixedDigits? 2 (← expect? '-' cs)
  if 1 ≤ month && month ≤ 12 && 1 ≤ day && day ≤ daysInMonth year month then some cs else none

/-- Seconds with an optional fraction, where there are any. -/
def seconds? : List Char → Option (List Char)
  | ':' :: cs => do
    let (second, cs) ← fixedDigits? 2 cs
    if 60 < second then none
    else
      match cs with
      | '.' :: cs =>
        if (cs.takeWhile Char.isDigit).isEmpty then none else some (cs.dropWhile Char.isDigit)
      | cs => some cs
  | cs => some cs

/-- A time of day; gives what follows it. -/
def time? (cs : List Char) : Option (List Char) := do
  let (hour, cs) ← fixedDigits? 2 cs
  let (minute, cs) ← fixedDigits? 2 (← expect? ':' cs)
  if 23 < hour || 59 < minute then none else seconds? cs

/-- The distance from universal time, where there is one, up to the end. -/
def offset? : List Char → Option Unit
  | [] => some ()
  | ['Z'] | ['z'] => some ()
  | sign :: cs =>
    if sign = '+' ∨ sign = '-' then do
      let (hour, cs) ← fixedDigits? 2 cs
      let (minute, cs) ← fixedDigits? 2 (← expect? ':' cs)
      if hour ≤ 23 && minute ≤ 59 && cs.isEmpty then some () else none
    else none

/-- A date, a date with a time, or a time. -/
def moment? (cs : List Char) : Option Unit :=
  match date? cs with
  | some [] => some ()
  | some (separator :: cs) =>
    if separator = 'T' ∨ separator = 't' ∨ separator = ' ' then do offset? (← time? cs) else none
  | none => do if (← time? cs).isEmpty then some () else none

/-! ## All of them -/

/-- A number, a date or a time. What follows the first digits tells which. Only dates have spaces
inside. -/
def numeric? (word : List Char) : Option Plain :=
  let (sign, cs) := splitSign word
  match cs.dropWhile Char.isDigit with
  | [] => if cs.isEmpty then none else decimal? sign cs
  | c :: rest =>
    if c = '-' ∨ c = ':' then (moment? word).map fun _ => .moment
    else if rest.contains ' ' then none
    else if (c :: rest).any fun c => c = '.' || isExponentMark c then float? sign cs
    else if c = '_' then decimal? sign cs
    else none

/-- The value of an unquoted word. -/
def plain? : List Char → Option Plain
  | ['t', 'r', 'u', 'e'] => some (.boolean true)
  | ['f', 'a', 'l', 's', 'e'] => some (.boolean false)
  | '0' :: 'x' :: cs => based? 16 cs
  | '0' :: 'o' :: cs => based? 8 cs
  | '0' :: 'b' :: cs => based? 2 cs
  | word =>
    match splitSign word with
    | (sign, ['i', 'n', 'f']) => some (.float (.infinite (sign = some '-')))
    | (_, ['n', 'a', 'n']) => some (.float .nan)
    | _ => numeric? word

/-! ## Where a word ends -/

/-- A character of an unquoted word. -/
def isWordChar (c : Char) : Bool :=
  c ∉ [' ', '\t', '\n', '\r', '#', '=', ',', '[', ']', '\x7b', '\x7d']

/-- An unquoted word begins here. -/
def startsWord : List Char → Bool
  | [] => false
  | c :: _ => isWordChar c && c ∉ ['"', '\'', '.']

/-- The unquoted word at the start of a text. As a date and a time may have a blank between them,
words with nothing but blanks between them are one word. -/
def splitWord (cs : List Char) : List Char × List Char :=
  let word := cs.takeWhile isWordChar
  match _ : cs.dropWhile isWordChar with
  | [] => (word, [])
  | c :: rest =>
    let more := rest.dropWhile isBlank
    if isBlank c && startsWord more then
      let (tail, rest') := splitWord more
      (word ++ c :: rest.takeWhile isBlank ++ tail, rest')
    else (word, c :: rest)
termination_by cs.length
decreasing_by
  have := (List.dropWhile_sublist isWordChar (l := cs)).length_le
  have := (List.dropWhile_sublist isBlank (l := rest)).length_le
  grind

end IdlStencil.Toml
