/-!
Versions `major.minor`. Each part is a natural number of 32 bits; reading allows one plus sign and
leading zeros.
-/

namespace IdlStencil.Idl

structure Version where
  major : UInt32
  minor : UInt32
  deriving DecidableEq, Repr

inductive VersionError where
  | noDot (text : String)
  | badMajor
  | badMinor
  deriving DecidableEq, Repr

def VersionError.message : VersionError → String
  | .noDot text => s!"invalid version '{text}', expected 'X.Y'"
  | .badMajor => "invalid major"
  | .badMinor => "invalid minor"

namespace Version

/-- The number spelled by decimal digits, of which there is at least one. -/
def digits? (cs : List Char) : Option UInt32 :=
  if cs.isEmpty || !cs.all Char.isDigit then none
  else
    let n := cs.foldl (fun n c => n * 10 + (c.toNat - '0'.toNat)) 0
    if n < UInt32.size then some (UInt32.ofNat n) else none

/-- A part of a version. -/
def part? : List Char → Option UInt32
  | '+' :: cs => digits? cs
  | cs => digits? cs

/-- The texts before and after the first dot. -/
def splitDot? : List Char → Option (List Char × List Char)
  | [] => none
  | c :: cs => if c = '.' then some ([], cs) else (splitDot? cs).map fun (a, b) => (c :: a, b)

def parse (s : String) : Except VersionError Version :=
  match splitDot? s.toList with
  | none => .error (.noDot s)
  | some (a, b) =>
    match part? a, part? b with
    | none, _ => .error .badMajor
    | some _, none => .error .badMinor
    | some major, some minor => .ok ⟨major, minor⟩

def majorText (v : Version) : String := toString v.major.toNat

def minorText (v : Version) : String := toString v.minor.toNat

def text (v : Version) : String := v.majorText ++ "." ++ v.minorText

end Version
end IdlStencil.Idl
