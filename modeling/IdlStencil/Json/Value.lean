/-!
JSON values and the two ways they are written: compact, without blanks, and indented, with one
member or item a line. Members keep their order.
-/

namespace IdlStencil.Json

inductive Value where
  | null
  | bool (b : Bool)
  | number (n : Int)
  | string (s : String)
  | array (items : List Value)
  | object (members : List (String × Value))
  deriving Repr

/-! ## Strings -/

/-- One character of a written string. Only quotes, backslashes and control characters are
escaped. -/
def escapeChar (c : Char) : List Char :=
  if c = '"' then ['\\', '"']
  else if c = '\\' then ['\\', '\\']
  else if c = '\x08' then ['\\', 'b']
  else if c = '\x0c' then ['\\', 'f']
  else if c = '\n' then ['\\', 'n']
  else if c = '\r' then ['\\', 'r']
  else if c = '\t' then ['\\', 't']
  else if c.toNat < 0x20 then
    ['\\', 'u', '0', '0', Nat.digitChar (c.toNat / 16), Nat.digitChar (c.toNat % 16)]
  else [c]

def writeString (s : String) : List Char :=
  ['"'] ++ s.toList.flatMap escapeChar ++ ['"']

/-! ## Numbers -/

def writeInt (n : Int) : List Char :=
  if n < 0 then '-' :: Nat.toDigits 10 n.natAbs else Nat.toDigits 10 n.natAbs

/-! ## Compact form -/

mutual

def Value.write : Value → List Char
  | .null => ['n', 'u', 'l', 'l']
  | .bool true => ['t', 'r', 'u', 'e']
  | .bool false => ['f', 'a', 'l', 's', 'e']
  | .number n => writeInt n
  | .string s => writeString s
  | .array items => ['['] ++ writeItems items ++ [']']
  | .object members => ['\x7b'] ++ writeMembers members ++ ['\x7d']

def writeItems : List Value → List Char
  | [] => []
  | [v] => v.write
  | v :: vs => v.write ++ [','] ++ writeItems vs

def writeMembers : List (String × Value) → List Char
  | [] => []
  | [(key, v)] => writeString key ++ [':'] ++ v.write
  | (key, v) :: vs => writeString key ++ [':'] ++ v.write ++ [','] ++ writeMembers vs

end

def Value.compact (v : Value) : String := String.ofList v.write

/-! ## Indented form -/

/-- The start of a line at a depth: two blanks a level. -/
def newLine (depth : Nat) : List Char := '\n' :: List.replicate (2 * depth) ' '

mutual

/-- The indented form of a value that stands at a depth. -/
def Value.indent (depth : Nat) : Value → List Char
  | .array (item :: items) =>
    ['['] ++ newLine (depth + 1) ++ item.indent (depth + 1) ++ indentItems (depth + 1) items ++
      newLine depth ++ [']']
  | .object ((key, v) :: members) =>
    ['\x7b'] ++ newLine (depth + 1) ++ writeString key ++ [':', ' '] ++ v.indent (depth + 1) ++
      indentMembers (depth + 1) members ++ newLine depth ++ ['\x7d']
  | v => v.write

def indentItems (depth : Nat) : List Value → List Char
  | [] => []
  | v :: vs => [','] ++ newLine depth ++ v.indent depth ++ indentItems depth vs

def indentMembers (depth : Nat) : List (String × Value) → List Char
  | [] => []
  | (key, v) :: vs =>
    [','] ++ newLine depth ++ writeString key ++ [':', ' '] ++ v.indent depth ++
      indentMembers depth vs

end

def Value.pretty (v : Value) : String := String.ofList (v.indent 0)

end IdlStencil.Json
