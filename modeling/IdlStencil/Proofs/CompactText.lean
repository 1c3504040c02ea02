import Mathlib.Tactic.SplitIfs
import IdlStencil.Json.Doc
import IdlStencil.Json.Value

/-!
# Compact texts are read back

Cutting the compact form of a value into tokens and reading the tokens gives the value again, as a
document that is complete (`Document.ofText_compact`). Both halves are stated for an arbitrary rest:
what follows a value is only asked not to prolong a number (`NumberEnds`), and the frames around it
are never looked at.
-/

namespace IdlStencil.Json

/-! ## Values as tokens and documents -/

/-- An integer as it is spelled. -/
def spelledInt (n : Int) : Number where
  negative := n < 0
  whole := (Nat.toDigits 10 n.natAbs).map digitValue
  fraction := none
  exponent := none

mutual

def Value.tokens : Value → List Token
  | .null => [.null]
  | .bool b => [.bool b]
  | .number n => [.number (spelledInt n)]
  | .string s => [.string (some s)]
  | .array items => .openBracket :: itemTokens items ++ [.closeBracket]
  | .object members => .openBrace :: memberTokens members ++ [.closeBrace]

def itemTokens : List Value → List Token
  | [] => []
  | [v] => v.tokens
  | v :: vs => v.tokens ++ [.comma] ++ itemTokens vs

def memberTokens : List (String × Value) → List Token
  | [] => []
  | [(key, v)] => .string (some key) :: .colon :: v.tokens
  | (key, v) :: vs => .string (some key) :: .colon :: v.tokens ++ [.comma] ++ memberTokens vs

end

mutual

/-- The document of a value: nothing is torn or left open. -/
def Value.doc : Value → Doc
  | .null => .null
  | .bool b => .bool b
  | .number n => .number (spelledInt n)
  | .string s => .string (some s)
  | .array items => .array (itemDocs items) true
  | .object members => .object (memberDocs members) true

def itemDocs : List Value → List Doc
  | [] => []
  | v :: vs => v.doc :: itemDocs vs

def memberDocs : List (String × Value) → List (Option String × Doc)
  | [] => []
  | (key, v) :: vs => (some key, v.doc) :: memberDocs vs

end

/-! ## Strings -/

theorem joinPieces_char (c : Char) (ps : List Piece) :
    joinPieces (.char c :: ps) = (joinPieces ps).map (c :: ·) := by
  rw [joinPieces]
  cases joinPieces ps <;> rfl

theorem joinPieces_unit {n : Nat} (h : n < 0x20) (ps : List Piece) :
    joinPieces (.unit n :: ps) = (joinPieces ps).map (Char.ofNat n :: ·) := by
  have hh : isHighSurrogate n = false := by simp [isHighSurrogate]; omega
  have hl : isLowSurrogate n = false := by simp [isLowSurrogate]; omega
  match ps with
  | [] => simp [joinPieces, hh, hl]
  | .char c :: ps =>
    rw [joinPieces.eq_4 n (.char c :: ps) (by simp), if_neg (by simp [hh, hl])]
    cases joinPieces (.char c :: ps) <;> rfl
  | .unit low :: ps =>
    rw [joinPieces, if_neg (by simp [hh]), if_neg (by simp [hl])]
    cases joinPieces (.unit low :: ps) <;> rfl

/-- The three ways in which a character is written inside a string. -/
inductive Escaped (c : Char) : List Char → Prop where
  | named (e : Char) (hu : e ≠ 'u') (h : namedEscape? e = some c) : Escaped c ['\\', e]
  | unit (h : c.toNat < 0x20) : Escaped c
      ['\\', 'u', '0', '0', Nat.digitChar (c.toNat / 16), Nat.digitChar (c.toNat % 16)]
  | plain (hq : c ≠ '"') (hb : c ≠ '\\') (h : ¬ c.toNat < 0x20) : Escaped c [c]

theorem escaped_escapeChar (c : Char) : Escaped c (escapeChar c) := by
  unfold escapeChar
  split_ifs with hq hb h8 hc hn hr ht hlt
  · subst hq; exact .named _ (by decide) rfl
  · subst hb; exact .named _ (by decide) rfl
  · subst h8; exact .named _ (by decide) rfl
  · subst hc; exact .named _ (by decide) rfl
  · subst hn; exact .named _ (by decide) rfl
  · subst hr; exact .named _ (by decide) rfl
  · subst ht; exact .named _ (by decide) rfl
  · exact .unit hlt
  · exact .plain hq hb hlt

theorem hexUnit?_control : ∀ n < 0x20,
    hexUnit? '0' '0' (Nat.digitChar (n / 16)) (Nat.digitChar (n % 16)) = some n := by
  decide

/-- However a character is written, it is one piece that stands for the character. -/
theorem Escaped.scanPieces {c : Char} {cs : List Char} (h : Escaped c cs) :
    ∃ p : Piece, (∀ ps, joinPieces (p :: ps) = (joinPieces ps).map (c :: ·)) ∧
      ∀ {ps rest rest'}, scanPieces rest = some (ps, rest') →
        scanPieces (cs ++ rest) = some (p :: ps, rest') := by
  cases h with
  | named e hu h =>
    refine ⟨.char c, joinPieces_char c, fun {_ rest _} hs => ?_⟩
    rw [List.cons_append, List.cons_append, List.nil_append, Json.scanPieces, h, hs]
    · rfl
    · intro a b c d r he
      exact absurd he hu
  | unit h =>
    refine ⟨.unit c.toNat, fun ps => ?_, fun hs => ?_⟩
    · rw [joinPieces_unit h, Char.ofNat_toNat]
    · simp only [List.cons_append, List.nil_append, Json.scanPieces, hexUnit?_control _ h, hs]
      rfl
  | plain hq hb h =>
    refine ⟨.char c, joinPieces_char c, fun {_ rest _} hs => ?_⟩
    rw [List.cons_append, List.nil_append, Json.scanPieces, if_neg h, hs]
    · rfl
    all_goals simp_all

theorem scanPieces_flatMap (cs rest : List Char) :
    ∃ ps, scanPieces (cs.flatMap escapeChar ++ '"' :: rest) = some (ps, rest) ∧
      joinPieces ps = some cs := by
  induction cs with
  | nil => exact ⟨[], by simp [scanPieces], rfl⟩
  | cons c cs ih =>
    obtain ⟨ps, hs, hj⟩ := ih
    obtain ⟨p, hp, hscan⟩ := (escaped_escapeChar c).scanPieces
    refine ⟨p :: ps, ?_, by simp [hp, hj]⟩
    rw [List.flatMap_cons, List.append_assoc]
    exact hscan hs

/-! ## Numbers -/

/-- What follows does not prolong a number. -/
def NumberEnds (rest : List Char) : Prop :=
  ∀ c ∈ rest.head?, c.isDigit = false ∧ c ≠ '.' ∧ c ≠ 'e' ∧ c ≠ 'E'

theorem isDigit_of_mem_digits {n : Nat} {c : Char} (h : c ∈ Nat.toDigits 10 n) : c.isDigit = true :=
  Nat.isDigit_of_mem_toDigits (by decide) (by decide) h

theorem scanDigits?_digits (n : Nat) {rest : List Char} (hr : NumberEnds rest) :
    scanDigits? (Nat.toDigits 10 n ++ rest) = some ((Nat.toDigits 10 n).map digitValue, rest) := by
  have htake : rest.takeWhile Char.isDigit = [] ∧ rest.dropWhile Char.isDigit = rest := by
    cases rest with
    | nil => exact ⟨rfl, rfl⟩
    | cons c cs => simp [(hr c rfl).1]
  have hdigits : ∀ c ∈ Nat.toDigits 10 n, c.isDigit = true := fun c => isDigit_of_mem_digits
  simp [scanDigits?, List.takeWhile_append_of_pos hdigits, List.dropWhile_append_of_pos hdigits, htake,
    Nat.toDigits_ne_nil]

/-- Only zero is spelled with a zero in front. -/
theorem eq_zero_of_head?_digits {n : Nat}
    (h : ((Nat.toDigits 10 n).map digitValue).head? = some 0) : n = 0 := by
  induction n using Nat.strongRecOn with
  | ind n ih =>
    by_cases hn : n < 10
    · have hval : ∀ m < 10, digitValue m.digitChar = m := by decide
      simpa [Nat.toDigits_of_lt_base hn, hval n hn] using h
    · rw [Nat.toDigits_of_base_le (by decide) (by omega), List.map_append, List.head?_append,
        Option.or_of_isSome (by simp [Nat.toDigits_ne_nil])] at h
      have := ih (n / 10) (by omega) h
      omega

theorem scanWhole?_digits (n : Nat) {rest : List Char} (hr : NumberEnds rest) :
    scanWhole? (Nat.toDigits 10 n ++ rest) = some ((Nat.toDigits 10 n).map digitValue, rest) := by
  have hzero : ¬ (((Nat.toDigits 10 n).map digitValue).length ≠ 1 &&
      ((Nat.toDigits 10 n).map digitValue).head? = some 0) = true := by
    simp only [Bool.and_eq_true, decide_eq_true_eq, not_and]
    intro hlen hhead
    rw [eq_zero_of_head?_digits hhead] at hlen
    simp at hlen
  simp only [scanWhole?, scanDigits?_digits n hr, Option.bind_eq_bind, Option.bind_some]
  rw [if_neg hzero]
  rfl

theorem scanFraction?_of_ends {rest : List Char} (hr : NumberEnds rest) :
    scanFraction? rest = some (none, rest) := by
  cases rest with
  | nil => rfl
  | cons c cs =>
    rw [scanFraction?]
    intro cs' he
    exact (hr c rfl).2.1 (List.cons.inj he).1

theorem scanExponent?_of_ends {rest : List Char} (hr : NumberEnds rest) :
    scanExponent? rest = some (none, rest) := by
  cases rest with
  | nil => rfl
  | cons c cs =>
    unfold scanExponent?
    exact if_neg (not_or.mpr (hr c rfl).2.2)

theorem scanNumber?_digits (negative : Bool) (n : Nat) {rest : List Char} (hr : NumberEnds rest) :
    scanNumber? negative (Nat.toDigits 10 n ++ rest) =
      some (⟨negative, (Nat.toDigits 10 n).map digitValue, none, none⟩, rest) := by
  simp [scanNumber?, scanWhole?_digits n hr, scanFraction?_of_ends hr, scanExponent?_of_ends hr]

theorem tokenAt_digit {c : Char} (hc : c.isDigit = true) (cs : List Char) :
    tokenAt c cs =
      ((scanNumber? false (c :: cs)).map fun (n, rest) => (.number n, rest)).getD (.junk, []) := by
  have hne : ∀ x : Char, x.isDigit = false → c ≠ x := by
    rintro x hx rfl
    simp [hc] at hx
  simp only [tokenAt, hne '\x7b' rfl, hne '\x7d' rfl, hne '[' rfl, hne ']' rfl, hne ',' rfl, hne ':' rfl,
    hne '"' rfl, hne '-' rfl, hc, if_true, if_false]

/-! ## Cutting -/

theorem tokens_cons {c : Char} {cs rest : List Char} {t : Token} (hb : isBlank c = false)
    (ht : tokenAt c cs = (t, rest)) (hj : t ≠ .junk) : tokens (c :: cs) = t :: tokens rest := by
  rw [tokens]
  simp [hb, ht, hj]

theorem tokens_writeInt (n : Int) {rest : List Char} (hr : NumberEnds rest) :
    tokens (writeInt n ++ rest) = .number (spelledInt n) :: tokens rest := by
  by_cases hn : n < 0
  · rw [writeInt, if_pos hn, List.cons_append]
    refine tokens_cons rfl ?_ (by simp)
    simp [tokenAt, scanNumber?_digits true n.natAbs hr, spelledInt, hn]
  · rw [writeInt, if_neg hn]
    have hscan := scanNumber?_digits false n.natAbs hr
    cases hd : Nat.toDigits 10 n.natAbs with
    | nil => exact absurd hd Nat.toDigits_ne_nil
    | cons c cs =>
      have hc : c.isDigit = true := isDigit_of_mem_digits (hd ▸ List.mem_cons_self)
      rw [hd, List.cons_append] at hscan
      refine tokens_cons ?_ ?_ (by simp)
      · rw [isBlank, decide_eq_false_iff_not]
        rintro (rfl | rfl | rfl | rfl) <;> simp at hc
      · simp [tokenAt_digit hc, hscan, spelledInt, hn, hd]

theorem tokens_writeString (s : String) (rest : List Char) :
    tokens (writeString s ++ rest) = .string (some s) :: tokens rest := by
  obtain ⟨ps, hs, hj⟩ := scanPieces_flatMap s.toList rest
  have hw : writeString s ++ rest = '"' :: (s.toList.flatMap escapeChar ++ '"' :: rest) := by
    simp [writeString]
  rw [hw]
  refine tokens_cons rfl ?_ (by simp)
  simp [tokenAt, hs, hj]

theorem tokens_comma (rest : List Char) : tokens (',' :: rest) = .comma :: tokens rest :=
  tokens_cons rfl rfl (by simp)

theorem tokens_colon (rest : List Char) : tokens (':' :: rest) = .colon :: tokens rest :=
  tokens_cons rfl rfl (by simp)

theorem numberEnds_comma (rest : List Char) : NumberEnds (',' :: rest) := by
  simp [NumberEnds]

mutual

/-- The tokens of a written value come first, those of what follows it after them. -/
theorem tokens_write : ∀ (v : Value) (rest : List Char), NumberEnds rest →
    tokens (v.write ++ rest) = v.tokens ++ tokens rest
  | .null, _, _ => tokens_cons rfl rfl (by simp)
  | .bool true, _, _ => tokens_cons rfl rfl (by simp)
  | .bool false, _, _ => tokens_cons rfl rfl (by simp)
  | .number n, _, hr => tokens_writeInt n hr
  | .string s, rest, _ => tokens_writeString s rest
  | .array items, rest, _ => by
    have hitems := tokens_writeItems items (']' :: rest) (by simp [NumberEnds])
    have hclose : tokens (']' :: rest) = .closeBracket :: tokens rest := tokens_cons rfl rfl (by simp)
    simp only [Value.write, Value.tokens, List.append_assoc, List.cons_append, List.nil_append]
    rw [tokens_cons (t := .openBracket) rfl rfl (by simp), hitems, hclose]
  | .object members, rest, _ => by
    have hmembers := tokens_writeMembers members ('\x7d' :: rest) (by simp [NumberEnds])
    have hclose : tokens ('\x7d' :: rest) = .closeBrace :: tokens rest := tokens_cons rfl rfl (by simp)
    simp only [Value.write, Value.tokens, List.append_assoc, List.cons_append, List.nil_append]
    rw [tokens_cons (t := .openBrace) rfl rfl (by simp), hmembers, hclose]

theorem tokens_writeItems : ∀ (items : List Value) (rest : List Char), NumberEnds rest →
    tokens (writeItems items ++ rest) = itemTokens items ++ tokens rest
  | [], _, _ => rfl
  | [v], rest, hr => tokens_write v rest hr
  | v :: w :: vs, rest, hr => by
    have hvs := tokens_writeItems (w :: vs) rest hr
    simp only [writeItems, itemTokens, List.append_assoc, List.cons_append, List.nil_append] at hvs ⊢
    rw [tokens_write v _ (numberEnds_comma _), tokens_comma, hvs]

theorem tokens_writeMembers : ∀ (members : List (String × Value)) (rest : List Char),
    NumberEnds rest →
    tokens (writeMembers members ++ rest) = memberTokens members ++ tokens rest
  | [], _, _ => rfl
  | [(key, v)], rest, hr => by
    simp only [writeMembers, memberTokens, List.append_assoc, List.cons_append, List.nil_append]
    rw [tokens_writeString, tokens_colon, tokens_write v rest hr]
  | (key, v) :: m :: ms, rest, hr => by
    have hms := tokens_writeMembers (m :: ms) rest hr
    simp only [writeMembers, memberTokens, List.append_assoc, List.cons_append, List.nil_append] at hms ⊢
    rw [tokens_writeString, tokens_colon, tokens_write v _ (numberEnds_comma _), tokens_comma, hms]

end

/-! ## Reading tokens -/

/-- The tokens of the items behind one that is complete. -/
def itemTail : List Value → List Token
  | [] => []
  | v :: vs => .comma :: itemTokens (v :: vs)

def memberTail : List (String × Value) → List Token
  | [] => []
  | m :: ms => .comma :: memberTokens (m :: ms)

theorem itemTokens_cons (v : Value) (vs : List Value) :
    itemTokens (v :: vs) = v.tokens ++ itemTail vs := by
  cases vs <;> simp [itemTokens, itemTail]

theorem memberTokens_cons (key : String) (v : Value) (ms : List (String × Value)) :
    memberTokens ((key, v) :: ms) = .string (some key) :: .colon :: (v.tokens ++ memberTail ms) := by
  cases ms <;> simp [memberTokens, memberTail]

/-- A value does not open with the token that ends an array. -/
theorem Value.tokens_eq_cons (v : Value) : ∃ t ts, v.tokens = t :: ts ∧ t ≠ .closeBracket := by
  cases v <;> simp [Value.tokens]

theorem readValue_openBracket (v : Value) (frames : List Frame) (ts : List Token) :
    readValue frames (.openBracket :: (v.tokens ++ ts)) =
      readValue (.array [] :: frames) (v.tokens ++ ts) := by
  obtain ⟨t, ts', hv, ht⟩ := v.tokens_eq_cons
  rw [hv, List.cons_append, readValue]
  simpa using ht

theorem readRest_comma (v : Value) (items : List Doc) (frames : List Frame) (d : Doc)
    (ts : List Token) :
    readRest (.array items :: frames) d (.comma :: (v.tokens ++ ts)) =
      readValue (.array (d :: items) :: frames) (v.tokens ++ ts) := by
  obtain ⟨t, ts', hv, ht⟩ := v.tokens_eq_cons
  rw [hv, List.cons_append, readRest]
  simpa using ht

mutual

/-- The tokens of a value make its document, whatever frames are open around it. -/
theorem readValue_tokens : ∀ (v : Value) (frames : List Frame) (ts : List Token),
    readValue frames (v.tokens ++ ts) = readRest frames v.doc ts
  | .null, _, _ => by simp [Value.tokens, Value.doc, readValue]
  | .bool _, _, _ => by simp [Value.tokens, Value.doc, readValue]
  | .number _, _, _ => by simp [Value.tokens, Value.doc, readValue]
  | .string _, _, _ => by simp [Value.tokens, Value.doc, readValue]
  | .array [], _, _ => by simp [Value.tokens, Value.doc, itemTokens, itemDocs, readValue]
  | .array (v :: vs), frames, ts => by
    simp only [Value.tokens, itemTokens_cons, List.cons_append, List.append_assoc, List.nil_append]
    rw [readValue_openBracket, readValue_tokens v, readRest_itemTail vs]
    simp [Value.doc, itemDocs]
  | .object [], _, _ => by simp [Value.tokens, Value.doc, memberTokens, memberDocs, readValue]
  | .object ((key, v) :: ms), frames, ts => by
    simp only [Value.tokens, memberTokens_cons, List.cons_append, List.append_assoc, List.nil_append]
    rw [readValue, readValue_tokens v, readRest_memberTail ms]
    simp [Value.doc, memberDocs]

theorem readRest_itemTail : ∀ (vs : List Value) (done : List Doc) (d : Doc) (frames : List Frame)
    (ts : List Token),
    readRest (.array done :: frames) d (itemTail vs ++ .closeBracket :: ts) =
      readRest frames (.array ((d :: done).reverse ++ itemDocs vs) true) ts
  | [], done, d, frames, ts => by simp [itemTail, itemDocs, readRest, Frame.fill]
  | v :: vs, done, d, frames, ts => by
    rw [itemTail, itemTokens_cons, List.cons_append, List.append_assoc]
    rw [readRest_comma, readValue_tokens v, readRest_itemTail vs]
    simp [itemDocs]

theorem readRest_memberTail : ∀ (ms : List (String × Value)) (done : List (Option String × Doc))
    (key : Option String) (d : Doc) (frames : List Frame) (ts : List Token),
    readRest (.object done key :: frames) d (memberTail ms ++ .closeBrace :: ts) =
      readRest frames (.object (((key, d) :: done).reverse ++ memberDocs ms) true) ts
  | [], done, key, d, frames, ts => by simp [memberTail, memberDocs, readRest, Frame.fill]
  | (next, v) :: ms, done, key, d, frames, ts => by
    rw [memberTail, memberTokens_cons]
    simp only [List.cons_append, List.append_assoc]
    rw [readRest, readValue_tokens v, readRest_memberTail ms]
    simp [memberDocs]

end

/-- The compact form of a value is the text of its document, and of nothing more. -/
theorem Document.ofText_compact (v : Value) : Document.ofText v.compact = ⟨v.doc, false⟩ := by
  have htokens := tokens_write v [] (by simp [NumberEnds])
  have hread := readValue_tokens v [] []
  simp only [List.append_nil] at htokens hread
  rw [Document.ofText, Value.compact, String.toList_ofList, htokens, tokens, List.append_nil, hread]
  simp [readRest]

end IdlStencil.Json
