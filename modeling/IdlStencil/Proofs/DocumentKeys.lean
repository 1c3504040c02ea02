import IdlStencil.Proofs.NameSpans
import IdlStencil.Toml.Document

/-!
# The keys of a TOML document

A document has keys in its headers, before the values of its assignments, and inside inline tables,
which may stand in arrays (`keysOf`). Every key is read at some rest of the text, because whatever
reads a part of the text gives a rest of it. So each key stands where its span says, as its name, as its
name between single quotes, or as a string between double quotes that is the name unless it has escapes
(`keysOf_written`).
-/

namespace IdlStencil.Toml

open Text (byteLength StandsAt)

/-! ## Keys in the order of the text -/

mutual

/-- The keys inside a value. -/
def valueKeys (total : Nat) : (fuel room : Nat) → List Char → List Key
  | 0, _, _ => []
  | fuel + 1, room, cs =>
    match anyString? cs with
    | some _ => []
    | none =>
      match cs, room with
      | '[' :: cs, room + 1 => arrayKeys total fuel room cs
      | '\x7b' :: cs, room + 1 => inlineKeys total fuel room cs
      | _, _ => []

/-- The keys inside the items of an array. -/
def arrayKeys (total : Nat) : (fuel room : Nat) → List Char → List Key
  | 0, _, _ => []
  | fuel + 1, room, cs =>
    match skipTrivia false cs with
    | none => []
    | some cs =>
      valueKeys total fuel room cs ++
        match (value total fuel room cs).bind fun read => skipTrivia false read.2 with
        | some (',' :: rest) => arrayKeys total fuel room rest
        | _ => []

/-- The keys of the entries of an inline table, each with those inside its value. -/
def inlineKeys (total : Nat) : (fuel room : Nat) → List Char → List Key
  | 0, _, _ => []
  | fuel + 1, room, cs =>
    match (skipTrivia false cs).bind (dottedKey total) with
    | none => []
    | some (path, key, rest) =>
      path ++ key ::
        match (skipTrivia false rest).bind fun rest => (expect? '=' rest).bind (skipTrivia false) with
        | none => []
        | some cs =>
          valueKeys total fuel room cs ++
            match (value total fuel room cs).bind fun read => skipTrivia false read.2 with
            | some (',' :: rest) => inlineKeys total fuel room rest
            | _ => []

end

/-- The keys of a header. -/
def headerKeys (total : Nat) (cs : List Char) : List Key :=
  match dottedKey total cs with
  | none => []
  | some (path, key, _) => path ++ [key]

/-- The keys of a header, or of an assignment and its value. -/
def statementKeys (total fuel : Nat) : List Char → List Key
  | '[' :: '[' :: inner | '[' :: inner => headerKeys total (dropBlanks inner)
  | cs =>
    match dottedKey total cs with
    | none => []
    | some (path, key, rest) =>
      path ++ key ::
        match expect? '=' rest with
        | none => []
        | some rest => valueKeys total fuel nestingLimit (dropBlanks rest)

def statementsKeys (total : Nat) : (fuel : Nat) → List Char → List Key
  | 0, _ => []
  | fuel + 1, cs =>
    match skipTrivia false cs with
    | none => []
    | some cs =>
      statementKeys total fuel cs ++
        match statement total fuel cs with
        | none => []
        | some (_, rest) => statementsKeys total fuel rest

/-- The keys of a document. -/
def keysOf (source : String) : List Key :=
  let cs := source.toList
  statementsKeys (byteLength cs) (3 * cs.length + 3) (dropMark cs)

/-! ## Strings -/

/-- Reading goes on and puts something in front of what it gives. -/
theorem front_eq_some_iff {read : Option (List Char × List Char)} {front : List Char → List Char}
    {s rest : List Char} :
    (do let (cs, rest) ← read; return (front cs, rest)) = some (s, rest) ↔
      ∃ cs, read = some (cs, rest) ∧ front cs = s := by
  cases read <;> simp
  grind

/-- A string between double quotes is written as it is, unless it has a backslash. -/
theorem basicString_spelled {cs s rest : List Char} (h : basicString cs = some (s, rest)) :
    ∃ body, cs = body ++ '"' :: rest ∧ (body = s ∨ '\\' ∈ body) := by
  fun_induction basicString cs generalizing s with
  | case1 => cases h
  | case2 =>
    cases h
    exact ⟨[], rfl, .inl rfl⟩
  | case3 a b cs ih =>
    obtain ⟨c, -, h⟩ := Option.bind_eq_some_iff.mp h
    obtain ⟨s', hread, -⟩ := front_eq_some_iff.mp h
    obtain ⟨body, rfl, -⟩ := ih hread
    exact ⟨'\\' :: 'x' :: a :: b :: body, rfl, .inr List.mem_cons_self⟩
  | case4 a b c d cs ih =>
    obtain ⟨c, -, h⟩ := Option.bind_eq_some_iff.mp h
    obtain ⟨s', hread, -⟩ := front_eq_some_iff.mp h
    obtain ⟨body, rfl, -⟩ := ih hread
    exact ⟨'\\' :: 'u' :: a :: b :: _ :: d :: body, rfl, .inr List.mem_cons_self⟩
  | case5 a₁ a₂ a₃ a₄ a₅ a₆ a₇ a₈ cs ih =>
    obtain ⟨c, -, h⟩ := Option.bind_eq_some_iff.mp h
    obtain ⟨s', hread, -⟩ := front_eq_some_iff.mp h
    obtain ⟨body, rfl, -⟩ := ih hread
    exact ⟨'\\' :: 'U' :: a₁ :: a₂ :: a₃ :: a₄ :: a₅ :: a₆ :: a₇ :: a₈ :: body, rfl,
      .inr List.mem_cons_self⟩
  | case6 e cs _ _ _ ih =>
    obtain ⟨c, -, h⟩ := Option.bind_eq_some_iff.mp h
    obtain ⟨s', hread, -⟩ := front_eq_some_iff.mp h
    obtain ⟨body, rfl, -⟩ := ih hread
    exact ⟨'\\' :: e :: body, rfl, .inr List.mem_cons_self⟩
  | case7 c cs _ _ _ _ _ hc ih =>
    obtain ⟨s', hread, rfl⟩ := front_eq_some_iff.mp h
    obtain ⟨body, rfl, hbody⟩ := ih hread
    exact ⟨c :: body, rfl, hbody.imp (congrArg (c :: ·)) (List.mem_cons_of_mem c)⟩
  | case8 c cs => cases h

theorem literalString_spelled {cs s rest : List Char} (h : literalString cs = some (s, rest)) :
    cs = s ++ '\'' :: rest := by
  fun_induction literalString cs generalizing s with
  | case1 => cases h
  | case2 =>
    cases h
    rfl
  | case3 c cs _ _ ih =>
    obtain ⟨s', hread, rfl⟩ := front_eq_some_iff.mp h
    rw [ih hread, List.cons_append]
  | case4 c cs => cases h

/-! ## Rests -/

theorem longBasicString_suffix {fold : Fold} {cs s rest : List Char}
    (h : longBasicString fold cs = some (s, rest)) : rest <:+ cs := by
  fun_induction longBasicString fold cs generalizing s <;>
    simp [List.suffix_cons_iff, Option.bind_eq_some_iff] at h ⊢ <;> grind

theorem longLiteralString_suffix {cs s rest : List Char}
    (h : longLiteralString cs = some (s, rest)) : rest <:+ cs := by
  fun_induction longLiteralString cs generalizing s <;>
    simp [List.suffix_cons_iff, Option.bind_eq_some_iff] at h ⊢ <;> grind

theorem dropFirstBreak_suffix (cs : List Char) : dropFirstBreak cs <:+ cs := by
  unfold dropFirstBreak
  split <;> simp [List.suffix_cons_iff]

theorem anyString?_suffix {cs s rest : List Char} (h : anyString? cs = some (some (s, rest))) :
    rest <:+ cs := by
  unfold anyString? at h
  split at h
  · next inner =>
    have hrest := (longBasicString_suffix (Option.some.inj h)).trans (dropFirstBreak_suffix inner)
    exact hrest.trans (List.suffix_append ['"', '"', '"'] inner)
  · obtain ⟨body, rfl, -⟩ := basicString_spelled (Option.some.inj h)
    exact List.suffix_append ('"' :: body ++ ['"']) rest |>.trans (by simp)
  · next inner =>
    have hrest := (longLiteralString_suffix (Option.some.inj h)).trans (dropFirstBreak_suffix inner)
    exact hrest.trans (List.suffix_append ['\'', '\'', '\''] inner)
  · rw [literalString_spelled (Option.some.inj h)]
    exact List.suffix_append ('\'' :: s ++ ['\'']) rest |>.trans (by simp)
  · cases h

theorem skipTrivia_suffix {inComment : Bool} {cs rest : List Char}
    (h : skipTrivia inComment cs = some rest) : rest <:+ cs := by
  fun_induction skipTrivia inComment cs <;> grind [List.IsSuffix.trans, List.suffix_cons]

theorem dropBlanks_suffix (cs : List Char) : dropBlanks cs <:+ cs := List.dropWhile_suffix isBlank

theorem expect?_suffix {c : Char} {cs rest : List Char} (h : expect? c cs = some rest) : rest <:+ cs := by
  unfold expect? at h
  split at h
  · split at h
    · cases h
      exact List.suffix_cons _ _
    · cases h
  · cases h

theorem endLine_suffix {cs rest : List Char} (h : endLine cs = some rest) : rest <:+ cs := by
  refine .trans ?_ (dropBlanks_suffix cs)
  unfold endLine at h
  split at h
  · cases h
    exact List.nil_suffix
  · next hcons =>
    cases h
    rw [hcons]
    exact List.suffix_cons _ _
  · next hcons =>
    cases h
    rw [hcons]
    exact List.suffix_append ['\r', '\n'] _
  · next hcons =>
    rw [hcons]
    exact (skipTrivia_suffix h).trans (List.suffix_cons _ _)
  · cases h

theorem splitWord_suffix (cs : List Char) : (splitWord cs).2 <:+ cs := by
  fun_induction splitWord cs with
  | case1 => exact List.nil_suffix
  | case2 cs _ c rest hdrop more _ tail rest' hsplit ih =>
    rw [hsplit] at ih
    have hmore : more <:+ c :: rest := (List.dropWhile_suffix isBlank).trans (List.suffix_cons c rest)
    rw [← hdrop] at hmore
    exact (ih.trans hmore).trans (List.dropWhile_suffix isWordChar)
  | case3 cs _ c rest hdrop =>
    rw [← hdrop]
    exact List.dropWhile_suffix isWordChar

/-! ## How a key is written -/

/-- A key is a bare word, a string between single quotes, or one between double quotes, which is the name
as it is unless it has a backslash. -/
inductive Writes (name : List Char) : List Char → Prop where
  | bare : Writes name name
  | literal : Writes name ('\'' :: name ++ ['\''])
  | basic {body : List Char} (h : body = name ∨ '\\' ∈ body) : Writes name ('"' :: body ++ ['"'])

theorem simpleKey_written {total : Nat} {cs rest : List Char} {k : Key}
    (h : simpleKey total cs = some (k, rest)) :
    (∃ text, Writes k.name.toList text ∧ cs = text ++ rest) ∧ k.span = spanBetween total cs rest := by
  simp only [simpleKey] at h
  split at h
  · obtain ⟨⟨name, after⟩, hread, heq⟩ := Option.bind_eq_some_iff.mp h
    cases heq
    obtain ⟨body, rfl, hbody⟩ := basicString_spelled hread
    rw [String.toList_ofList]
    exact ⟨⟨_, .basic hbody, by simp⟩, rfl⟩
  · obtain ⟨⟨name, after⟩, hread, heq⟩ := Option.bind_eq_some_iff.mp h
    cases heq
    obtain rfl := literalString_spelled hread
    rw [String.toList_ofList]
    exact ⟨⟨_, .literal, by simp⟩, rfl⟩
  · split at h
    · cases h
    · cases h
      rw [String.toList_ofList]
      exact ⟨⟨_, .bare, List.takeWhile_append_dropWhile.symm⟩, rfl⟩

theorem simpleKey_suffix {total : Nat} {cs rest : List Char} {k : Key}
    (h : simpleKey total cs = some (k, rest)) : rest <:+ cs := by
  obtain ⟨⟨text, -, rfl⟩, -⟩ := simpleKey_written h
  exact List.suffix_append text rest

/-- The key is read at a rest of the text. -/
def ReadsKey (total : Nat) (cs : List Char) (k : Key) : Prop :=
  ∃ here rest, here <:+ cs ∧ simpleKey total here = some (k, rest)

theorem ReadsKey.mono {total : Nat} {cs cs' : List Char} {k : Key} (h : ReadsKey total cs k)
    (hsuffix : cs <:+ cs') : ReadsKey total cs' k := by
  obtain ⟨here, rest, hhere, hread⟩ := h
  exact ⟨here, rest, hhere.trans hsuffix, hread⟩

theorem keyParts_reads {total room : Nat} {cs rest : List Char} {path : List Key} {last : Key}
    (h : keyParts total room cs = some (path, last, rest)) :
    rest <:+ cs ∧ ∀ k ∈ path ++ [last], ReadsKey total cs k := by
  induction room generalizing cs path with
  | zero => cases h
  | succ room ih =>
    obtain ⟨⟨k, after⟩, hkey, h⟩ := Option.bind_eq_some_iff.mp h
    have hblanks := (dropBlanks_suffix after).trans (simpleKey_suffix hkey)
    have hreads : ReadsKey total cs k := ⟨cs, after, List.suffix_rfl, hkey⟩
    dsimp only at h
    split at h
    · next inner hinner =>
      obtain ⟨⟨path', last', rest'⟩, hmore, heq⟩ := Option.bind_eq_some_iff.mp h
      cases heq
      rw [hinner] at hblanks
      have hsuffix := (dropBlanks_suffix inner).trans ((List.suffix_cons _ _).trans hblanks)
      obtain ⟨hrest, hkeys⟩ := ih hmore
      exact ⟨hrest.trans hsuffix, List.forall_mem_cons.mpr ⟨hreads, fun k hk => (hkeys k hk).mono hsuffix⟩⟩
    · cases h
      exact ⟨hblanks, by simpa using hreads⟩

/-! ## Values -/

mutual

theorem value_suffix (total : Nat) : ∀ (fuel room : Nat) {cs rest : List Char} {item : Item},
    value total fuel room cs = some (item, rest) → rest <:+ cs
  | 0, _, _, _, _, h => by
    simp only [value] at h
    cases h
  | fuel + 1, room, cs, rest, item, h => by
    simp only [value] at h
    split at h
    · next read hread =>
      obtain ⟨⟨s, after⟩, rfl, heq⟩ := Option.map_eq_some_iff.mp h
      cases heq
      exact anyString?_suffix hread
    · split at h
      · obtain ⟨read, hread, heq⟩ := Option.bind_eq_some_iff.mp h
        cases heq
        exact (arrayItems_suffix total fuel _ hread).trans (List.suffix_cons _ _)
      · obtain ⟨read, hread, heq⟩ := Option.bind_eq_some_iff.mp h
        cases heq
        exact (inlineEntries_suffix total fuel _ hread).trans (List.suffix_cons _ _)
      · obtain ⟨read, -, heq⟩ := Option.bind_eq_some_iff.mp h
        cases heq
        exact splitWord_suffix _

theorem arrayItems_suffix (total : Nat) : ∀ (fuel room : Nat) {cs rest : List Char} {items : List Item},
    arrayItems total fuel room cs = some (items, rest) → rest <:+ cs
  | 0, _, _, _, _, h => by
    simp only [arrayItems] at h
    cases h
  | fuel + 1, room, cs, rest, items, h => by
    simp only [arrayItems] at h
    obtain ⟨start, hstart, h⟩ := Option.bind_eq_some_iff.mp h
    refine .trans ?_ (skipTrivia_suffix hstart)
    split at h
    · cases h
      exact List.suffix_cons _ _
    · obtain ⟨⟨item, cs₁⟩, hitem, h⟩ := Option.bind_eq_some_iff.mp h
      obtain ⟨cs₂, hcs₂, h⟩ := Option.bind_eq_some_iff.mp h
      refine .trans ?_ ((skipTrivia_suffix hcs₂).trans (value_suffix total fuel room hitem))
      split at h
      · cases h
        exact List.suffix_cons _ _
      · obtain ⟨⟨more, cs₃⟩, hmore, heq⟩ := Option.bind_eq_some_iff.mp h
        cases heq
        exact (arrayItems_suffix total fuel room hmore).trans (List.suffix_cons _ _)
      · cases h

theorem inlineEntries_suffix (total : Nat) : ∀ (fuel room : Nat) {cs rest : List Char} {t t' : Table},
    inlineEntries total fuel room t cs = some (t', rest) → rest <:+ cs
  | 0, _, _, _, _, _, h => by
    simp only [inlineEntries] at h
    cases h
  | fuel + 1, room, cs, rest, t, t', h => by
    simp only [inlineEntries] at h
    obtain ⟨start, hstart, h⟩ := Option.bind_eq_some_iff.mp h
    refine .trans ?_ (skipTrivia_suffix hstart)
    split at h
    · cases h
      exact List.suffix_cons _ _
    · obtain ⟨⟨path, key, cs₁⟩, hkey, h⟩ := Option.bind_eq_some_iff.mp h
      obtain ⟨cs₂, hcs₂, h⟩ := Option.bind_eq_some_iff.mp h
      obtain ⟨cs₃, hcs₃, h⟩ := Option.bind_eq_some_iff.mp h
      obtain ⟨cs₄, hcs₄, h⟩ := Option.bind_eq_some_iff.mp h
      obtain ⟨⟨item, cs₅⟩, hitem, h⟩ := Option.bind_eq_some_iff.mp h
      obtain ⟨t₁, -, h⟩ := Option.bind_eq_some_iff.mp h
      obtain ⟨cs₆, hcs₆, h⟩ := Option.bind_eq_some_iff.mp h
      have hvalue : cs₄ <:+ start := (skipTrivia_suffix hcs₄).trans <| (expect?_suffix hcs₃).trans <|
        (skipTrivia_suffix hcs₂).trans (keyParts_reads hkey).1
      refine .trans ?_ ((skipTrivia_suffix hcs₆).trans ((value_suffix total fuel room hitem).trans hvalue))
      split at h
      · cases h
        exact List.suffix_cons _ _
      · exact (inlineEntries_suffix total fuel room h).trans (List.suffix_cons _ _)
      · cases h

end

/-- What follows the comma behind a value. -/
theorem comma_suffix {total fuel room : Nat} {c : Char} {cs rest : List Char}
    (h : ((value total fuel room cs).bind fun read => skipTrivia false read.2) = some (c :: rest)) :
    rest <:+ cs := by
  obtain ⟨⟨item, after⟩, hitem, hskip⟩ := Option.bind_eq_some_iff.mp h
  exact (List.suffix_cons c rest).trans <|
    (skipTrivia_suffix hskip).trans (value_suffix total fuel room hitem)

mutual

theorem valueKeys_reads (total : Nat) : ∀ (fuel room : Nat) (cs : List Char),
    ∀ k ∈ valueKeys total fuel room cs, ReadsKey total cs k
  | 0, _, _ => by simp [valueKeys]
  | fuel + 1, room, cs => by
    simp only [valueKeys]
    split
    · simp
    · split
      · exact fun k hk => (arrayKeys_reads total fuel _ _ k hk).mono (List.suffix_cons _ _)
      · exact fun k hk => (inlineKeys_reads total fuel _ _ k hk).mono (List.suffix_cons _ _)
      · simp

theorem arrayKeys_reads (total : Nat) : ∀ (fuel room : Nat) (cs : List Char),
    ∀ k ∈ arrayKeys total fuel room cs, ReadsKey total cs k
  | 0, _, _ => by simp [arrayKeys]
  | fuel + 1, room, cs => by
    simp only [arrayKeys]
    split
    · simp
    · next start hstart =>
      intro k hk
      refine .mono ?_ (skipTrivia_suffix hstart)
      rcases List.mem_append.mp hk with hk | hk
      · exact valueKeys_reads total fuel room start k hk
      · split at hk
        · next hcomma => exact (arrayKeys_reads total fuel room _ k hk).mono (comma_suffix hcomma)
        · cases hk

theorem inlineKeys_reads (total : Nat) : ∀ (fuel room : Nat) (cs : List Char),
    ∀ k ∈ inlineKeys total fuel room cs, ReadsKey total cs k
  | 0, _, _ => by simp [inlineKeys]
  | fuel + 1, room, cs => by
    simp only [inlineKeys]
    split
    · simp
    · next path key rest hkey =>
      obtain ⟨start, hstart, hkey⟩ := Option.bind_eq_some_iff.mp hkey
      obtain ⟨hrest, hkeys⟩ := keyParts_reads hkey
      intro k hk
      refine .mono ?_ (skipTrivia_suffix hstart)
      rw [List.append_cons, List.mem_append] at hk
      rcases hk with hk | hk
      · exact hkeys k hk
      · refine .mono ?_ hrest
        split at hk
        · cases hk
        · next cs' hequals =>
          obtain ⟨cs₂, hcs₂, hequals⟩ := Option.bind_eq_some_iff.mp hequals
          obtain ⟨cs₃, hcs₃, hcs'⟩ := Option.bind_eq_some_iff.mp hequals
          have hvalue : cs' <:+ rest :=
            (skipTrivia_suffix hcs').trans ((expect?_suffix hcs₃).trans (skipTrivia_suffix hcs₂))
          refine .mono ?_ hvalue
          rcases List.mem_append.mp hk with hk | hk
          · exact valueKeys_reads total fuel room cs' k hk
          · split at hk
            · next hcomma => exact (inlineKeys_reads total fuel room _ k hk).mono (comma_suffix hcomma)
            · cases hk

end

/-! ## Documents -/

theorem statement_suffix {total fuel : Nat} {cs rest : List Char} {s : Statement}
    (h : statement total fuel cs = some (s, rest)) : rest <:+ cs := by
  unfold statement at h
  split at h
  · next inner =>
    obtain ⟨⟨path, key, cs₁⟩, hkey, h⟩ := Option.bind_eq_some_iff.mp h
    obtain ⟨cs₂, hcs₂, h⟩ := Option.bind_eq_some_iff.mp h
    obtain ⟨cs₃, hcs₃, h⟩ := Option.bind_eq_some_iff.mp h
    obtain ⟨cs₄, hcs₄, h⟩ := Option.bind_eq_some_iff.mp h
    cases h
    exact (endLine_suffix hcs₄).trans <| (expect?_suffix hcs₃).trans <| (expect?_suffix hcs₂).trans <|
      (keyParts_reads hkey).1.trans <| (dropBlanks_suffix inner).trans (List.suffix_append ['[', '['] inner)
  · next inner _ =>
    obtain ⟨⟨path, key, cs₁⟩, hkey, h⟩ := Option.bind_eq_some_iff.mp h
    obtain ⟨cs₂, hcs₂, h⟩ := Option.bind_eq_some_iff.mp h
    obtain ⟨cs₃, hcs₃, h⟩ := Option.bind_eq_some_iff.mp h
    cases h
    exact (endLine_suffix hcs₃).trans <| (expect?_suffix hcs₂).trans <|
      (keyParts_reads hkey).1.trans <| (dropBlanks_suffix inner).trans (List.suffix_cons '[' inner)
  · obtain ⟨⟨path, key, cs₁⟩, hkey, h⟩ := Option.bind_eq_some_iff.mp h
    obtain ⟨cs₂, hcs₂, h⟩ := Option.bind_eq_some_iff.mp h
    obtain ⟨⟨item, cs₃⟩, hitem, h⟩ := Option.bind_eq_some_iff.mp h
    obtain ⟨cs₄, hcs₄, h⟩ := Option.bind_eq_some_iff.mp h
    cases h
    exact (endLine_suffix hcs₄).trans <| (value_suffix total fuel _ hitem).trans <|
      (dropBlanks_suffix cs₂).trans <| (expect?_suffix hcs₂).trans (keyParts_reads hkey).1

theorem headerKeys_reads (total : Nat) (cs : List Char) : ∀ k ∈ headerKeys total cs, ReadsKey total cs k := by
  unfold headerKeys
  split
  · simp
  · next hkey => exact (keyParts_reads hkey).2

theorem statementKeys_reads (total fuel : Nat) (cs : List Char) :
    ∀ k ∈ statementKeys total fuel cs, ReadsKey total cs k := by
  unfold statementKeys
  split
  · next inner =>
    exact fun k hk => (headerKeys_reads total _ k hk).mono <|
      (dropBlanks_suffix inner).trans (List.suffix_append ['[', '['] inner)
  · next inner _ =>
    exact fun k hk => (headerKeys_reads total _ k hk).mono <|
      (dropBlanks_suffix inner).trans (List.suffix_cons '[' inner)
  · split
    · simp
    · next hkey =>
      obtain ⟨hrest, hkeys⟩ := keyParts_reads hkey
      intro k hk
      rw [List.append_cons, List.mem_append] at hk
      rcases hk with hk | hk
      · exact hkeys k hk
      · split at hk
        · cases hk
        · next rest hequals =>
          exact (valueKeys_reads total fuel _ _ k hk).mono <|
            (dropBlanks_suffix rest).trans ((expect?_suffix hequals).trans hrest)

theorem statementsKeys_reads (total fuel : Nat) (cs : List Char) :
    ∀ k ∈ statementsKeys total fuel cs, ReadsKey total cs k := by
  induction fuel generalizing cs with
  | zero => simp [statementsKeys]
  | succ fuel ih =>
    simp only [statementsKeys]
    split
    · simp
    · next start hstart =>
      intro k hk
      refine .mono ?_ (skipTrivia_suffix hstart)
      rcases List.mem_append.mp hk with hk | hk
      · exact statementKeys_reads total fuel start k hk
      · split at hk
        · cases hk
        · next hstatement => exact (ih _ k hk).mono (statement_suffix hstatement)

theorem dropMark_suffix (cs : List Char) : dropMark cs <:+ cs := by
  unfold dropMark
  split
  · exact List.suffix_cons _ _
  · exact List.suffix_rfl

/-- A key of a document stands where its span says, in one of the ways to write it. -/
theorem keysOf_written {source : String} {k : Key} (h : k ∈ keysOf source) :
    ∃ text, Writes k.name.toList text ∧ StandsAt text source.toList k.span.start ∧
      byteLength text = k.span.length := by
  obtain ⟨here, rest, hhere, hread⟩ :=
    (statementsKeys_reads _ _ _ k h).mono (dropMark_suffix source.toList)
  obtain ⟨before, hsource⟩ := hhere
  obtain ⟨⟨text, hwrites, rfl⟩, hspan⟩ := simpleKey_written hread
  refine ⟨text, hwrites, ⟨before, rest, ?_, ?_⟩, ?_⟩
  · rw [← hsource, List.append_assoc]
  · simp [hspan, spanBetween, ← hsource]
  · simp [hspan, spanBetween]

end IdlStencil.Toml
