import Mathlib.Data.Nat.Digits.Defs
import IdlStencil.Proofs.RoundTrip

/-!
# The grammar of versions

A version is two numbers with a dot between them, each of decimal digits behind at most one plus sign
(`IsPart`). Reading cuts the text at its first dot and takes each side for what it spells, so a text has
one outcome: a version, no dot, a bad number before the dot, or a bad one only behind it
(`Version.parse_grammar`). What a version is displayed as is in the grammar, with its numbers.
-/

namespace IdlStencil.Idl.Version

/-! ## Numbers -/

/-- Digits of ASCII, at least one, that spell a number. The last one counts ones, the one before it
tens. -/
structure Spells (ds : List Char) (n : Nat) : Prop where
  nonempty : ds ≠ []
  digits : ∀ c ∈ ds, '0' ≤ c ∧ c ≤ '9'
  value : Nat.ofDigits 10 (ds.reverse.map fun c => c.toNat - '0'.toNat) = n

/-- A number of 32 bits, which may have a plus sign. -/
def IsPart (text : List Char) (n : Nat) : Prop :=
  ∃ ds, (text = ds ∨ text = '+' :: ds) ∧ Spells ds n ∧ n < 2 ^ 32

theorem ofDigits_reverse (ds : List Char) :
    Nat.ofDigits 10 (ds.reverse.map fun c => c.toNat - '0'.toNat) =
      ds.foldl (fun n c => n * 10 + (c.toNat - '0'.toNat)) 0 := by
  rw [Nat.ofDigits_eq_foldr, List.foldr_map, List.foldr_reverse]
  simp only [Nat.cast_id, Nat.add_comm, Nat.mul_comm]

theorem isDigit_iff {c : Char} : c.isDigit = true ↔ '0' ≤ c ∧ c ≤ '9' := by
  rw [Char.isDigit, Bool.and_eq_true, decide_eq_true_eq, decide_eq_true_eq]
  rfl

theorem Spells.digits? {ds : List Char} {n : Nat} (h : Spells ds n) (hn : n < 2 ^ 32) :
    digits? ds = some (UInt32.ofNat n) := by
  obtain ⟨hne, hdigits, hvalue⟩ := h
  have hempty : ds.isEmpty = false := by simpa using hne
  have hall : ds.all Char.isDigit = true := List.all_eq_true.mpr fun c hc => isDigit_iff.mpr (hdigits c hc)
  rw [ofDigits_reverse] at hvalue
  have hlt : n < UInt32.size := hn
  simp only [Version.digits?, hempty, hall, hvalue, hlt, if_true]
  simp

theorem spells_of_digits? {ds : List Char} {n : UInt32} (h : digits? ds = some n) : Spells ds n.toNat := by
  simp only [digits?] at h
  split at h
  · cases h
  · next hform =>
    simp only [Bool.or_eq_true, Bool.not_eq_true', not_or, Bool.not_eq_true,
      Bool.not_eq_false, List.isEmpty_eq_false_iff] at hform
    split at h
    · next hlt =>
      cases h
      refine ⟨hform.1, fun c hc => isDigit_iff.mp (List.all_eq_true.mp hform.2 c hc), ?_⟩
      rw [ofDigits_reverse, UInt32.toNat_ofNat_of_lt' hlt]
    · cases h

/-- A plus sign is no digit, so it is never read as a part of the number. -/
theorem IsPart.part? {text : List Char} {n : Nat} (h : IsPart text n) :
    part? text = some (UInt32.ofNat n) := by
  obtain ⟨ds, rfl | rfl, hspells, hn⟩ := h
  · rw [Version.part?, hspells.digits? hn]
    rintro cs rfl
    have := hspells.digits '+' List.mem_cons_self
    revert this
    decide
  · exact hspells.digits? hn

theorem isPart_of_part? {text : List Char} {n : UInt32} (h : part? text = some n) :
    IsPart text n.toNat := by
  have hn : n.toNat < 2 ^ 32 := n.toNat_lt
  unfold part? at h
  split at h
  · exact ⟨_, .inr rfl, spells_of_digits? h, hn⟩
  · exact ⟨_, .inl rfl, spells_of_digits? h, hn⟩

theorem part?_eq_some_iff {text : List Char} {n : UInt32} :
    part? text = some n ↔ IsPart text n.toNat := by
  refine ⟨isPart_of_part?, fun h => ?_⟩
  rw [h.part?, UInt32.ofNat_toNat]

theorem part?_eq_none_iff {text : List Char} : part? text = none ↔ ∀ n, ¬IsPart text n := by
  constructor
  · intro hnone n hpart
    cases hnone.symm.trans hpart.part?
  · intro hnot
    cases hpart : part? text with
    | none => rfl
    | some n => exact absurd (isPart_of_part? hpart) (hnot _)

/-! ## The dot -/

/-- The two sides of the first dot. -/
def SplitAtDot (s : String) (a b : List Char) : Prop := s.toList = a ++ '.' :: b ∧ '.' ∉ a

theorem splitDot?_eq_none_iff {cs : List Char} : splitDot? cs = none ↔ '.' ∉ cs := by
  induction cs with
  | nil => simp [splitDot?]
  | cons c cs ih =>
    rw [splitDot?]
    split
    · next hc => simp [hc]
    · next hc => simp [ih, Ne.symm hc]

theorem splitDot?_eq_some_iff {cs a b : List Char} :
    splitDot? cs = some (a, b) ↔ cs = a ++ '.' :: b ∧ '.' ∉ a := by
  constructor
  · intro h
    induction cs generalizing a with
    | nil => cases h
    | cons c cs ih =>
      rw [splitDot?] at h
      split at h
      · next hc =>
        cases h
        exact ⟨by rw [hc, List.nil_append], List.not_mem_nil⟩
      · next hc =>
        obtain ⟨⟨a', b'⟩, hsplit, heq⟩ := Option.map_eq_some_iff.mp h
        cases heq
        obtain ⟨rfl, ha'⟩ := ih hsplit
        exact ⟨rfl, by simp [Ne.symm hc, ha']⟩
  · rintro ⟨rfl, ha⟩
    exact splitDot?_append (fun c hc heq => ha (heq ▸ hc)) b

theorem parse_of_no_dot {s : String} (h : '.' ∉ s.toList) : parse s = .error (.noDot s) := by
  rw [parse, splitDot?_eq_none_iff.mpr h]

section

variable {s : String} {a b : List Char}

theorem SplitAtDot.unique {a' b' : List Char} (h : SplitAtDot s a b) (h' : SplitAtDot s a' b') :
    a' = a ∧ b' = b := by
  have hsome := (splitDot?_eq_some_iff.mpr h').symm.trans (splitDot?_eq_some_iff.mpr h)
  cases hsome
  exact ⟨rfl, rfl⟩

theorem SplitAtDot.exists_iff (h : SplitAtDot s a b) {P : List Char → List Char → Prop} :
    (∃ a b, SplitAtDot s a b ∧ P a b) ↔ P a b := by
  constructor
  · rintro ⟨a', b', h', hP⟩
    obtain ⟨rfl, rfl⟩ := h.unique h'
    exact hP
  · exact fun hP => ⟨a, b, h, hP⟩

theorem no_dot_or_splitAtDot (s : String) : '.' ∉ s.toList ∨ ∃ a b, SplitAtDot s a b := by
  rw [← splitDot?_eq_none_iff]
  cases hsplit : splitDot? s.toList with
  | none => exact .inl rfl
  | some sides => exact .inr ⟨sides.1, sides.2, splitDot?_eq_some_iff.mp hsplit⟩

theorem not_exists_splitAtDot (h : '.' ∉ s.toList) {P : List Char → List Char → Prop} :
    ¬∃ a b, SplitAtDot s a b ∧ P a b := by
  rintro ⟨a, b, ⟨htext, -⟩, -⟩
  exact h (by simp [htext])

/-- The number before the dot is looked at first. -/
theorem SplitAtDot.parse_eq (h : SplitAtDot s a b) :
    parse s = (part? a).elim (.error .badMajor) fun major =>
      (part? b).elim (.error .badMinor) fun minor => .ok ⟨major, minor⟩ := by
  simp only [parse, splitDot?_eq_some_iff.mpr h]
  cases part? a <;> cases part? b <;> rfl

end

/-! ## Outcomes -/

theorem message_noDot (text : String) :
    (VersionError.noDot text).message = "invalid version '" ++ text ++ "', expected 'X.Y'" := by
  -- The equations of `message` are not used: Lean would evaluate its texts to prove them.
  delta VersionError.message
  simp only [toString]

/-- The message tells the errors apart. -/
theorem message_injective : Function.Injective VersionError.message := by
  have hmajor : VersionError.badMajor.message = "invalid major" := rfl
  have hminor : VersionError.badMinor.message = "invalid minor" := rfl
  intro e e' h
  rw [← String.toList_inj] at h
  cases e <;> cases e' <;> simp [message_noDot, hmajor, hminor] at h ⊢
  exact String.toList_inj.mp h

/-- The text is refused with a message. -/
def FailsWith (s message : String) : Prop := ∃ e, parse s = .error e ∧ e.message = message

theorem failsWith_message_iff {s : String} {e : VersionError} :
    FailsWith s e.message ↔ parse s = .error e := by
  constructor
  · rintro ⟨e', hparse, hmessage⟩
    rwa [message_injective hmessage] at hparse
  · exact fun h => ⟨e, h, rfl⟩

theorem parse_eq_ok_iff {s : String} {v : Version} : parse s = .ok v ↔
    ∃ a b, SplitAtDot s a b ∧ IsPart a v.major.toNat ∧ IsPart b v.minor.toNat := by
  rcases no_dot_or_splitAtDot s with hdot | ⟨a, b, h⟩
  · rw [parse_of_no_dot hdot]
    exact iff_of_false (by simp) (not_exists_splitAtDot hdot)
  · rw [h.exists_iff, h.parse_eq, ← part?_eq_some_iff, ← part?_eq_some_iff]
    obtain ⟨major, minor⟩ := v
    cases part? a <;> cases part? b <;> simp

theorem parse_eq_noDot_iff {s : String} : parse s = .error (.noDot s) ↔ '.' ∉ s.toList := by
  rcases no_dot_or_splitAtDot s with hdot | ⟨a, b, h⟩
  · simp [parse_of_no_dot hdot, hdot]
  · have hdot : '.' ∈ s.toList := by simp [h.1]
    rw [h.parse_eq]
    cases part? a <;> cases part? b <;> simp [hdot]

theorem parse_eq_badMajor_iff {s : String} :
    parse s = .error .badMajor ↔ ∃ a b, SplitAtDot s a b ∧ ∀ n, ¬IsPart a n := by
  rcases no_dot_or_splitAtDot s with hdot | ⟨a, b, h⟩
  · rw [parse_of_no_dot hdot]
    exact iff_of_false (by simp) (not_exists_splitAtDot hdot)
  · rw [h.exists_iff, h.parse_eq, ← part?_eq_none_iff]
    cases part? a <;> cases part? b <;> simp

theorem parse_eq_badMinor_iff {s : String} : parse s = .error .badMinor ↔
    ∃ a b, SplitAtDot s a b ∧ (∃ n, IsPart a n) ∧ ∀ n, ¬IsPart b n := by
  have hsome {a : List Char} : (∃ n, IsPart a n) ↔ part? a ≠ none := by simp [part?_eq_none_iff]
  rcases no_dot_or_splitAtDot s with hdot | ⟨a, b, h⟩
  · rw [parse_of_no_dot hdot]
    exact iff_of_false (by simp) (not_exists_splitAtDot hdot)
  · rw [h.exists_iff, h.parse_eq, hsome, ← part?_eq_none_iff]
    cases part? a <;> cases part? b <;> simp

/-- Reading gives the numbers on the two sides of the first dot, or says what is wrong with the first
thing that is not as it should be. A version is read back from what it is displayed as, so reading and
displaying twice is the same as once. -/
theorem parse_grammar (s : String) :
    (∀ v, parse s = .ok v ↔
      ∃ a b, SplitAtDot s a b ∧ IsPart a v.major.toNat ∧ IsPart b v.minor.toNat) ∧
    (FailsWith s ("invalid version '" ++ s ++ "', expected 'X.Y'") ↔ '.' ∉ s.toList) ∧
    (FailsWith s "invalid major" ↔ ∃ a b, SplitAtDot s a b ∧ ∀ n, ¬IsPart a n) ∧
    (FailsWith s "invalid minor" ↔
      ∃ a b, SplitAtDot s a b ∧ (∃ n, IsPart a n) ∧ ∀ n, ¬IsPart b n) ∧
    (∀ v : Version, parse v.text = .ok v) ∧
    ∀ v, parse s = .ok v → (parse v.text).map text = .ok v.text := by
  refine ⟨fun v => parse_eq_ok_iff, ?_, ?_, ?_, parse_text, fun v _ => ?_⟩
  · rw [← message_noDot, failsWith_message_iff, parse_eq_noDot_iff]
  · exact failsWith_message_iff.trans parse_eq_badMajor_iff
  · exact failsWith_message_iff.trans parse_eq_badMinor_iff
  · rw [parse_text]
    rfl

end IdlStencil.Idl.Version
