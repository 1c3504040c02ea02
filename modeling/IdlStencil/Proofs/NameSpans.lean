import IdlStencil.Snippet.Name

/-!
# The place of a name is exact

A name is looked for in the usual ways to write a key, and then anywhere. Each search gives the first
place of its pattern (`Text.find?_eq_some_iff`). A pattern has one character of one byte before the name,
so the place behind it is one of the name, and the name stands somewhere whenever one of its patterns
does (`findName_cases`). Hence a place is given exactly if the name occurs, and its bytes are those of
the name (`findName_exact`).
-/

namespace IdlStencil.Text

/-- The pattern stands in the text behind so many bytes. -/
def StandsAt (pattern text : List Char) (offset : Nat) : Prop :=
  ∃ before after, text = before ++ pattern ++ after ∧ byteLength before = offset

theorem exists_standsAt_iff {pattern text : List Char} :
    (∃ offset, StandsAt pattern text offset) ↔ pattern <:+: text := by
  constructor
  · rintro ⟨_, before, after, rfl, -⟩
    exact ⟨before, after, rfl⟩
  · rintro ⟨before, after, rfl⟩
    exact ⟨_, before, after, rfl, rfl⟩

theorem standsAt_nil_iff {pattern : List Char} {offset : Nat} :
    StandsAt pattern [] offset ↔ pattern = [] ∧ offset = 0 := by
  constructor
  · rintro ⟨before, after, htext, hoffset⟩
    obtain ⟨hfront, -⟩ := List.append_eq_nil_iff.mp htext.symm
    obtain ⟨rfl, hpattern⟩ := List.append_eq_nil_iff.mp hfront
    exact ⟨hpattern, hoffset.symm⟩
  · rintro ⟨rfl, rfl⟩
    exact ⟨[], [], rfl, rfl⟩

theorem standsAt_cons_iff {pattern cs : List Char} {c : Char} {offset : Nat} :
    StandsAt pattern (c :: cs) offset ↔ (pattern <+: c :: cs ∧ offset = 0) ∨
      ∃ place, StandsAt pattern cs place ∧ offset = c.utf8Size + place := by
  constructor
  · rintro ⟨before, after, htext, hoffset⟩
    cases before with
    | nil => exact .inl ⟨⟨after, htext.symm⟩, hoffset.symm⟩
    | cons d before =>
      obtain ⟨rfl, rfl⟩ := List.cons.inj htext
      exact .inr ⟨byteLength before, ⟨before, after, rfl, rfl⟩, hoffset.symm⟩
  · rintro (⟨⟨after, htext⟩, rfl⟩ | ⟨_, ⟨before, after, rfl, rfl⟩, rfl⟩)
    · exact ⟨[], after, htext.symm, rfl⟩
    · exact ⟨c :: before, after, rfl, rfl⟩

/-- The first place at which the pattern stands in the text. -/
def FirstAt (pattern text : List Char) (offset : Nat) : Prop :=
  StandsAt pattern text offset ∧ ∀ place, StandsAt pattern text place → offset ≤ place

theorem firstAt_of_find? {pattern text : List Char} {offset : Nat} (h : find? pattern text = some offset) :
    FirstAt pattern text offset := by
  induction text generalizing offset with
  | nil =>
    simp only [find?, List.isEmpty_iff] at h
    split at h
    · next hpattern =>
      cases h
      exact ⟨standsAt_nil_iff.mpr ⟨hpattern, rfl⟩, fun place _ => Nat.zero_le place⟩
    · cases h
  | cons c cs ih =>
    simp only [find?, List.isPrefixOf_iff_prefix] at h
    split at h
    · next hhead =>
      cases h
      exact ⟨standsAt_cons_iff.mpr (.inl ⟨hhead, rfl⟩), fun place _ => Nat.zero_le place⟩
    · next hhead =>
      obtain ⟨later, hlater, rfl⟩ := Option.map_eq_some_iff.mp h
      obtain ⟨hstands, hfirst⟩ := ih hlater
      refine ⟨standsAt_cons_iff.mpr (.inr ⟨later, hstands, rfl⟩), fun place hplace => ?_⟩
      rcases standsAt_cons_iff.mp hplace with ⟨hhead', -⟩ | ⟨place', hplace', rfl⟩
      · exact absurd hhead' hhead
      · exact Nat.add_le_add_left (hfirst place' hplace') _

theorem not_standsAt_of_find? {pattern text : List Char} (h : find? pattern text = none) (place : Nat) :
    ¬StandsAt pattern text place := by
  induction text generalizing place with
  | nil =>
    rw [standsAt_nil_iff]
    rintro ⟨rfl, -⟩
    simp [find?] at h
  | cons c cs ih =>
    simp only [find?, List.isPrefixOf_iff_prefix] at h
    split at h
    · cases h
    · next hhead =>
      rw [standsAt_cons_iff]
      rintro (⟨hhead', -⟩ | ⟨place', hplace', -⟩)
      · exact hhead hhead'
      · exact ih (Option.map_eq_none_iff.mp h) place' hplace'

/-- What is found is the first place. -/
theorem find?_eq_some_iff {pattern text : List Char} {offset : Nat} :
    find? pattern text = some offset ↔ FirstAt pattern text offset := by
  refine ⟨firstAt_of_find?, ?_⟩
  rintro ⟨hstands, hfirst⟩
  cases hfind : find? pattern text with
  | none => exact absurd hstands (not_standsAt_of_find? hfind offset)
  | some found =>
    obtain ⟨hfound, hle⟩ := firstAt_of_find? hfind
    rw [Nat.le_antisymm (hle offset hstands) (hfirst found hfound)]

end IdlStencil.Text

namespace IdlStencil.Snippet

open Text
open Toml (Span)

/-! ## The place that is given -/

/-- A pattern is the name behind one character of one byte, with something behind it. -/
theorem standsAt_of_pattern {name pattern text : List Char} (hpattern : pattern ∈ keyPatterns name)
    {place : Nat} (h : StandsAt pattern text place) : StandsAt name text (place + 1) := by
  obtain ⟨c, behind, rfl, hc⟩ : ∃ c behind, pattern = c :: (name ++ behind) ∧ c.utf8Size = 1 := by
    simp only [keyPatterns, List.mem_cons, List.not_mem_nil, or_false] at hpattern
    rcases hpattern with rfl | rfl | rfl | rfl <;> exact ⟨_, _, rfl, by decide⟩
  obtain ⟨before, after, rfl, rfl⟩ := h
  exact ⟨before ++ [c], behind ++ after, by simp, by simp [hc]⟩

/-- The first place of the first pattern that stands in the source, or else of the name, is given. -/
theorem findName_cases (source name : String) :
    (∃ pattern ∈ keyPatterns name.toList, ∃ place, find? pattern source.toList = some place ∧
      findName source name = some ⟨place + 1, byteLength name.toList⟩) ∨
    (∀ pattern ∈ keyPatterns name.toList, find? pattern source.toList = none) ∧
      findName source name =
        (find? name.toList source.toList).map fun place => ⟨place, byteLength name.toList⟩ := by
  simp only [findName]
  cases hstart : (keyPatterns name.toList).findSome? fun pattern =>
      (find? pattern source.toList).map (· + 1) with
  | some start =>
    obtain ⟨_, pattern, _, hpatterns, hfind, -⟩ := List.findSome?_eq_some_iff.mp hstart
    obtain ⟨place, hplace, rfl⟩ := Option.map_eq_some_iff.mp hfind
    exact .inl ⟨pattern, by simp [hpatterns], place, hplace, rfl⟩
  | none =>
    refine .inr ⟨fun pattern hpattern => ?_, rfl⟩
    exact Option.map_eq_none_iff.mp (List.findSome?_eq_none_iff.mp hstart pattern hpattern)

theorem standsAt_of_findName {source name : String} {span : Span} (h : findName source name = some span) :
    StandsAt name.toList source.toList span.start ∧ span.length = byteLength name.toList := by
  rcases findName_cases source name with ⟨pattern, hpattern, place, hplace, hsome⟩ | ⟨-, hmap⟩
  · cases h.symm.trans hsome
    exact ⟨standsAt_of_pattern hpattern (find?_eq_some_iff.mp hplace).1, rfl⟩
  · obtain ⟨place, hplace, rfl⟩ := Option.map_eq_some_iff.mp (hmap.symm.trans h)
    exact ⟨(find?_eq_some_iff.mp hplace).1, rfl⟩

theorem isSome_findName_iff {source name : String} :
    (findName source name).isSome ↔ name.toList <:+: source.toList := by
  rw [← exists_standsAt_iff]
  constructor
  · intro hsome
    obtain ⟨span, hspan⟩ := Option.isSome_iff_exists.mp hsome
    exact ⟨span.start, (standsAt_of_findName hspan).1⟩
  · rintro ⟨place, hplace⟩
    rcases findName_cases source name with ⟨pattern, -, _, -, hsome⟩ | ⟨-, hmap⟩
    · simp [hsome]
    · rw [hmap, Option.isSome_map, Option.isSome_iff_ne_none]
      exact fun hnone => not_standsAt_of_find? hnone place hplace

/-! ## Bytes -/

/-- The span lies in the source between two characters, and its bytes are those of the name. -/
structure Covers (source name : String) (span : Span) : Prop where
  length : span.length = name.utf8ByteSize
  within : span.start + span.length ≤ source.utf8ByteSize
  start : String.Pos.Raw.IsValid source ⟨span.start⟩
  stop : String.Pos.Raw.IsValid source ⟨span.start + span.length⟩
  bytes : source.toByteArray.extract span.start (span.start + span.length) = name.toByteArray

theorem infix_toList_iff {source name : String} :
    name.toList <:+: source.toList ↔ ∃ before after, source = before ++ name ++ after := by
  constructor
  · rintro ⟨before, after, h⟩
    exact ⟨.ofList before, .ofList after, by simp [← String.toList_inj, ← h]⟩
  · rintro ⟨before, after, rfl⟩
    exact ⟨before.toList, after.toList, by simp⟩

theorem covers_append (before name after : String) :
    Covers (before ++ name ++ after) name ⟨before.utf8ByteSize, name.utf8ByteSize⟩ where
  length := rfl
  within := by simp
  start := String.Pos.Raw.isValid_rawEndPos.append_right name |>.append_right after
  stop := by
    have hend : (⟨before.utf8ByteSize + name.utf8ByteSize⟩ : String.Pos.Raw) =
        (before ++ name).rawEndPos := by simp [String.Pos.Raw.ext_iff]
    rw [hend]
    exact String.Pos.Raw.isValid_rawEndPos.append_right after
  bytes := by
    have hskip := ByteArray.extract_append_size_add (a := before.toByteArray)
      (b := name.toByteArray ++ after.toByteArray) (i := 0) (j := name.toByteArray.size)
    rw [Nat.add_zero, ByteArray.extract_append_eq_left rfl] at hskip
    rw [String.toByteArray_append, String.toByteArray_append, ByteArray.append_assoc]
    exact hskip

theorem covers_of_findName {source name : String} {span : Span} (h : findName source name = some span) :
    Covers source name span := by
  obtain ⟨⟨before, after, htext, hstart⟩, hlength⟩ := standsAt_of_findName h
  obtain ⟨start, length⟩ := span
  rw [byteLength_eq_utf8ByteSize] at hstart hlength
  have hsource : source = .ofList before ++ name ++ .ofList after := by
    simp [← String.toList_inj, htext]
  rw [String.ofList_toList] at hlength
  subst hstart hlength hsource
  exact covers_append _ _ _

/-- A place is given exactly if the name occurs in the source, and then it covers the name. -/
theorem findName_exact (source name : String) :
    ((findName source name).isSome ↔ ∃ before after, source = before ++ name ++ after) ∧
    ∀ span, findName source name = some span → Covers source name span :=
  ⟨isSome_findName_iff.trans infix_toList_iff, fun _ => covers_of_findName⟩

end IdlStencil.Snippet
