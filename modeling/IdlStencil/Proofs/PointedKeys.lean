import IdlStencil.Proofs.LoadedNames

/-!
# Which key a refused name points at

A refused name is the name of a key of the document (`exists_key_of_load`), unless it is the one that a
date has for an entry. It is pointed out by a search that knows texts only, so what it finds may as well
be a comment or a value (`Table.load_points_elsewhere`). What is found is the name, at a place that the
text alone determines: the first form of a key that stands in it, or else the name itself (`Met`). This is
inside a key that spells the name as long as there is no rival: the name stands nowhere else, or the form
stands in such keys only (`Table.load_points_at_key`).
-/

namespace IdlStencil.Text

theorem FirstAt.unique {pattern text : List Char} {place other : Nat} (h : FirstAt pattern text place)
    (h' : FirstAt pattern text other) : place = other :=
  Nat.le_antisymm (h.2 other h'.1) (h'.2 place h.1)

/-- All places at which the pattern stands in the text. -/
def places (pattern : List Char) : List Char → List Nat
  | [] => if pattern.isEmpty then [0] else []
  | c :: cs =>
    (if pattern.isPrefixOf (c :: cs) then [0] else []) ++ (places pattern cs).map (c.utf8Size + ·)

theorem mem_places_iff {pattern text : List Char} {place : Nat} :
    place ∈ places pattern text ↔ StandsAt pattern text place := by
  induction text generalizing place with
  | nil =>
    rw [places, standsAt_nil_iff, ← List.isEmpty_iff]
    split
    · next h => simp [h]
    · next h => simp [h]
  | cons c cs ih =>
    rw [places, standsAt_cons_iff, List.mem_append, List.mem_map, ← List.isPrefixOf_iff_prefix]
    apply or_congr
    · split
      · next h => simp [h]
      · next h => simp [h]
    · apply exists_congr
      intro later
      rw [ih, eq_comm]

end IdlStencil.Text

namespace IdlStencil.Snippet

open Text
open Toml (Span Key keysOf)

/-! ## Refused names -/

/-- No name is refused, whatever else may be. -/
def RefusesNoName {α : Type} (x : Except LoadError α) : Prop :=
  ∀ name context fault span, x ≠ .error (.invalidName name context fault span)

theorem refusesNoName_ok {α : Type} (a : α) : RefusesNoName (.ok a) := by
  rintro _ _ _ _ ⟨⟩

theorem RefusesNoName.bind {α β : Type} {x : Except LoadError α} {f : α → Except LoadError β}
    (hx : RefusesNoName x) (hf : ∀ a, RefusesNoName (f a)) : RefusesNoName (x >>= f) := by
  cases x with
  | ok a => exact hf a
  | error err =>
    rintro name context fault span ⟨⟩
    exact hx name context fault span rfl

theorem refusesNoName_wrongShape {α : Type} (e : Toml.Entry) (expected : String) :
    RefusesNoName (wrongShape e expected : Except LoadError α) := by
  unfold wrongShape
  split <;> rintro _ _ _ _ ⟨⟩

theorem refusesNoName_snippetsOf (entries : List Toml.Entry) : RefusesNoName (snippetsOf entries) := by
  induction entries with
  | nil => exact refusesNoName_ok _
  | cons e entries ih =>
    rw [snippetsOf]
    split
    · exact ih.bind fun _ => refusesNoName_ok _
    · exact refusesNoName_wrongShape e _

theorem refusesNoName_sectionsOf (entries : List Toml.Entry) : RefusesNoName (sectionsOf entries) := by
  induction entries with
  | nil => exact refusesNoName_ok _
  | cons e entries ih =>
    rw [sectionsOf]
    split
    · exact (refusesNoName_snippetsOf _).bind fun _ => ih.bind fun _ => refusesNoName_ok _
    · exact ih.bind fun _ => refusesNoName_ok _
    · exact refusesNoName_wrongShape e _

section

variable {source name : String} {context : NameContext} {fault : NameFault} {span : Option Span}

/-- A name is refused once the text is decoded, and is then one of the names in it. -/
theorem decodes_of_load (h : Table.load source = .error (.invalidName name context fault span)) :
    span = findName source name ∧
      ∃ sections, Decodes source sections ∧ (context, name) ∈ namesInOrder sections := by
  cases hparse : Toml.parse? source with
  | none =>
    rw [Table.load, hparse] at h
    cases h
  | some t =>
    cases hsections : sectionsOf t.entries with
    | error err =>
      simp only [Table.load, hparse, hsections, bind, Except.bind] at h
      cases h
      exact absurd hsections (refusesNoName_sectionsOf t.entries _ _ _ _)
    | ok sections =>
      have hdecodes : Decodes source sections := ⟨t, hparse, sectionsOf_eq_ok_iff.mp hsections⟩
      rw [hdecodes.load_eq] at h
      rcases checkNames_cases source (namesInOrder sections) with
        ⟨hok, -⟩ | ⟨context', name', fault', ⟨before, after, hnames, -⟩, -, herror⟩
      · rw [hok] at h
        cases h
      · rw [herror] at h
        cases h
        exact ⟨rfl, sections, hdecodes, by simp [hnames]⟩

/-- A refused name is that of a key, or of the one entry that a date has. -/
theorem exists_key_of_load (h : Table.load source = .error (.invalidName name context fault span)) :
    name = momentKey ∨ ∃ k ∈ keysOf source, k.name = name := by
  obtain ⟨-, sections, ⟨t, hparse, hsections⟩, hname⟩ := decodes_of_load h
  obtain ⟨keys, inner⟩ := Toml.parse?_keys hparse
  obtain ⟨s, hs, hname⟩ := List.mem_flatMap.mp hname
  obtain ⟨e, he, hkey, hsnippets⟩ := exists_entry_of_forall₂ hsections hs
  rcases List.mem_cons.mp hname with heq | hname
  · cases heq
    exact .inr (keys s.1 (hkey ▸ List.mem_map_of_mem he))
  · obtain ⟨p, hp, heq⟩ := List.mem_map.mp hname
    cases heq
    rcases hsnippets with ⟨t', hitem, hsnippets⟩ | ⟨-, hmoment⟩
    · obtain ⟨keys', -⟩ := inner e he t' hitem
      obtain ⟨e', he', hkey', -⟩ := exists_entry_of_forall₂ hsnippets hp
      exact .inr (keys' p.1 (hkey' ▸ List.mem_map_of_mem he'))
    · rw [hmoment, List.mem_singleton] at hp
      exact .inl (by rw [hp])

end

/-! ## Keys that spell the name -/

/-- The name of the key, put at a place, lies inside the key. -/
def Holds (k : Key) (place : Nat) : Prop :=
  k.span.start ≤ place ∧ place + k.name.utf8ByteSize ≤ k.span.start + k.span.length

/-- The name, put at a place, lies inside a key of the document that spells it. -/
def InKey (source name : String) (place : Nat) : Prop :=
  ∃ k ∈ keysOf source, k.name = name ∧ Holds k place

/-- The search may as well meet a comment or a value first. -/
theorem Table.load_points_elsewhere :
    let comment := "# a b\n['a b']\n"
    let value := "[s]\nx = 'a b'\n'a b' = '1'\n"
    load comment = .error (.invalidName "a b" .sectionName (.badCharacter .sectionName) (some ⟨2, 3⟩)) ∧
    ¬InKey comment "a b" 2 ∧
    load value = .error (.invalidName "a b" .snippetName (.badCharacter .snippetName) (some ⟨9, 3⟩)) ∧
    ¬InKey value "a b" 9 := by
  intro comment value
  have hcomment : keysOf comment = [⟨"a b", ⟨7, 5⟩⟩] := by decide +kernel
  have hvalue : keysOf value = [⟨"s", ⟨1, 1⟩⟩, ⟨"x", ⟨4, 1⟩⟩, ⟨"a b", ⟨14, 5⟩⟩] := by decide +kernel
  refine ⟨by decide +kernel, ?_, by decide +kernel, ?_⟩
  · simp [InKey, Holds, hcomment]
  · simp [InKey, Holds, hvalue]

/-- The key is a string between double quotes with an escape in it. -/
def Escaped (source : String) (k : Key) : Prop :=
  ∃ body, '\\' ∈ body ∧ StandsAt ('"' :: body ++ ['"']) source.toList k.span.start ∧
    byteLength ('"' :: body ++ ['"']) = k.span.length

theorem standsAt_inside {text before name after : List Char} {place : Nat}
    (h : StandsAt (before ++ name ++ after) text place) :
    StandsAt name text (place + byteLength before) := by
  obtain ⟨front, back, rfl, rfl⟩ := h
  exact ⟨front ++ before, after ++ back, by simp, by simp⟩

/-- A key without escapes has its name inside it. -/
theorem escaped_or_holds {source : String} {k : Key} (hk : k ∈ keysOf source) :
    Escaped source k ∨ ∃ place, StandsAt k.name.toList source.toList place ∧ Holds k place := by
  obtain ⟨text, hwrites, hstands, hlength⟩ := Toml.keysOf_written hk
  have hsize : k.name.utf8ByteSize = byteLength k.name.toList := by
    rw [byteLength_eq_utf8ByteSize, String.ofList_toList]
  have hinside (before after : List Char) (htext : text = before ++ k.name.toList ++ after) :
      ∃ place, StandsAt k.name.toList source.toList place ∧ Holds k place := by
    subst htext
    refine ⟨_, standsAt_inside hstands, Nat.le_add_right _ _, ?_⟩
    rw [hsize, ← hlength, byteLength_append, byteLength_append]
    omega
  cases hwrites with
  | bare => exact .inr (hinside [] [] (by simp))
  | literal => exact .inr (hinside ['\''] ['\''] (by simp))
  | basic hbody =>
    rcases hbody with rfl | hescape
    · exact .inr (hinside ['"'] ['"'] (by simp))
    · exact .inl ⟨_, hescape, hstands, hlength⟩

/-! ## The place that is pointed out -/

/-- The forms of a key that are looked for, in their order. -/
def keyForms (name : String) : List (List Char) :=
  [("[" ++ name ++ "]").toList, ("\"" ++ name ++ "\"").toList, ("\n" ++ name ++ " =").toList,
    ("\n" ++ name ++ "=").toList]

/-- The form stands in the source, and none of those that are looked for before it does. -/
structure Foremost (source name : String) (form : List Char) : Prop where
  stands : ∃ place, StandsAt form source.toList place
  foremost : ∃ before after, keyForms name = before ++ form :: after ∧
    ∀ other ∈ before, ∀ place, ¬StandsAt other source.toList place

/-- Where a name is met: behind the first character of the first form of a key that stands in the source,
and if none does, where the name itself stands first. -/
inductive Met (source name : String) : Nat → Prop where
  | form {form : List Char} {place : Nat} (hform : Foremost source name form)
      (hfirst : FirstAt form source.toList place) : Met source name (place + 1)
  | name {place : Nat} (hnone : ∀ form ∈ keyForms name, ∀ place, ¬StandsAt form source.toList place)
      (hfirst : FirstAt name.toList source.toList place) : Met source name place

section

variable {source name : String} {span : Span}

theorem keyPatterns_eq (name : String) : keyPatterns name.toList = keyForms name := by
  simp [keyPatterns, keyForms]

theorem Foremost.unique {form form' : List Char} (h : Foremost source name form)
    (h' : Foremost source name form') : form = form' := by
  obtain ⟨⟨place, hplace⟩, before, after, hforms, hbefore⟩ := h
  obtain ⟨⟨place', hplace'⟩, before', after', hforms', hbefore'⟩ := h'
  -- of two forms in one list the earlier one would be passed over by the other
  rcases List.append_eq_append_iff.mp (hforms.symm.trans hforms') with ⟨mid, rfl, hmid⟩ | ⟨mid, rfl, hmid⟩
  · cases mid with
    | nil => exact (List.cons.inj hmid).1
    | cons first mid =>
      obtain ⟨rfl, -⟩ := List.cons.inj hmid
      exact absurd hplace (hbefore' form (by simp) place)
  · cases mid with
    | nil => exact (List.cons.inj hmid).1.symm
    | cons first mid =>
      obtain ⟨rfl, -⟩ := List.cons.inj hmid
      exact absurd hplace' (hbefore form' (by simp) place')

/-- A name is met at one place. -/
theorem Met.unique {place other : Nat} (h : Met source name place) (h' : Met source name other) :
    place = other := by
  cases h with
  | form hform hfirst =>
    cases h' with
    | form hform' hfirst' =>
      obtain rfl := hform.unique hform'
      rw [hfirst.unique hfirst']
    | name hnone =>
      obtain ⟨⟨place, hplace⟩, before, after, hforms, -⟩ := hform
      exact absurd hplace (hnone _ (by simp [hforms]) place)
  | name hnone hfirst =>
    cases h' with
    | form hform' =>
      obtain ⟨⟨place, hplace⟩, before, after, hforms, -⟩ := hform'
      exact absurd hplace (hnone _ (by simp [hforms]) place)
    | name _ hfirst' => exact hfirst.unique hfirst'

/-- What is found is met. -/
theorem met_of_findName (h : findName source name = some span) : Met source name span.start := by
  simp only [findName, keyPatterns_eq] at h
  cases hstart : (keyForms name).findSome? fun form =>
      (find? form source.toList).map (· + 1) with
  | some start =>
    rw [hstart] at h
    cases h
    obtain ⟨before, form, after, hforms, hfind, hbefore⟩ := List.findSome?_eq_some_iff.mp hstart
    obtain ⟨place, hplace, rfl⟩ := Option.map_eq_some_iff.mp hfind
    have hfirst := find?_eq_some_iff.mp hplace
    refine .form ⟨⟨place, hfirst.1⟩, before, after, hforms, fun other hother => ?_⟩ hfirst
    exact not_standsAt_of_find? (Option.map_eq_none_iff.mp (hbefore other hother))
  | none =>
    rw [hstart] at h
    obtain ⟨place, hplace, rfl⟩ := Option.map_eq_some_iff.mp h
    refine .name (fun form hform => ?_) (find?_eq_some_iff.mp hplace)
    have hnone := List.findSome?_eq_none_iff.mp hstart form hform
    exact not_standsAt_of_find? (Option.map_eq_none_iff.mp hnone)

/-- A name that stands once, and is the name of a key without escapes, stands in that key. -/
theorem inKey_of_name (hfind : findName source name = some span)
    (honce : ∃! place, StandsAt name.toList source.toList place)
    (hkey : ∃ k ∈ keysOf source, k.name = name ∧ ¬Escaped source k) :
    InKey source name span.start := by
  obtain ⟨k, hk, rfl, hplain⟩ := hkey
  obtain ⟨place, hstands, hholds⟩ := (escaped_or_holds hk).resolve_left hplain
  have hspan := (standsAt_of_findName hfind).1
  rw [honce.unique hspan hstands]
  exact ⟨k, hk, rfl, hholds⟩

/-- A form that stands only in keys is met in one of them. -/
theorem inKey_of_form (hfind : findName source name = some span) {form : List Char}
    (hform : Foremost source name form)
    (hkeys : ∀ place, StandsAt form source.toList place → InKey source name (place + 1)) :
    InKey source name span.start := by
  have hmet := met_of_findName hfind
  generalize span.start = start at hmet
  cases hmet with
  | form hform' hfirst =>
    obtain rfl := hform.unique hform'
    exact hkeys _ hfirst.1
  | name hnone =>
    obtain ⟨⟨place, hplace⟩, before, after, hforms, -⟩ := hform
    exact absurd hplace (hnone form (by simp [hforms]) place)

end

/-- The place of a refused name covers the name, and the name is that of a key. It stands in each such
key that has no escapes. The place is the one where a search for the forms of a key, and then for the
name, meets the name. So it is inside one of these keys if the name stands once in the source, and if
the form that the search comes to stands in such keys only. -/
theorem Table.load_points_at_key {source name : String} {context : NameContext} {fault : NameFault}
    {span : Span} (h : load source = .error (.invalidName name context fault (some span))) :
    Covers source name span ∧
    (name = "$__toml_private_datetime" ∨ ∃ k ∈ keysOf source, k.name = name) ∧
    (∀ k ∈ keysOf source, k.name = name → Escaped source k ∨
      ∃ place, StandsAt name.toList source.toList place ∧ Holds k place) ∧
    (∀ place, Met source name place ↔ place = span.start) ∧
    ((∃! place, StandsAt name.toList source.toList place) →
      (∃ k ∈ keysOf source, k.name = name ∧ ¬Escaped source k) → InKey source name span.start) ∧
    ∀ form, Foremost source name form →
      (∀ place, StandsAt form source.toList place → InKey source name (place + 1)) →
      InKey source name span.start := by
  have hfind := (decodes_of_load h).1.symm
  have hmet := met_of_findName hfind
  refine ⟨covers_of_findName hfind, exists_key_of_load h, ?_, fun place => ?_, inKey_of_name hfind,
    fun form => inKey_of_form hfind⟩
  · rintro k hk rfl
    exact escaped_or_holds hk
  · constructor
    · intro hplace
      exact hplace.unique hmet
    · rintro rfl
      exact hmet

/-- A name that stands once, in a key between single quotes, which are not looked for; and a key between
double quotes, which is met before the name in a comment and in a value. -/
theorem Table.load_points_at_key_in_quotes :
    let once := "[s]\n'a b' = \"1\"\n"
    let quoted := "# a b\n[s]\nx = 'a b c'\n\"a b\" = \"1\"\n"
    (load once = .error (.invalidName "a b" .snippetName (.badCharacter .snippetName) (some ⟨5, 3⟩)) ∧
      (∃! place, StandsAt "a b".toList once.toList place) ∧
      (∃ k ∈ keysOf once, k.name = "a b" ∧ ¬Escaped once k) ∧ InKey once "a b" 5) ∧
    load quoted = .error (.invalidName "a b" .snippetName (.badCharacter .snippetName) (some ⟨23, 3⟩)) ∧
      Foremost quoted "a b" "\"a b\"".toList ∧
      (∀ place, StandsAt "\"a b\"".toList quoted.toList place → InKey quoted "a b" (place + 1)) ∧
      InKey quoted "a b" 23 := by
  intro once quoted
  have honce : load once =
      .error (.invalidName "a b" .snippetName (.badCharacter .snippetName) (some ⟨5, 3⟩)) := by
    decide +kernel
  have hquoted : load quoted =
      .error (.invalidName "a b" .snippetName (.badCharacter .snippetName) (some ⟨23, 3⟩)) := by
    decide +kernel
  have hkeys : keysOf once = [⟨"s", ⟨1, 1⟩⟩, ⟨"a b", ⟨4, 5⟩⟩] := by decide +kernel
  have hkeys' : keysOf quoted = [⟨"s", ⟨7, 1⟩⟩, ⟨"x", ⟨10, 1⟩⟩, ⟨"a b", ⟨22, 5⟩⟩] := by decide +kernel
  have hstands (place : Nat) : StandsAt "a b".toList once.toList place ↔ place = 5 := by
    have hplaces : places "a b".toList once.toList = [5] := by decide
    rw [← mem_places_iff, hplaces, List.mem_singleton]
  have hplain : ¬Escaped once ⟨"a b", ⟨4, 5⟩⟩ := by
    rintro ⟨body, hescape, ⟨before, after, htext, -⟩, -⟩
    have hsource : '\\' ∈ once.toList := by
      rw [htext]
      simp [hescape]
    exact absurd hsource (by decide)
  have hunique : ∃! place, StandsAt "a b".toList once.toList place :=
    ⟨5, (hstands 5).mpr rfl, fun place => (hstands place).mp⟩
  have hkey : ∃ k ∈ keysOf once, k.name = "a b" ∧ ¬Escaped once k :=
    ⟨⟨"a b", ⟨4, 5⟩⟩, by simp [hkeys], rfl, hplain⟩
  have hstands' (place : Nat) : StandsAt "\"a b\"".toList quoted.toList place ↔ place = 22 := by
    have hplaces : places "\"a b\"".toList quoted.toList = [22] := by decide
    rw [← mem_places_iff, hplaces, List.mem_singleton]
  have hforemost : Foremost quoted "a b" "\"a b\"".toList := by
    refine ⟨⟨22, (hstands' 22).mpr rfl⟩, ["[a b]".toList], _, rfl, fun other hother place => ?_⟩
    have hplaces : places "[a b]".toList quoted.toList = [] := by decide
    rw [List.mem_singleton.mp hother, ← mem_places_iff, hplaces]
    exact List.not_mem_nil
  have hinside (place : Nat) (h : StandsAt "\"a b\"".toList quoted.toList place) :
      InKey quoted "a b" (place + 1) := by
    rw [(hstands' place).mp h]
    exact ⟨⟨"a b", ⟨22, 5⟩⟩, by simp [hkeys'], rfl, by decide, by decide⟩
  obtain ⟨-, -, -, -, hpoint, -⟩ := Table.load_points_at_key honce
  obtain ⟨-, -, -, -, -, hpoint'⟩ := Table.load_points_at_key hquoted
  exact ⟨⟨honce, hunique, hkey, hpoint hunique hkey⟩, hquoted, hforemost, hinside,
    hpoint' _ hforemost hinside⟩

end IdlStencil.Snippet
