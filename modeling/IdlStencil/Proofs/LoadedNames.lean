import Mathlib.Data.List.Forall2
import IdlStencil.Proofs.TableKeys
import IdlStencil.Snippet.Load

/-!
# The names of a loaded table

A text that decodes to sections of strings is loaded exactly if all names are well formed. The names
are checked one by one, each section before its snippets (`namesInOrder`), and the first one that is
not well formed ends the check. A table that passes has the decoded sections and snippets in their
order, because keys of a document are distinct and so no entry is put in the place of another
(`Table.load_checks_names`).
-/

namespace IdlStencil.Snippet

/-! ## Well-formed names -/

/-- A letter or digit of ASCII, or an underscore. -/
def IsIdentifierChar (c : Char) : Prop :=
  ('a' ≤ c ∧ c ≤ 'z') ∨ ('A' ≤ c ∧ c ≤ 'Z') ∨ ('0' ≤ c ∧ c ≤ '9') ∨ c = '_'

/-- A name with at least one character, all of which are allowed. Only sections have dashes. -/
def WellNamed (context : NameContext) (name : String) : Prop :=
  name ≠ "" ∧ ∀ c ∈ name.toList, IsIdentifierChar c ∨ context = .sectionName ∧ c = '-'

theorem allowed_iff {context : NameContext} {c : Char} :
    allowed context c = true ↔ IsIdentifierChar c ∨ context = .sectionName ∧ c = '-' := by
  have hupper : c.isUpper = true ↔ 'A' ≤ c ∧ c ≤ 'Z' := decide_eq_true_iff
  have hlower : c.isLower = true ↔ 'a' ≤ c ∧ c ≤ 'z' :=
    Bool.and_eq_true_iff.trans (and_congr decide_eq_true_iff decide_eq_true_iff)
  have hdigit : c.isDigit = true ↔ '0' ≤ c ∧ c ≤ '9' :=
    Bool.and_eq_true_iff.trans (and_congr decide_eq_true_iff decide_eq_true_iff)
  have halphanum : c.isAlphanum = (c.isUpper || c.isLower || c.isDigit) := rfl
  simp only [allowed, halphanum, Bool.or_eq_true, Bool.and_eq_true, decide_eq_true_eq, hupper, hlower,
    hdigit, IsIdentifierChar]
  grind

theorem nameFault?_eq_none_iff_wellNamed {context : NameContext} {name : String} :
    nameFault? context name = none ↔ WellNamed context name := by
  simp only [nameFault?_eq_none_iff, WellNamed, allowed_iff]

/-- An empty name has a reason of its own. -/
theorem reason_eq_empty_iff {context : NameContext} {name : String} {fault : NameFault}
    (h : nameFault? context name = some fault) :
    fault.reason = "name cannot be empty" ↔ name = "" := by
  unfold nameFault? at h
  split at h
  · next hempty =>
    cases h
    simpa [NameFault.reason] using hempty
  · next hempty =>
    split at h
    · cases h
    · cases h
      cases context <;> simpa [NameFault.reason] using hempty

/-! ## Checking in order -/

/-- Every name with what it is for, in the order in which names are checked. -/
def namesInOrder (sections : List (String × List (String × String))) : List (NameContext × String) :=
  sections.flatMap fun s => (.sectionName, s.1) :: s.2.map fun p => (.snippetName, p.1)

/-- Checks names until one is not allowed. -/
def checkNames (source : String) : List (NameContext × String) → Except LoadError Unit
  | [] => .ok ()
  | p :: ps => do
    checkName source p.1 p.2
    checkNames source ps

theorem checkNames_append (source : String) (ps qs : List (NameContext × String)) :
    checkNames source (ps ++ qs) = (do checkNames source ps; checkNames source qs) := by
  induction ps with
  | nil => rfl
  | cons p ps ih =>
    rw [List.cons_append, checkNames, checkNames, ih, bind_assoc]

theorem checkSnippets_eq (source : String) (snippets : List (String × String)) :
    checkSnippets source snippets = checkNames source (snippets.map fun p => (.snippetName, p.1)) := by
  induction snippets with
  | nil => rfl
  | cons p snippets ih => rw [checkSnippets, ih, List.map_cons, checkNames]

theorem checkSections_eq (source : String) (sections : List (String × List (String × String))) :
    checkSections source sections = checkNames source (namesInOrder sections) := by
  induction sections with
  | nil => rfl
  | cons s sections ih =>
    have hnames : namesInOrder (s :: sections) = (.sectionName, s.1) ::
        (s.2.map (fun p => (.snippetName, p.1)) ++ namesInOrder sections) := rfl
    rw [checkSections, ih, checkSnippets_eq, hnames, checkNames, checkNames_append]

/-- The first name that is not well formed. -/
def FirstOffending (names : List (NameContext × String)) (context : NameContext) (name : String) :
    Prop :=
  ∃ before after, names = before ++ (context, name) :: after ∧
    (∀ p ∈ before, WellNamed p.1 p.2) ∧ ¬WellNamed context name

theorem FirstOffending.not_wellNamed {names : List (NameContext × String)} {context : NameContext}
    {name : String} (h : FirstOffending names context name) :
    ¬∀ p ∈ names, WellNamed p.1 p.2 := by
  obtain ⟨before, after, rfl, -, hname⟩ := h
  intro hall
  exact hname (hall (context, name) (by simp))

theorem checkNames_cases (source : String) (names : List (NameContext × String)) :
    (checkNames source names = .ok () ∧ ∀ p ∈ names, WellNamed p.1 p.2) ∨
    ∃ context name fault, FirstOffending names context name ∧ nameFault? context name = some fault ∧
      checkNames source names = .error (.invalidName name context fault (findName source name)) := by
  induction names with
  | nil => exact .inl ⟨rfl, by simp⟩
  | cons p names ih =>
    rw [checkNames, checkName]
    cases hfault : nameFault? p.1 p.2 with
    | some fault =>
      have hnot : ¬WellNamed p.1 p.2 := by
        rw [← nameFault?_eq_none_iff_wellNamed, hfault]
        simp
      exact .inr ⟨p.1, p.2, fault, ⟨[], names, rfl, by simp, hnot⟩, hfault, rfl⟩
    | none =>
      have hp : WellNamed p.1 p.2 := nameFault?_eq_none_iff_wellNamed.mp hfault
      rcases ih with ⟨hok, hnames⟩ | ⟨context, name, fault, hfirst, hname, herror⟩
      · exact .inl ⟨hok, List.forall_mem_cons.mpr ⟨hp, hnames⟩⟩
      · obtain ⟨before, after, rfl, hbefore, hnot⟩ := hfirst
        exact .inr ⟨context, name, fault,
          ⟨p :: before, after, rfl, List.forall_mem_cons.mpr ⟨hp, hbefore⟩, hnot⟩, hname, herror⟩

theorem checkSections_eq_ok_iff {source : String}
    {sections : List (String × List (String × String))} :
    checkSections source sections = .ok () ↔ ∀ p ∈ namesInOrder sections, WellNamed p.1 p.2 := by
  rw [checkSections_eq]
  rcases checkNames_cases source (namesInOrder sections) with
    ⟨hok, hnames⟩ | ⟨context, name, fault, hfirst, -, herror⟩
  · exact iff_of_true hok hnames
  · refine iff_of_false (fun hok => ?_) hfirst.not_wellNamed
    rw [herror] at hok
    cases hok

/-! ## Decoded tables -/

def IsSnippet (e : Toml.Entry) (p : String × String) : Prop := e.key = p.1 ∧ e.item = .text p.2

/-- A table of strings is a section. So is a date or time, with one snippet whose name is refused. -/
def IsSection (e : Toml.Entry) (s : String × List (String × String)) : Prop :=
  e.key = s.1 ∧ ((∃ t, e.item = .table t ∧ List.Forall₂ IsSnippet t.entries s.2) ∨
    e.item = .plain .moment ∧ s.2 = [(momentKey, "")])

/-- The text is a document of these sections of strings, in order. -/
def Decodes (source : String) (sections : List (String × List (String × String))) : Prop :=
  ∃ t, Toml.parse? source = some t ∧ List.Forall₂ IsSection t.entries sections

section

variable {entries : List Toml.Entry}

theorem cons_eq_ok_iff {α : Type} {x : Except LoadError (List α)} {a : α} {l : List α} :
    (do return a :: (← x)) = Except.ok l ↔ ∃ rest, x = .ok rest ∧ l = a :: rest := by
  cases x <;> simp [bind, Except.bind, pure, Except.pure, eq_comm]

theorem wrongShape_ne_ok {α : Type} {e : Toml.Entry} {expected : String} {a : α} :
    wrongShape e expected ≠ .ok a := by
  unfold wrongShape
  split <;> simp

theorem snippetsOf_eq_ok_iff {snippets : List (String × String)} :
    snippetsOf entries = .ok snippets ↔ List.Forall₂ IsSnippet entries snippets := by
  induction entries generalizing snippets with
  | nil => simp [snippetsOf, eq_comm]
  | cons e entries ih =>
    rw [snippetsOf, List.forall₂_cons_left_iff]
    split
    · next s hitem =>
      rw [cons_eq_ok_iff]
      simp [ih, IsSnippet, hitem]
    · next hitem =>
      refine iff_of_false wrongShape_ne_ok ?_
      rintro ⟨p, _, ⟨-, htext⟩, -⟩
      exact hitem _ htext

theorem sectionsOf_eq_ok_iff {sections : List (String × List (String × String))} :
    sectionsOf entries = .ok sections ↔ List.Forall₂ IsSection entries sections := by
  induction entries generalizing sections with
  | nil => simp [sectionsOf, eq_comm]
  | cons e entries ih =>
    rw [sectionsOf, List.forall₂_cons_left_iff]
    split
    · next t hitem =>
      cases hsnippets : snippetsOf t.entries with
      | ok snippets =>
        change (do return _ :: (← sectionsOf entries)) = _ ↔ _
        rw [cons_eq_ok_iff]
        simp [ih, IsSection, hitem, ← snippetsOf_eq_ok_iff, hsnippets]
      | error err =>
        simp [bind, Except.bind, IsSection, hitem, ← snippetsOf_eq_ok_iff, hsnippets]
    · next hitem =>
      rw [cons_eq_ok_iff]
      simp [ih, IsSection, hitem]
    · next htable hmoment =>
      refine iff_of_false wrongShape_ne_ok ?_
      rintro ⟨s, _, ⟨-, ⟨t, hitem, -⟩ | ⟨hitem, -⟩⟩, -⟩
      · exact htable _ hitem
      · exact hmoment hitem

theorem map_fst_of_forall₂ {α : Type} {R : Toml.Entry → String × α → Prop} {l : List (String × α)}
    (hkey : ∀ e p, R e p → e.key = p.1) (h : List.Forall₂ R entries l) :
    l.map Prod.fst = entries.map Toml.Entry.key := by
  induction h with
  | nil => rfl
  | cons hep _ ih => rw [List.map_cons, List.map_cons, ih, hkey _ _ hep]

theorem exists_entry_of_forall₂ {α : Type} {R : Toml.Entry → α → Prop} {l : List α} {a : α}
    (h : List.Forall₂ R entries l) (ha : a ∈ l) : ∃ e ∈ entries, R e a := by
  induction h with
  | nil => cases ha
  | cons hep _ ih =>
    rcases List.mem_cons.mp ha with rfl | ha
    · exact ⟨_, List.mem_cons_self, hep⟩
    · obtain ⟨e, he, hea⟩ := ih ha
      exact ⟨e, List.mem_cons_of_mem _ he, hea⟩

end

/-- Keys of a document are distinct, and the decoded sections and snippets have their names. -/
theorem Decodes.distinct {source : String} {sections : List (String × List (String × String))}
    (h : Decodes source sections) :
    (sections.map Prod.fst).Nodup ∧ ∀ s ∈ sections, (s.2.map Prod.fst).Nodup := by
  obtain ⟨t, hparse, hsections⟩ := h
  obtain ⟨keys, inner⟩ := Toml.parse?_distinct hparse
  refine ⟨?_, fun s hs => ?_⟩
  · rw [map_fst_of_forall₂ (fun _ _ h => h.1) hsections]
    exact keys
  · obtain ⟨e, he, -, ⟨t', hitem, hsnippets⟩ | ⟨-, hmoment⟩⟩ :=
      exists_entry_of_forall₂ hsections hs
    · obtain ⟨keys', -⟩ := inner e he t' hitem
      rw [map_fst_of_forall₂ (fun _ _ h => h.1) hsnippets]
      exact keys'
    · simp [hmoment]

/-- The sections of a table with their snippets, in order. -/
def Table.listing (table : Table) : List (String × List (String × String)) :=
  table.sections.entries.map fun s => (s.1, s.2.entries)

theorem listing_tableOf {sections : List (String × List (String × String))}
    (hsections : (sections.map Prod.fst).Nodup) (hsnippets : ∀ s ∈ sections, (s.2.map Prod.fst).Nodup) :
    (tableOf sections).listing = sections := by
  rw [Table.listing, tableOf, OrderedMap.entries_ofList (by simpa [Function.comp_def] using hsections),
    List.map_map]
  calc sections.map _ = sections.map id := List.map_congr_left fun s hs => by
        simp [OrderedMap.entries_ofList (hsnippets s hs)]
    _ = sections := List.map_id _

/-! ## Loading -/

theorem Decodes.load_eq {source : String} {sections : List (String × List (String × String))}
    (h : Decodes source sections) :
    Table.load source = (checkNames source (namesInOrder sections)).map fun _ => tableOf sections := by
  obtain ⟨t, hparse, hsections⟩ := h
  rw [Table.load, hparse, ← checkSections_eq]
  simp only [sectionsOf_eq_ok_iff.mpr hsections]
  cases hcheck : checkSections source sections with
  | ok => simp [bind, Except.bind, Except.map, hcheck, pure, Except.pure]
  | error => simp [bind, Except.bind, Except.map, hcheck]

/-- The names of the sections of a loaded table passed their check. -/
theorem Table.nameFault?_of_load {source : String} {table : Table}
    (h : Table.load source = .ok table) {name : String} (hname : name ∈ table.names) :
    nameFault? .sectionName name = none := by
  unfold Table.load at h
  split at h
  · cases h
  · simp only [bind, Except.bind] at h
    split at h
    · cases h
    · next sections _ =>
      split at h
      · cases h
      · next hcheck =>
        cases h
        rw [Table.names, tableOf, OrderedMap.mem_names_ofList, List.map_map] at hname
        obtain ⟨s, hs, rfl⟩ := List.mem_map.mp hname
        refine nameFault?_eq_none_iff_wellNamed.mpr
          (checkSections_eq_ok_iff.mp hcheck (.sectionName, s.1) ?_)
        exact List.mem_flatMap.mpr ⟨s, hs, List.mem_cons_self⟩

/-- A text of sections of strings is loaded exactly if every name is well formed. Then the table has the
sections and snippets in their order, and otherwise the first name that is not well formed is
reported. -/
theorem Table.load_checks_names {source : String} {sections : List (String × List (String × String))}
    (h : Decodes source sections) :
    ((∃ table, load source = .ok table) ↔ ∀ p ∈ namesInOrder sections, WellNamed p.1 p.2) ∧
    (∀ table, load source = .ok table → table.listing = sections) ∧
    ((¬∀ p ∈ namesInOrder sections, WellNamed p.1 p.2) →
      ∃ context name fault, FirstOffending (namesInOrder sections) context name ∧
        load source = .error (.invalidName name context fault (findName source name)) ∧
        (fault.reason = "name cannot be empty" ↔ name = "")) := by
  rw [h.load_eq]
  rcases checkNames_cases source (namesInOrder sections) with
    ⟨hok, hnames⟩ | ⟨context, name, fault, hfirst, hfault, herror⟩
  · rw [hok]
    refine ⟨iff_of_true ⟨_, rfl⟩ hnames, ?_, fun hnot => absurd hnames hnot⟩
    rintro _ ⟨⟩
    exact listing_tableOf h.distinct.1 h.distinct.2
  · rw [herror]
    refine ⟨iff_of_false ?_ hfirst.not_wellNamed, ?_, fun _ =>
      ⟨context, name, fault, hfirst, rfl, reason_eq_empty_iff hfault⟩⟩
    · rintro ⟨_, ⟨⟩⟩
    · rintro _ ⟨⟩

/-- A dash is refused in the name of a snippet, with an empty name of a section after it. -/
theorem Table.load_checks_names_of_dash :
    let source := "[a-b]\nc = \"1\"\n\"d-e\" = \"2\"\n[\"\"]\n"
    let sections := [("a-b", [("c", "1"), ("d-e", "2")]), ("", [])]
    Decodes source sections ∧ ∃ context name fault,
      FirstOffending (namesInOrder sections) context name ∧
      load source = .error (.invalidName name context fault (findName source name)) ∧
      (fault.reason = "name cannot be empty" ↔ name = "") := by
  intro source sections
  have hdecoded : (Toml.parse? source).map (fun t => sectionsOf t.entries) = some (.ok sections) := by
    decide +kernel
  obtain ⟨t, hparse, hsections⟩ := Option.map_eq_some_iff.mp hdecoded
  have hdecodes : Decodes source sections := ⟨t, hparse, sectionsOf_eq_ok_iff.mp hsections⟩
  refine ⟨hdecodes, (Table.load_checks_names hdecodes).2.2 fun hall => ?_⟩
  exact (hall (.sectionName, "") (by simp [namesInOrder, sections])).1 rfl

end IdlStencil.Snippet
