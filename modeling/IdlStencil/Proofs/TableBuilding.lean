import IdlStencil.Snippet.Table

/-!
# Building a table

A table is built by inserting templates, each under a section and a name. Sections and names may come
in any order and more than once: what is new is put at the end, and what is there is replaced in its
place. One insertion keeps what is known about a table from the insertions before it (`Built.insert`),
and so do any number of them. The table thus lists sections and snippets as they first came, has no
empty section, and answers with what came last (`Table.built_in_order`).

Conversely a table without empty sections is built from its own snippets. All snippets of one section
are together one insertion of the section (`Table.insertAll_section`), and sections with distinct names
are put one behind the other.
-/

namespace IdlStencil.OrderedMap

variable {α : Type}

theorem mem_entries_iff (m : OrderedMap α) (name : String) (a : α) :
    (name, a) ∈ m.entries ↔ m.get? name = some a := by
  obtain ⟨entries, distinct⟩ := m
  simp only [get?]
  induction entries with
  | nil => simp
  | cons p entries ih =>
    obtain ⟨n, b⟩ := p
    obtain ⟨hn, hentries⟩ := List.nodup_cons.mp distinct
    by_cases h : name = n
    · subst h
      have hname : (name, a) ∉ entries := fun hmem => hn (List.mem_map.mpr ⟨_, hmem, rfl⟩)
      simp [hname, eq_comm]
    · simp [List.lookup_cons, beq_false_of_ne h, h, ih hentries]

theorem get?_eq_none_iff (m : OrderedMap α) (name : String) : m.get? name = none ↔ name ∉ m.names := by
  rw [Option.eq_none_iff_forall_ne_some, names, List.mem_map]
  constructor
  · rintro h ⟨p, hp, rfl⟩
    exact h p.2 ((m.mem_entries_iff p.1 p.2).mp hp)
  · intro h a ha
    exact h ⟨(name, a), (m.mem_entries_iff name a).mpr ha, rfl⟩

theorem insert_insert (m : OrderedMap α) (name : String) (a b : α) :
    (m.insert name a).insert name b = m.insert name b := by
  obtain ⟨entries, distinct⟩ := m
  ext1
  simp only [insert]
  clear distinct
  induction entries with
  | nil => simp [insertPair]
  | cons p entries ih => by_cases h : p.1 = name <;> simp [insertPair, h, ih]

/-- The names that were there keep their places. -/
theorem names_prefix_insert (m : OrderedMap α) (name : String) (a : α) :
    m.names <+: (m.insert name a).names := by
  rw [names_insert]
  split
  · exact List.prefix_rfl
  · exact List.prefix_append _ _

/-- A map is made of its own entries. -/
theorem ofList_entries (m : OrderedMap α) : ofList m.entries = m :=
  OrderedMap.ext (entries_ofList m.distinct)

end IdlStencil.OrderedMap

namespace IdlStencil.Snippet

/-- A template with the section and the name under which it is inserted. -/
structure Insertion where
  sectionName : String
  name : String
  template : String
  deriving DecidableEq, Repr

namespace Table

/-- Inserts templates in order. -/
def insertAll (t : Table) (is : List Insertion) : Table :=
  is.foldl (fun t i => t.insert i.sectionName i.name i.template) t

/-- The templates of a section under its name, in order. -/
def sectionInsertions (s : String × Section) : List Insertion :=
  s.2.entries.map fun p => ⟨s.1, p.1, p.2⟩

/-- The templates of a table, section by section. -/
def insertions (t : Table) : List Insertion := t.sections.entries.flatMap sectionInsertions

/-- No section of the table is empty. -/
def NoEmptySection (t : Table) : Prop := ∀ s ∈ t.sections.entries, s.2.entries ≠ []

variable {t : Table} {is : List Insertion}

theorem section?_insert (t : Table) (sectionName name template s : String) :
    (t.insert sectionName name template).section? s =
      if s = sectionName then some (((t.section? sectionName).getD .empty).insert name template)
      else t.section? s :=
  OrderedMap.get?_insert _ _ _ _

/-! ## Insertions -/

/-- The names of a list, each where it first stands. -/
theorem eraseDups_concat (names : List String) (name : String) :
    (names ++ [name]).eraseDups =
      if name ∈ names then names.eraseDups else names.eraseDups ++ [name] := by
  rw [List.eraseDups_append]
  by_cases h : name ∈ names <;> simp [List.removeAll, h, List.eraseDups_cons]

/-- What insertions into the empty table make of it. -/
structure Built (is : List Insertion) (t : Table) : Prop where
  distinct : t.names.Nodup ∧ ∀ s ∈ t.sections.entries, s.2.names.Nodup
  /-- Sections are listed in the order in which they first came. -/
  sections : t.names = (is.map Insertion.sectionName).eraseDups
  /-- So are the snippets of each section. -/
  snippets : ∀ s ∈ t.sections.entries,
    s.2.names = ((is.filter fun i => i.sectionName = s.1).map Insertion.name).eraseDups
  inhabited : t.NoEmptySection
  /-- The last template for a section and a name is the one that is found. -/
  lookup : ∀ s n, t.get? s n =
    (is.reverse.find? fun i => i.sectionName = s ∧ i.name = n).map Insertion.template

theorem Built.empty : Built [] empty where
  distinct := ⟨List.nodup_nil, by simp [Table.empty, OrderedMap.empty]⟩
  sections := rfl
  snippets := by simp [Table.empty, OrderedMap.empty]
  inhabited := by simp [NoEmptySection, Table.empty, OrderedMap.empty]
  lookup _ _ := rfl

/-- The snippets of a section, which may not be there yet. -/
theorem Built.names_getD (h : Built is t) (s : String) :
    ((t.section? s).getD .empty).names =
      ((is.filter fun i => i.sectionName = s).map Insertion.name).eraseDups := by
  cases hs : t.section? s with
  | some snippets => exact h.snippets (s, snippets) ((OrderedMap.mem_entries_iff _ _ _).mpr hs)
  | none =>
    have hnew : s ∉ is.map Insertion.sectionName := by
      rw [← List.mem_eraseDups, ← h.sections]
      exact (OrderedMap.get?_eq_none_iff _ _).mp hs
    have hfilter : (is.filter fun i => i.sectionName = s) = [] := by
      refine List.filter_eq_nil_iff.mpr fun i hi he => hnew ?_
      exact List.mem_map.mpr ⟨i, hi, by simpa using he⟩
    rw [hfilter]
    rfl

/-- A section after an insertion is a new version of the one at its name, or one of those before. -/
theorem mem_sections_insert {i : Insertion} {s : String × Section}
    (hs : s ∈ (t.insert i.sectionName i.name i.template).sections.entries) :
    s = (i.sectionName, ((t.section? i.sectionName).getD .empty).insert i.name i.template) ∨
      s.1 ≠ i.sectionName ∧ s ∈ t.sections.entries := by
  have hget := (OrderedMap.mem_entries_iff _ s.1 s.2).mp hs
  rw [← section?, section?_insert] at hget
  split at hget
  · next heq => exact .inl (Prod.ext heq (Option.some.inj hget).symm)
  · next hne => exact .inr ⟨hne, (OrderedMap.mem_entries_iff _ _ _).mpr hget⟩

theorem Built.insert (h : Built is t) (i : Insertion) :
    Built (is ++ [i]) (t.insert i.sectionName i.name i.template) where
  distinct := ⟨OrderedMap.distinct _, fun s _ => s.2.distinct⟩
  sections := by
    have hnames : (t.insert i.sectionName i.name i.template).names =
        if i.sectionName ∈ t.names then t.names else t.names ++ [i.sectionName] :=
      OrderedMap.names_insert _ _ _
    rw [hnames, List.map_append, List.map_singleton, eraseDups_concat, h.sections]
    simp only [List.mem_eraseDups]
  snippets := by
    intro s hs
    rw [List.filter_append, List.map_append]
    rcases mem_sections_insert hs with rfl | ⟨hne, hs⟩
    · have hself : [i].filter (fun j => j.sectionName = i.sectionName) = [i] := by simp
      rw [OrderedMap.names_insert, h.names_getD, hself, List.map_singleton, eraseDups_concat]
      simp only [List.mem_eraseDups]
    · have hother : [i].filter (fun j => j.sectionName = s.1) = [] := by simp [hne.symm]
      rw [h.snippets s hs, hother, List.map_nil, List.append_nil]
  inhabited := by
    intro s hs
    rcases mem_sections_insert hs with rfl | ⟨-, hs⟩
    · exact insertPair_ne_nil
    · exact h.inhabited s hs
  lookup := by
    intro s n
    rw [get?_insert, h.lookup, List.reverse_append, List.reverse_singleton, List.singleton_append,
      List.find?_cons]
    by_cases hi : s = i.sectionName ∧ n = i.name
    · simp [hi]
    · have hi' : ¬(i.sectionName = s ∧ i.name = n) := fun h => hi ⟨h.1.symm, h.2.symm⟩
      simp only [hi, hi', if_false, decide_false]

theorem Built.insertAll (h : Built is t) (js : List Insertion) : Built (is ++ js) (t.insertAll js) := by
  induction js generalizing is t with
  | nil => rwa [List.append_nil]
  | cons j js ih =>
    rw [← List.singleton_append, ← List.append_assoc]
    exact ih (h.insert j)

/-- A template stands at a place of a table, and nothing else is changed or moved. -/
structure InsertedAt (t : Table) (sectionName name template : String) (after : Table) : Prop where
  here : after.get? sectionName name = some template
  elsewhere : ∀ s n, (s, n) ≠ (sectionName, name) → after.get? s n = t.get? s n
  /-- Sections keep their places. -/
  sections : t.names <+: after.names
  /-- So do the snippets of each section. -/
  snippets : ∀ s snippets, t.section? s = some snippets →
    ∃ snippets', after.section? s = some snippets' ∧ snippets.names <+: snippets'.names

theorem insertedAt_insert (t : Table) (sectionName name template : String) :
    InsertedAt t sectionName name template (t.insert sectionName name template) where
  here := by simp [get?_insert]
  elsewhere := by
    intro s n hne
    rw [get?_insert, if_neg]
    rintro ⟨rfl, rfl⟩
    exact hne rfl
  sections := OrderedMap.names_prefix_insert _ _ _
  snippets := by
    intro s snippets hs
    rw [section?_insert]
    split
    · next heq =>
      subst heq
      exact ⟨_, rfl, by simpa [hs] using OrderedMap.names_prefix_insert snippets name template⟩
    · exact ⟨snippets, hs, List.prefix_rfl⟩

/-! ## Building a table again -/

/-- The snippets of one section, of which there is at least one, are inserted as a whole. -/
theorem insertAll_section (t : Table) (s : String) {pairs : List (String × String)} (h : pairs ≠ []) :
    t.insertAll (pairs.map fun p => ⟨s, p.1, p.2⟩) =
      ⟨t.sections.insert s
        (pairs.foldl (fun m p => m.insert p.1 p.2) ((t.section? s).getD .empty))⟩ := by
  induction pairs generalizing t with
  | nil => exact absurd rfl h
  | cons p pairs ih =>
    cases pairs with
    | nil => rfl
    | cons q pairs =>
      have hsection : ((t.insert s p.1 p.2).section? s).getD .empty =
          ((t.section? s).getD .empty).insert p.1 p.2 := by
        rw [section?_insert, if_pos rfl, Option.getD_some]
      rw [List.map_cons, insertAll, List.foldl_cons, ← insertAll, ih _ (by simp), hsection,
        Table.insert, OrderedMap.insert_insert]
      rfl

theorem insertAll_append (t : Table) (is js : List Insertion) :
    t.insertAll (is ++ js) = (t.insertAll is).insertAll js :=
  List.foldl_append

/-- A section with a new name and at least one snippet is put at the end as it is. -/
theorem insertAll_new_section {s : String × Section} (hnew : s.1 ∉ t.names) (h : s.2.entries ≠ []) :
    (t.insertAll (sectionInsertions s)).sections.entries = t.sections.entries ++ [s] := by
  have hnone : t.section? s.1 = none := (OrderedMap.get?_eq_none_iff _ _).mpr hnew
  have hsnippets : s.2.entries.foldl (fun m p => m.insert p.1 p.2) .empty = s.2 :=
    OrderedMap.ofList_entries s.2
  rw [sectionInsertions, insertAll_section t s.1 h, hnone, Option.getD_none, hsnippets]
  exact insertPair_of_not_mem hnew

theorem insertAll_new_sections {sections : List (String × Section)}
    (hnames : ((t.sections.entries ++ sections).map Prod.fst).Nodup)
    (h : ∀ s ∈ sections, s.2.entries ≠ []) :
    (t.insertAll (sections.flatMap sectionInsertions)).sections.entries =
      t.sections.entries ++ sections := by
  induction sections generalizing t with
  | nil => exact (List.append_nil _).symm
  | cons s sections ih =>
    obtain ⟨hs, hsections⟩ := List.forall_mem_cons.mp h
    have hnew : s.1 ∉ t.names := by
      intro hmem
      rw [List.map_append, List.map_cons, List.nodup_append] at hnames
      exact hnames.2.2 _ hmem _ List.mem_cons_self rfl
    have hfirst := insertAll_new_section hnew hs
    have hnames' : (((t.insertAll (sectionInsertions s)).sections.entries ++ sections).map
        Prod.fst).Nodup := by
      rwa [hfirst, List.append_assoc, List.singleton_append]
    rw [List.flatMap_cons, insertAll_append, ih hnames' hsections, hfirst, List.append_assoc,
      List.singleton_append]

theorem insertAll_insertions (h : t.NoEmptySection) : empty.insertAll t.insertions = t := by
  have hentries := insertAll_new_sections (t := empty) t.sections.distinct h
  cases hrebuilt : empty.insertAll t.insertions with
  | mk sections =>
    rw [insertions] at hrebuilt
    rw [hrebuilt] at hentries
    exact congrArg Table.mk (OrderedMap.ext hentries)

/-- Insertions into the empty table list sections and snippets in the order in which they first came
and leave none empty, and the last template for a name is found. Each of them touches its own place
only. Every table without empty sections is built so, from its own snippets in their order. -/
theorem built_in_order (is : List Insertion) :
    Built is (empty.insertAll is) ∧
    (∀ t sectionName name template,
      InsertedAt t sectionName name template (t.insert sectionName name template)) ∧
    ∀ t : Table, t.NoEmptySection → empty.insertAll t.insertions = t :=
  ⟨Built.empty.insertAll is, insertedAt_insert, fun _ => insertAll_insertions⟩

end Table
end IdlStencil.Snippet
