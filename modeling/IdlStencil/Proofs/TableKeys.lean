import IdlStencil.Proofs.DocumentKeys

/-!
# The keys of the tables of a document

Statements are carried out one after another on the table of a document, and each adds an entry, goes
into one, or gives one up for another with the same key. So a property of the keys of one table holds of
every table in the document once it holds of no keys, stays when a key of the document that is not there
yet is put at the end, and stays when keys are left out (`KeyLaw.parse?`). Inline tables are no exception,
since they are made by assignments as well. Two such properties are used: keys are distinct
(`parse?_distinct`), and they are the names of keys that stand in the text (`parse?_keys`).
-/

namespace IdlStencil.Toml

/-- The keys of the table have a property, and so have those of the tables in it. Tables under repeated
headers are left out. -/
inductive Table.Keys (P : List String → Prop) : Table → Prop where
  | mk {t : Table} (keys : P (t.entries.map Entry.key))
      (inner : ∀ e ∈ t.entries, ∀ t', e.item = .table t' → Keys P t') : Keys P t

/-- If the value is a table, its keys have a property, and so on. -/
def Item.Keys (P : List String → Prop) (item : Item) : Prop := ∀ t, item = .table t → t.Keys P

theorem Item.keys_table {P : List String → Prop} {t : Table} (h : t.Keys P) : (Item.table t).Keys P := by
  rintro _ ⟨⟩
  exact h

/-- The keys of the statement are allowed, and its value has keys with a property. -/
def Statement.Keys (Allowed : String → Prop) (P : List String → Prop) : Statement → Prop
  | .header path key _ | .nextHeader path key _ => ∀ k ∈ path ++ [key], Allowed k.name
  | .assignment path key _ item => (∀ k ∈ path ++ [key], Allowed k.name) ∧ item.Keys P

/-- The step gives a table whose keys have a property if it is given one. -/
def KeepsKeys (P : List String → Prop) (f : Table → Option Table) : Prop :=
  ∀ t t', t.Keys P → f t = some t' → t'.Keys P

/-- A property of keys that adding an allowed key keeps, and leaving out keys. -/
structure KeyLaw (Allowed : String → Prop) (P : List String → Prop) : Prop where
  nil : P []
  add {keys : List String} {key : String} : P keys → key ∉ keys → Allowed key → P (keys ++ [key])
  sublist {keys keys' : List String} : keys'.Sublist keys → P keys → P keys'

namespace Table

variable {t t' : Table} {key : String} {item : Item}

theorem find?_eq_none_iff : t.find? key = none ↔ key ∉ t.entries.map Entry.key := by
  simp [find?]

theorem mem_of_find?_eq_some (h : t.find? key = some item) :
    ∃ e ∈ t.entries, e.key = key ∧ e.item = item := by
  obtain ⟨e, he, hitem⟩ := Option.map_eq_some_iff.mp h
  exact ⟨e, List.mem_of_find?_eq_some he, by simpa using List.find?_some he, hitem⟩

namespace Keys

variable {P : List String → Prop}

theorem withOrigin (h : t.Keys P) (origin : Origin) : Keys P { t with origin } := by
  obtain ⟨keys, inner⟩ := h
  exact .mk keys inner

theorem of_find? (h : t.Keys P) (hfind : t.find? key = some (.table t')) : t'.Keys P := by
  obtain ⟨keys, inner⟩ := h
  obtain ⟨e, he, -, hitem⟩ := mem_of_find?_eq_some hfind
  exact inner e he t' hitem

theorem replace (h : t.Keys P) (key : String) (hitem : item.Keys P) : (t.replace key item).Keys P := by
  obtain ⟨keys, inner⟩ := h
  have hkey (e : Entry) : (if e.key = key then { e with item } else e).key = e.key := by split <;> rfl
  refine .mk ?_ fun e he => ?_
  · simpa [Table.replace, Function.comp_def, hkey] using keys
  · obtain ⟨e', he', rfl⟩ := List.mem_map.mp he
    split
    · exact hitem
    · exact inner e' he'

end Keys
end Table

namespace KeyLaw

variable {Allowed : String → Prop} {P : List String → Prop} (law : KeyLaw Allowed P)
include law

variable {t : Table} {item : Item}

theorem empty (origin : Origin) : Table.Keys P ⟨origin, []⟩ := .mk law.nil (by simp)

theorem append {key : String} (h : t.Keys P) (hfind : t.find? key = none) (hkey : Allowed key)
    (span : Span) (hitem : item.Keys P) : (t.append key span item).Keys P := by
  obtain ⟨keys, inner⟩ := h
  refine .mk ?_ fun e he => ?_
  · rw [Table.append, List.map_append]
    exact law.add keys (Table.find?_eq_none_iff.mp hfind) hkey
  · rcases List.mem_append.mp he with he | he
    · exact inner e he
    · rw [List.mem_singleton.mp he]
      exact hitem

theorem erase (h : t.Keys P) (key : String) : (t.erase key).Keys P := by
  obtain ⟨keys, inner⟩ := h
  exact .mk (law.sublist (List.filter_sublist.map Entry.key) keys)
    fun e he => inner e (List.mem_filter.mp he).1

/-! ## Statements -/

/-- Going along a path makes tables, goes into tables, or goes into the last table of a repeated
header. -/
theorem keeps_modify (dotted : Bool) {f : Table → Option Table} (hf : KeepsKeys P f) {path : List Key}
    (hpath : ∀ k ∈ path, Allowed k.name) : KeepsKeys P (Table.modify dotted f path) := by
  induction path with
  | nil => exact hf
  | cons key path ih =>
    obtain ⟨hkey, hpath⟩ := List.forall_mem_cons.mp hpath
    intro t t' ht hmodify
    simp only [Table.modify] at hmodify
    split at hmodify
    · next hfind =>
      obtain ⟨inner, hinner, heq⟩ := Option.bind_eq_some_iff.mp hmodify
      cases heq
      exact law.append ht hfind hkey _ (Item.keys_table (ih hpath _ _ (law.empty _) hinner))
    · next inner hfind =>
      split at hmodify
      · cases hmodify
      · obtain ⟨inner', hinner, heq⟩ := Option.bind_eq_some_iff.mp hmodify
        cases heq
        exact ht.replace _ (Item.keys_table (ih hpath _ _ (ht.of_find? hfind) hinner))
    · obtain ⟨last, -, heq⟩ := Option.bind_eq_some_iff.mp hmodify
      cases heq
      exact ht.replace _ (by rintro _ ⟨⟩)
    · cases hmodify

variable {path : List Key} {key : Key} (hkeys : ∀ k ∈ path ++ [key], Allowed k.name)
include hkeys

theorem keeps_assign (span : Span) (hitem : item.Keys P) :
    KeepsKeys P (Table.assign · path key span item) := by
  obtain ⟨hpath, hkey⟩ := List.forall_mem_append.mp hkeys
  intro t t' ht hassign
  refine law.keeps_modify _ (fun parent parent' hparent h => ?_) hpath t t' ht hassign
  split at h
  · cases h
  · split at h
    · cases h
    · next hfind =>
      cases h
      exact law.append hparent (by simpa using hfind) (by simpa using hkey) span hitem

/-- A table that gets its own header moves to the end with its entries. -/
theorem keeps_openTable (span : Span) : KeepsKeys P (Table.openTable · path key span) := by
  obtain ⟨hpath, hkey⟩ := List.forall_mem_append.mp hkeys
  replace hkey : Allowed key.name := by simpa using hkey
  refine law.keeps_modify _ (fun parent parent' hparent h => ?_) hpath
  split at h
  · next hfind =>
    cases h
    exact law.append hparent hfind hkey span (Item.keys_table (law.empty _))
  · next inner hfind =>
    split at h
    · cases h
      refine law.append (law.erase hparent key.name) ?_ hkey span
        (Item.keys_table ((hparent.of_find? hfind).withOrigin _))
      simp [Table.find?_eq_none_iff, Table.erase]
    · cases h
  · cases h

theorem keeps_openNext (span : Span) : KeepsKeys P (Table.openNext · path key span) := by
  obtain ⟨hpath, hkey⟩ := List.forall_mem_append.mp hkeys
  refine law.keeps_modify _ (fun parent parent' hparent h => ?_) hpath
  split at h
  · next hfind =>
    cases h
    exact law.append hparent hfind (by simpa using hkey) span (by rintro _ ⟨⟩)
  · cases h
    exact hparent.replace _ (by rintro _ ⟨⟩)
  · cases h

end KeyLaw

/-! ## Values -/

namespace KeyLaw

variable {Allowed : String → Prop} {P : List String → Prop}

mutual

theorem value_keys (law : KeyLaw Allowed P) (total : Nat) : ∀ (fuel room : Nat) {cs rest : List Char}
    {item : Item}, (∀ k ∈ valueKeys total fuel room cs, Allowed k.name) →
      value total fuel room cs = some (item, rest) → item.Keys P
  | 0, _, _, _, _, _, h => by
    simp only [value] at h
    cases h
  | fuel + 1, room, cs, rest, item, hkeys, h => by
    simp only [value] at h
    simp only [valueKeys] at hkeys
    split at h
    · obtain ⟨read, -, heq⟩ := Option.map_eq_some_iff.mp h
      cases heq
      rintro _ ⟨⟩
    · next hstring =>
      simp only [hstring] at hkeys
      split at h
      · obtain ⟨read, -, heq⟩ := Option.bind_eq_some_iff.mp h
        cases heq
        rintro _ ⟨⟩
      · obtain ⟨read, hread, heq⟩ := Option.bind_eq_some_iff.mp h
        cases heq
        have hinner := law.inlineEntries_keys total fuel _ (law.empty .header) hkeys hread
        exact Item.keys_table (hinner.withOrigin .inline)
      · obtain ⟨read, -, heq⟩ := Option.bind_eq_some_iff.mp h
        cases heq
        rintro _ ⟨⟩

theorem inlineEntries_keys (law : KeyLaw Allowed P) (total : Nat) : ∀ (fuel room : Nat)
    {cs rest : List Char} {t t' : Table}, t.Keys P →
      (∀ k ∈ inlineKeys total fuel room cs, Allowed k.name) →
      inlineEntries total fuel room t cs = some (t', rest) → t'.Keys P
  | 0, _, _, _, _, _, _, _, h => by
    simp only [inlineEntries] at h
    cases h
  | fuel + 1, room, cs, rest, t, t', ht, hkeys, h => by
    simp only [inlineEntries] at h
    obtain ⟨start, hstart, h⟩ := Option.bind_eq_some_iff.mp h
    split at h
    · cases h
      exact ht
    · obtain ⟨⟨path, key, cs₁⟩, hkey, h⟩ := Option.bind_eq_some_iff.mp h
      obtain ⟨cs₂, hcs₂, h⟩ := Option.bind_eq_some_iff.mp h
      obtain ⟨cs₃, hcs₃, h⟩ := Option.bind_eq_some_iff.mp h
      obtain ⟨cs₄, hcs₄, h⟩ := Option.bind_eq_some_iff.mp h
      obtain ⟨⟨item, cs₅⟩, hitem, h⟩ := Option.bind_eq_some_iff.mp h
      obtain ⟨t₁, hassign, h⟩ := Option.bind_eq_some_iff.mp h
      obtain ⟨cs₆, hcs₆, h⟩ := Option.bind_eq_some_iff.mp h
      simp only [inlineKeys, hstart, hkey, hcs₂, hcs₃, hcs₄, hitem, hcs₆, Option.bind_some] at hkeys
      rw [List.append_cons] at hkeys
      obtain ⟨hown, hvalue⟩ := List.forall_mem_append.mp hkeys
      obtain ⟨hinside, hmore⟩ := List.forall_mem_append.mp hvalue
      have ht₁ : t₁.Keys P := law.keeps_assign hown _ (law.value_keys total fuel room hinside hitem)
        t t₁ ht hassign
      split at h
      · cases h
        exact ht₁
      · exact law.inlineEntries_keys total fuel room ht₁ hmore h
      · cases h

end

/-! ## Documents -/

theorem statement_keys (law : KeyLaw Allowed P) {total fuel : Nat} {cs rest : List Char} {s : Statement}
    (hkeys : ∀ k ∈ statementKeys total fuel cs, Allowed k.name)
    (h : statement total fuel cs = some (s, rest)) : s.Keys Allowed P := by
  unfold statement at h
  split at h
  · obtain ⟨⟨path, key, cs₁⟩, hkey, h⟩ := Option.bind_eq_some_iff.mp h
    obtain ⟨cs₂, -, h⟩ := Option.bind_eq_some_iff.mp h
    obtain ⟨cs₃, -, h⟩ := Option.bind_eq_some_iff.mp h
    obtain ⟨cs₄, -, h⟩ := Option.bind_eq_some_iff.mp h
    cases h
    rw [statementKeys, headerKeys, hkey] at hkeys
    exact hkeys
  · next hsingle =>
    obtain ⟨⟨path, key, cs₁⟩, hkey, h⟩ := Option.bind_eq_some_iff.mp h
    obtain ⟨cs₂, -, h⟩ := Option.bind_eq_some_iff.mp h
    obtain ⟨cs₃, -, h⟩ := Option.bind_eq_some_iff.mp h
    cases h
    rw [statementKeys, headerKeys, hkey] at hkeys
    · exact hkeys
    · exact hsingle
  · next hdouble hsingle =>
    obtain ⟨⟨path, key, cs₁⟩, hkey, h⟩ := Option.bind_eq_some_iff.mp h
    obtain ⟨cs₂, hcs₂, h⟩ := Option.bind_eq_some_iff.mp h
    obtain ⟨⟨item, cs₃⟩, hitem, h⟩ := Option.bind_eq_some_iff.mp h
    obtain ⟨cs₄, -, h⟩ := Option.bind_eq_some_iff.mp h
    cases h
    rw [statementKeys, hkey] at hkeys
    · dsimp only at hkeys
      rw [hcs₂, List.append_cons] at hkeys
      obtain ⟨hown, hinside⟩ := List.forall_mem_append.mp hkeys
      exact ⟨hown, law.value_keys total fuel nestingLimit hinside hitem⟩
    · exact hdouble
    · exact hsingle

theorem statements_keys (law : KeyLaw Allowed P) {total fuel : Nat} {cs : List Char}
    {found : List Statement} (hkeys : ∀ k ∈ statementsKeys total fuel cs, Allowed k.name)
    (h : statements total fuel cs = some found) : ∀ s ∈ found, s.Keys Allowed P := by
  induction fuel generalizing cs found with
  | zero => cases h
  | succ fuel ih =>
    obtain ⟨start, hstart, h⟩ := Option.bind_eq_some_iff.mp h
    split at h
    · cases h
      simp
    · obtain ⟨⟨s, rest⟩, hread, h⟩ := Option.bind_eq_some_iff.mp h
      obtain ⟨more, hmore, h⟩ := Option.bind_eq_some_iff.mp h
      cases h
      simp only [statementsKeys, hstart, hread] at hkeys
      obtain ⟨hfirst, hrest⟩ := List.forall_mem_append.mp hkeys
      exact List.forall_mem_cons.mpr ⟨law.statement_keys hfirst hread, ih hrest hmore⟩

theorem keeps_build (law : KeyLaw Allowed P) {found : List Statement}
    (hfound : ∀ s ∈ found, s.Keys Allowed P) {current : List Key}
    (hcurrent : ∀ k ∈ current, Allowed k.name) : KeepsKeys P (build current found) := by
  induction found generalizing current with
  | nil =>
    rintro t _ ht ⟨⟩
    exact ht
  | cons s found ih =>
    obtain ⟨hs, hrest⟩ := List.forall_mem_cons.mp hfound
    intro t t' ht h
    cases s with
    | header path key span =>
      obtain ⟨t₁, hopen, h⟩ := Option.bind_eq_some_iff.mp h
      exact ih hrest hs _ _ (law.keeps_openTable hs span t t₁ ht hopen) h
    | nextHeader path key span =>
      obtain ⟨t₁, hopen, h⟩ := Option.bind_eq_some_iff.mp h
      exact ih hrest hs _ _ (law.keeps_openNext hs span t t₁ ht hopen) h
    | assignment path key span item =>
      obtain ⟨t₁, hassign, h⟩ := Option.bind_eq_some_iff.mp h
      have hkeeps := law.keeps_modify false (law.keeps_assign hs.1 span hs.2) hcurrent
      exact ih hrest hcurrent _ _ (hkeeps t t₁ ht hassign) h

theorem parse? (law : KeyLaw Allowed P) {source : String} {t : Table}
    (hkeys : ∀ k ∈ keysOf source, Allowed k.name) (h : parse? source = some t) : t.Keys P := by
  obtain ⟨found, hfound, h⟩ := Option.bind_eq_some_iff.mp h
  exact law.keeps_build (law.statements_keys hkeys hfound) (by simp) _ t (law.empty _) h

end KeyLaw

theorem nodup_law : KeyLaw (fun _ => True) List.Nodup where
  nil := List.nodup_nil
  add := by
    intro keys key hkeys hnot _
    rw [List.nodup_append]
    refine ⟨hkeys, by simp, fun k hk l hl hkl => hnot ?_⟩
    obtain rfl : l = key := by simpa using hl
    rwa [← hkl]
  sublist hsublist h := h.sublist hsublist

/-- No table of a document has two entries with one key. -/
theorem parse?_distinct {source : String} {t : Table} (h : parse? source = some t) :
    t.Keys List.Nodup :=
  nodup_law.parse? (fun _ _ => trivial) h

theorem allowed_law (Allowed : String → Prop) : KeyLaw Allowed fun keys => ∀ key ∈ keys, Allowed key where
  nil := by simp
  add := by
    intro keys key hkeys _ hkey
    exact List.forall_mem_append.mpr ⟨hkeys, by simpa using hkey⟩
  sublist hsublist h key hkey := h key (hsublist.subset hkey)

/-- The entries of the tables of a document have names of keys that stand in the text. -/
theorem parse?_keys {source : String} {t : Table} (h : parse? source = some t) :
    t.Keys fun keys => ∀ key ∈ keys, ∃ k ∈ keysOf source, k.name = key :=
  (allowed_law _).parse? (fun k hk => ⟨k, hk, rfl⟩) h

end IdlStencil.Toml
