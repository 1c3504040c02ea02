/-!
Maps from names that remember the order in which names first came. Inserting at a name that is
there replaces the value and keeps the place.
-/

namespace IdlStencil

section

variable {κ α : Type} [DecidableEq κ]

/-- Replaces the value at a name, or puts the pair at the end. -/
def insertPair (name : κ) (value : α) : List (κ × α) → List (κ × α)
  | [] => [(name, value)]
  | (n, v) :: rest => if n = name then (n, value) :: rest else (n, v) :: insertPair name value rest

theorem map_fst_insertPair (name : κ) (value : α) (pairs : List (κ × α)) :
    (insertPair name value pairs).map Prod.fst =
      if name ∈ pairs.map Prod.fst then pairs.map Prod.fst else pairs.map Prod.fst ++ [name] := by
  induction pairs with
  | nil => simp [insertPair]
  | cons p pairs ih =>
    by_cases h : p.1 = name
    · simp [insertPair, h]
    · have h' : ¬name = p.1 := fun e => h e.symm
      simp only [insertPair, h, if_false, List.map_cons, ih, List.mem_cons, h', false_or]
      split <;> simp

theorem nodup_insertPair (name : κ) (value : α) {pairs : List (κ × α)}
    (h : (pairs.map Prod.fst).Nodup) : ((insertPair name value pairs).map Prod.fst).Nodup := by
  rw [map_fst_insertPair]
  split
  · exact h
  · next hn =>
    rw [List.nodup_append]
    refine ⟨h, by simp, fun a ha b hb e => hn ?_⟩
    rwa [← List.mem_singleton.mp hb, ← e]

theorem insertPair_of_not_mem {name : κ} {value : α} {pairs : List (κ × α)}
    (h : name ∉ pairs.map Prod.fst) : insertPair name value pairs = pairs ++ [(name, value)] := by
  induction pairs with
  | nil => rfl
  | cons p pairs ih =>
    simp only [List.map_cons, List.mem_cons, not_or] at h
    simp [insertPair, Ne.symm h.1, ih h.2]

theorem insertPair_ne_nil {name : κ} {value : α} {pairs : List (κ × α)} :
    insertPair name value pairs ≠ [] := by
  cases pairs with
  | nil => simp [insertPair]
  | cons p pairs =>
    rw [insertPair]
    split <;> simp

theorem lookup_insertPair [BEq κ] [LawfulBEq κ] (name other : κ) (value : α)
    (pairs : List (κ × α)) :
    (insertPair name value pairs).lookup other =
      if other = name then some value else pairs.lookup other := by
  induction pairs with
  | nil =>
    by_cases h : other = name
    · simp [insertPair, h]
    · simp [insertPair, List.lookup_cons, beq_false_of_ne h, h]
  | cons p pairs ih =>
    obtain ⟨n, v⟩ := p
    by_cases hn : n = name
    · subst hn
      by_cases h : other = n
      · simp [insertPair, h]
      · simp [insertPair, List.lookup_cons, beq_false_of_ne h, h]
    · by_cases ho : other = n
      · subst ho
        simp [insertPair, hn]
      · simp [insertPair, hn, List.lookup_cons, beq_false_of_ne ho, ih]

end

/-- A map from names with its entries in the order of first insertion. -/
structure OrderedMap (α : Type) where
  entries : List (String × α)
  distinct : (entries.map Prod.fst).Nodup
  deriving Repr

namespace OrderedMap

variable {α : Type}

@[ext] theorem ext {m n : OrderedMap α} (h : m.entries = n.entries) : m = n := by
  cases m
  cases n
  simp_all

instance [DecidableEq α] : DecidableEq (OrderedMap α) := fun m n =>
  if h : m.entries = n.entries then isTrue (OrderedMap.ext h)
  else isFalse fun e => h (congrArg entries e)

def empty : OrderedMap α := ⟨[], List.nodup_nil⟩

instance : Inhabited (OrderedMap α) := ⟨empty⟩

def insert (m : OrderedMap α) (name : String) (value : α) : OrderedMap α :=
  ⟨insertPair name value m.entries, nodup_insertPair name value m.distinct⟩

/-- The value at a name. -/
def get? (m : OrderedMap α) (name : String) : Option α := m.entries.lookup name

def contains (m : OrderedMap α) (name : String) : Bool := (m.get? name).isSome

def names (m : OrderedMap α) : List String := m.entries.map Prod.fst

def size (m : OrderedMap α) : Nat := m.entries.length

def isEmpty (m : OrderedMap α) : Bool := m.entries.isEmpty

@[simp] theorem get?_empty (name : String) : (empty : OrderedMap α).get? name = none := rfl

@[simp] theorem get?_insert (m : OrderedMap α) (name other : String) (value : α) :
    (m.insert name value).get? other = if other = name then some value else m.get? other :=
  lookup_insertPair name other value m.entries

theorem names_insert (m : OrderedMap α) (name : String) (value : α) :
    (m.insert name value).names = if name ∈ m.names then m.names else m.names ++ [name] :=
  map_fst_insertPair name value m.entries

/-- The map after inserting the pairs in order. -/
def ofList (pairs : List (String × α)) : OrderedMap α :=
  pairs.foldl (fun m (name, value) => m.insert name value) empty

theorem mem_names_foldl_insert (pairs : List (String × α)) (m : OrderedMap α) (name : String) :
    name ∈ (pairs.foldl (fun m (name, value) => m.insert name value) m).names ↔
      name ∈ m.names ∨ name ∈ pairs.map Prod.fst := by
  induction pairs generalizing m with
  | nil => simp
  | cons p pairs ih =>
    rw [List.foldl_cons, ih, names_insert, List.map_cons, List.mem_cons]
    split
    · grind
    · rw [List.mem_append, List.mem_singleton, or_assoc]

/-- Pairs with distinct names that are not there yet are put at the end as they are. -/
theorem entries_foldl_insert {pairs : List (String × α)} {m : OrderedMap α}
    (h : ((m.entries ++ pairs).map Prod.fst).Nodup) :
    (pairs.foldl (fun m (name, value) => m.insert name value) m).entries = m.entries ++ pairs := by
  induction pairs generalizing m with
  | nil => simp
  | cons p pairs ih =>
    have hp : (m.insert p.1 p.2).entries = m.entries ++ [p] := by
      refine insertPair_of_not_mem fun hm => ?_
      rw [List.map_append, List.map_cons, List.nodup_append] at h
      exact h.2.2 _ hm _ List.mem_cons_self rfl
    have happend : m.entries ++ p :: pairs = (m.insert p.1 p.2).entries ++ pairs := by
      rw [hp, List.append_assoc, List.singleton_append]
    rw [happend] at h ⊢
    exact ih h

theorem entries_ofList {pairs : List (String × α)} (h : (pairs.map Prod.fst).Nodup) :
    (ofList pairs).entries = pairs :=
  entries_foldl_insert (m := .empty) h

theorem mem_names_ofList (pairs : List (String × α)) (name : String) :
    name ∈ (ofList pairs).names ↔ name ∈ pairs.map Prod.fst := by
  rw [ofList, mem_names_foldl_insert]
  simp [names, empty]

end OrderedMap
end IdlStencil
