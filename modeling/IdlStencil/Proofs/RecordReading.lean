import IdlStencil.Proofs.DepthBounds

/-!
# What it takes to read a record

A record is read member by member, with a slot for each field that was found. When this comes to a
good end, it does not show in which order the members stood: each slot has exactly one member with
its name, or none and a default, and what is left are members that may be passed over (`Slots.Reads`,
`record_object_eq_ok_iff`). An array fills the slots in order, and from where it ends the rest have
their defaults (`Slots.ReadsItems`, `record_array_eq_ok_iff`).
-/

namespace IdlStencil.Json

/-- The members of an object. -/
abbrev Members := List (Option String × Doc)

/-- The values of the members with a name. -/
def Members.named (name : String) (ms : Members) : List Doc :=
  (ms.filter fun m => m.1 = some name).map Prod.snd

/-- The members with other names. -/
def Members.others (name : String) (ms : Members) : Members := ms.filter fun m => m.1 ≠ some name

/-- A member with the name for each of the values. -/
def Members.written (name : String) (ds : List Doc) : Members := ds.map fun d => (some name, d)

namespace Members

variable {name key : String} {d : Doc} {ms ms' : Members}

@[simp] theorem named_cons_self : named name ((some name, d) :: ms) = d :: named name ms := by
  simp [named]

@[simp] theorem others_cons_self : others name ((some name, d) :: ms) = others name ms := by
  simp [others]

theorem named_cons_of_ne {m : Option String × Doc} (h : m.1 ≠ some name) :
    named name (m :: ms) = named name ms := by
  simp [named, h]

theorem others_cons_of_ne {m : Option String × Doc} (h : m.1 ≠ some name) :
    others name (m :: ms) = m :: others name ms := by
  simp [others, h]

theorem named_perm (h : ms.Perm ms') : (named name ms).Perm (named name ms') := (h.filter _).map _

theorem others_perm (h : ms.Perm ms') : (others name ms).Perm (others name ms') := h.filter _

theorem mem_named : d ∈ named name ms ↔ (some name, d) ∈ ms := by
  simp [named]

theorem mem_others {m : Option String × Doc} : m ∈ others name ms ↔ m ∈ ms ∧ m.1 ≠ some name := by
  simp [others]

theorem named_written_self {ds : List Doc} :
    named name (written name ds ++ ms) = ds ++ named name ms := by
  simp [named, written, List.filter_map, Function.comp_def]

theorem others_written_self {ds : List Doc} : others name (written name ds ++ ms) = others name ms := by
  simp [others, written]

theorem named_written_of_ne {ds : List Doc} (h : key ≠ name) :
    named name (written key ds ++ ms) = named name ms := by
  simp [named, written, h]

theorem others_written_of_ne {ds : List Doc} (h : key ≠ name) :
    others name (written key ds ++ ms) = written key ds ++ others name ms := by
  simp [others, written, h]

end Members

open Members

/-! ## One slot -/

variable {α : Type} {αs : List Type} {source inner : Source} {slot : Slot α} {slots rest : Slots αs}
  {ms ms' : Members}

/-- What the values of the members with its name leave in a slot, from what was there before. -/
inductive Slot.Collects (slot : Slot α) (source : Source) : List Doc → Option α → Option α → Prop where
  | nothing {here : Option α} : Collects slot source [] here here
  | value {d : Doc} {a : α} (h : slot.read source d = .ok a) : Collects slot source [d] none (some a)

/-- What a slot has in the end: the one value with its name, or its default. -/
inductive Slot.Takes (slot : Slot α) (source : Source) : List Doc → α → Prop where
  | present {d : Doc} {a : α} (h : slot.read source d = .ok a) : Takes slot source [d] a
  | absent {a : α} (h : slot.absent = some a) : Takes slot source [] a

theorem Slot.takes_iff {ds : List Doc} {a : α} :
    slot.Takes source ds a ↔
      ∃ here, slot.Collects source ds none here ∧ here.or slot.absent = some a := by
  constructor
  · intro h
    cases h with
    | present h => exact ⟨_, .value h, rfl⟩
    | absent h => exact ⟨_, .nothing, h⟩
  · rintro ⟨here, hc, h⟩
    cases hc with
    | nothing => exact .absent h
    | value hr =>
      cases h
      exact .present hr

theorem Slot.Takes.perm {ds ds' : List Doc} {a : α} (h : slot.Takes source ds a) (hp : ds.Perm ds') :
    slot.Takes source ds' a := by
  cases h with
  | present h =>
    rw [← List.singleton_perm.mp hp]
    exact .present h
  | absent h =>
    rw [List.nil_perm.mp hp]
    exact .absent h

theorem Slot.collects_nil_iff {here here' : Option α} :
    slot.Collects source [] here here' ↔ here = here' := by
  constructor
  · intro h
    cases h
    rfl
  · rintro rfl
    exact .nothing

/-- A slot that has a value collects no other. -/
theorem Slot.collects_cons_iff {d : Doc} {ds : List Doc} {here here' : Option α} :
    slot.Collects source (d :: ds) here here' ↔
      here = none ∧ ∃ a, slot.read source d = .ok a ∧ slot.Collects source ds (some a) here' := by
  constructor
  · intro h
    cases h with
    | value h => exact ⟨rfl, _, h, .nothing⟩
  · rintro ⟨rfl, a, ha, h⟩
    cases h with
    | nothing => exact .value ha

/-! ## Members -/

/-- The first slot collects the members with its name, and the other slots see the rest. -/
theorem members_cons_eq_ok_iff {here here' : Option α} {found found' : Partly αs} :
    (Slots.cons slot rest).members source ms (here, found) = .ok (here', found') ↔
      slot.Collects source (named slot.name ms) here here' ∧
        rest.members source (others slot.name ms) found = .ok found' := by
  induction ms generalizing here found with
  | nil =>
    simp [Slots.members, named, others, Slot.collects_nil_iff]
  | cons m ms ih =>
    obtain ⟨_ | key, d⟩ := m
    · rw [others_cons_of_ne (by simp), Slots.members, Slots.members]
      simp
    · by_cases hkey : slot.name = key
      · subst hkey
        rw [named_cons_self, others_cons_self, Slot.collects_cons_iff]
        simp only [Slots.members, Slots.put, if_true]
        cases here with
        | some => simp [bind, Except.bind]
        | none =>
          cases slot.read source d with
          | error => simp [bind, Except.bind, Except.map]
          | ok a => simpa [bind, Except.bind, Except.map] using ih
      · have hne : (some key, d).1 ≠ some slot.name := by simpa using Ne.symm hkey
        rw [named_cons_of_ne hne, others_cons_of_ne hne]
        simp only [Slots.members, Slots.put, if_neg hkey]
        cases rest.put source key d found with
        | none =>
          cases source.skip d with
          | error => simp [bind, Except.bind]
          | ok => simpa [bind, Except.bind] using ih
        | some read =>
          cases read with
          | error => simp [bind, Except.bind, Except.map]
          | ok => simpa [bind, Except.bind, Except.map] using ih

/-- The members make up the record, in whatever order: each slot takes those with its name, and those
that no slot takes can be passed over. -/
def Slots.Reads (source : Source) : {αs : List Type} → Slots αs → Members → Tuple αs → Prop
  | _, .nil, ms, _ => ∀ m ∈ ms, m.1.isSome = true ∧ source.skip m.2 = .ok ()
  | _, .cons slot rest, ms, (a, t) =>
    slot.Takes source (named slot.name ms) a ∧ rest.Reads source (others slot.name ms) t

theorem members_nil_eq_ok_iff :
    (∃ found, Slots.nil.members source ms () = .ok found) ↔
      ∀ m ∈ ms, m.1.isSome = true ∧ source.skip m.2 = .ok () := by
  induction ms with
  | nil => simp [Slots.members]
  | cons m ms ih =>
    obtain ⟨_ | key, d⟩ := m
    · simp [Slots.members]
    · simp only [Slots.members, Slots.put, List.forall_mem_cons, ← ih]
      cases source.skip d with
      | error => simp [bind, Except.bind]
      | ok => simp [bind, Except.bind]

theorem members_finish_iff {t : Tuple αs} :
    (∃ found, slots.members source ms slots.start = .ok found ∧ slots.finish found = .ok t) ↔
      slots.Reads source ms t := by
  induction slots generalizing ms with
  | nil =>
    rw [Slots.Reads, ← members_nil_eq_ok_iff]
    simp [Slots.start, Slots.finish]
  | @cons α αs slot rest ih =>
    obtain ⟨a, t⟩ := t
    rw [Slots.Reads, ← ih, Slot.takes_iff]
    constructor
    · rintro ⟨⟨here, found⟩, hm, hf⟩
      obtain ⟨hc, hm⟩ := members_cons_eq_ok_iff.mp hm
      rw [Slots.finish] at hf
      split at hf
      · next b hb =>
        obtain ⟨t', ht, hf⟩ := bind_eq_ok.mp hf
        cases hf
        exact ⟨⟨here, hc, hb⟩, found, hm, ht⟩
      · cases hf
    · rintro ⟨⟨here, hc, hb⟩, found, hm, ht⟩
      refine ⟨(here, found), members_cons_eq_ok_iff.mpr ⟨hc, hm⟩, ?_⟩
      simp [Slots.finish, hb, ht, bind, Except.bind, pure, Except.pure]

namespace Slots.Reads

/-- The order of the members does not matter. -/
theorem perm {t : Tuple αs} (h : slots.Reads source ms t) (hp : ms.Perm ms') :
    slots.Reads source ms' t := by
  induction slots generalizing ms ms' with
  | nil => exact fun m hm => h m (hp.mem_iff.mpr hm)
  | cons slot rest ih => exact ⟨h.1.perm (named_perm hp), ih h.2 (others_perm hp)⟩

/-- One more member that no slot takes. -/
theorem insert {t : Tuple αs} {key : String} {v : Doc} (h : slots.Reads source ms t)
    (hkey : key ∉ slots.names) (hskip : source.skip v = .ok ()) :
    slots.Reads source ((some key, v) :: ms) t := by
  induction slots generalizing ms with
  | nil => exact List.forall_mem_cons.mpr ⟨⟨rfl, hskip⟩, h⟩
  | cons slot rest ih =>
    obtain ⟨hne, hkey⟩ := not_or.mp (mt List.mem_cons.mpr hkey)
    have hne : (some key, v).1 ≠ some slot.name := by simpa using hne
    refine ⟨?_, ?_⟩
    · rw [named_cons_of_ne hne]
      exact h.1
    · rw [others_cons_of_ne hne]
      exact ih h.2 hkey

end Slots.Reads

theorem leave_true (source : Source) : source.leave true = .ok () := by
  cases source <;> rfl

/-- A record that is written as an object. -/
theorem record_object_eq_ok_iff {label : String} {t : Tuple αs} :
    Reader.record label slots source (.object ms true) = .ok t ↔
      ∃ inner, source.enter = .ok inner ∧ slots.Reads inner ms t := by
  simp only [Reader.record, bind_eq_ok, leave_true, ← members_finish_iff]
  simp

/-! ## Items -/

/-- The items make up the record, one slot after another. -/
def Slots.ReadsItems (source : Source) : {αs : List Type} → Slots αs → List Doc → Tuple αs → Prop
  | _, .nil, ds, _ => ds = []
  | _, .cons slot rest, d :: ds, (a, t) => slot.read source d = .ok a ∧ rest.ReadsItems source ds t
  | _, .cons slot rest, [], (a, t) => slot.absent = some a ∧ rest.ReadsItems source [] t

theorem items_eq_ok_iff {expected : String} {index : Nat} {ds : List Doc} {t : Tuple αs} :
    slots.items expected source true index ds = .ok (t, []) ↔ slots.ReadsItems source ds t := by
  induction slots generalizing index ds with
  | nil => simp [Slots.items, Slots.ReadsItems]
  | @cons α αs slot rest ih =>
    obtain ⟨a, t⟩ := t
    cases ds with
    | nil =>
      rw [Slots.ReadsItems, ← @ih (index + 1)]
      simp only [Slots.items, leave_true, ok_bind]
      cases slot.absent with
      | none => simp
      | some b =>
        constructor
        · intro h
          obtain ⟨⟨t', left⟩, hitems, h⟩ := bind_eq_ok.mp h
          cases h
          exact ⟨rfl, hitems⟩
        · rintro ⟨⟨⟩, hitems⟩
          exact bind_eq_ok.mpr ⟨_, hitems, rfl⟩
    | cons d ds =>
      rw [Slots.ReadsItems, ← @ih (index + 1)]
      constructor
      · intro h
        obtain ⟨b, hb, h⟩ := bind_eq_ok.mp h
        obtain ⟨⟨t', left⟩, hitems, h⟩ := bind_eq_ok.mp h
        cases h
        exact ⟨hb, hitems⟩
      · rintro ⟨hb, hitems⟩
        exact bind_eq_ok.mpr ⟨a, hb, bind_eq_ok.mpr ⟨_, hitems, rfl⟩⟩

theorem leaveItems_eq_ok_iff {count : Nat} {left : List Doc} :
    Slots.leaveItems count left true source = .ok () ↔ left = [] := by
  cases source <;> cases left <;> simp [Slots.leaveItems, Source.leave]

/-- A record that is written as an array. -/
theorem record_array_eq_ok_iff {label : String} {ds : List Doc} {t : Tuple αs} :
    Reader.record label slots source (.array ds true) = .ok t ↔
      ∃ inner, source.enter = .ok inner ∧ slots.ReadsItems inner ds t := by
  simp only [Reader.record, bind_eq_ok]
  refine exists_congr fun inner => and_congr_right fun _ => ?_
  constructor
  · rintro ⟨⟨t', left⟩, hitems, ⟨⟩, hleave, ht⟩
    cases ht
    cases leaveItems_eq_ok_iff.mp hleave
    exact items_eq_ok_iff.mp hitems
  · intro h
    exact ⟨(t, []), items_eq_ok_iff.mpr h, (), leaveItems_eq_ok_iff.mpr rfl, rfl⟩

/-- The document makes up the record, in one of the two ways. -/
inductive Slots.Makes (slots : Slots αs) (source : Source) : Doc → Tuple αs → Prop where
  | object {ms : Members} {t : Tuple αs} (h : slots.Reads source ms t) :
      Makes slots source (.object ms true) t
  | array {ds : List Doc} {t : Tuple αs} (h : slots.ReadsItems source ds t) :
      Makes slots source (.array ds true) t

theorem Slots.makes_object_iff {t : Tuple αs} :
    slots.Makes source (.object ms true) t ↔ slots.Reads source ms t := by
  constructor
  · intro h
    cases h with
    | object h => exact h
  · exact .object

theorem Slots.makes_array_iff {ds : List Doc} {t : Tuple αs} :
    slots.Makes source (.array ds true) t ↔ slots.ReadsItems source ds t := by
  constructor
  · intro h
    cases h with
    | array h => exact h
  · exact .array

theorem Slots.Makes.record {d : Doc} {t : Tuple αs} (h : slots.Makes inner d t)
    (he : source.enter = .ok inner) (label : String) : Reader.record label slots source d = .ok t := by
  cases h with
  | object h => exact record_object_eq_ok_iff.mpr ⟨inner, he, h⟩
  | array h => exact record_array_eq_ok_iff.mpr ⟨inner, he, h⟩

end IdlStencil.Json
