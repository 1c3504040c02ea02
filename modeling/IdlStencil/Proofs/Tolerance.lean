import IdlStencil.Proofs.Respelling

/-!
# Readers that do not mind the spelling

`Tolerates place read` says that a change of spelling in the place does not change what is read. It
goes through lists, options and variants, and through a record when the slots follow the table of
its fields (`Follows`): each slot has the name in the table, tolerates other spellings where it
stands, and has the default that the table says.
-/

namespace IdlStencil.Json

/-! ## Sources with room -/

/-- A stream with so much room, or a value that is held. -/
inductive Source.Within (room : Nat) : Source → Prop where
  | stream : Within room (.stream room)
  | held : Within room .held

mutual

theorem skippable_of_holdable {room : Nat} : ∀ {d : Doc}, d.holdable room = true → d.skippable = true
  | .null, _ | .bool _, _ | .number _, _ | .string _, _ => by simp [Doc.skippable]
  | .array _ _, h => by
    cases room with
    | zero => simp [Doc.holdable] at h
    | succ room =>
      simp only [Doc.holdable, Bool.and_eq_true] at h
      simp [Doc.skippable, h.1, skippableItems_of_holdable h.2]
  | .object _ _, h => by
    cases room with
    | zero => simp [Doc.holdable] at h
    | succ room =>
      simp only [Doc.holdable, Bool.and_eq_true] at h
      simp [Doc.skippable, h.1, skippableMembers_of_holdable h.2]
  | .torn, h => by simp [Doc.holdable] at h

theorem skippableItems_of_holdable {room : Nat} :
    ∀ {ds : List Doc}, holdableItems room ds = true → skippableItems ds = true
  | [], _ => by simp [skippableItems]
  | _ :: _, h => by
    simp only [holdableItems, Bool.and_eq_true] at h
    simp [skippableItems, skippable_of_holdable h.1, skippableItems_of_holdable h.2]

theorem skippableMembers_of_holdable {room : Nat} :
    ∀ {ms : List (Option String × Doc)}, holdableMembers room ms = true → skippableMembers ms = true
  | [], _ => by simp [skippableMembers]
  | (_, _) :: _, h => by
    simp only [holdableMembers, Bool.and_eq_true] at h
    simp [skippableMembers, skippable_of_holdable h.1.2, skippableMembers_of_holdable h.2]

end

namespace Source.Within

variable {room : Nat} {source inner : Source} {d : Doc}

/-- There is one less room inside an array or object. -/
theorem inside (h : source.Within (room + 1)) (he : source.enter = .ok inner) : inner.Within room := by
  cases h with
  | stream =>
    cases he
    exact .stream
  | held =>
    cases he
    exact .held

/-- What has room can be gone into. -/
theorem enter (h : source.Within room) (hd : room ≠ 0) : ∃ inner, source.enter = .ok inner := by
  cases h with
  | stream =>
    obtain ⟨r, rfl⟩ := Nat.exists_eq_succ_of_ne_zero hd
    exact ⟨_, rfl⟩
  | held => exact ⟨_, rfl⟩

theorem skip (h : source.Within room) (hd : d.holdable room = true) : source.skip d = .ok () := by
  cases h with
  | stream => simp [Source.skip, skippable_of_holdable hd]
  | held => rfl

theorem hold (h : source.Within room) (hd : d.holdable room = true) : source.hold d = .ok () := by
  cases h with
  | stream => simp [Source.hold, hd]
  | held => rfl

end Source.Within

end IdlStencil.Json

namespace IdlStencil.Idl

open Json Members

variable {α β : Type} {αs : List Type} {room : Nat} {source : Source} {place : Place}

/-! ## Readers -/

/-- Another spelling of what stands in the place is read as the same. -/
structure Tolerates (place : Place) (read : Reader α) : Prop where
  reads {room : Nat} {source : Source} {d d' : Doc} {a : α} (hs : source.Within room)
    (h : Respelled room place d d') (hr : read source d = .ok a) : read source d' = .ok a

namespace Tolerates

variable {read : Reader α}

/-- Where no record stands, nothing can be spelled in another way. -/
theorem plain : Tolerates .plain read := ⟨fun _ h => nomatch h⟩

theorem map (h : Tolerates place read) (f : α → β) :
    Tolerates place fun source d => (read source d).map f := by
  refine ⟨fun hs hd hr => ?_⟩
  obtain ⟨a, ha, rfl⟩ := map_eq_ok.mp hr
  exact map_eq_ok.mpr ⟨a, h.reads hs hd ha, rfl⟩

theorem optional (h : Tolerates place read) : Tolerates place (Reader.optional read) := by
  refine ⟨fun hs hd hr => ?_⟩
  -- neither spelling is null
  rcases hd.container with ⟨⟨_, rfl⟩ | ⟨_, rfl⟩, ⟨_, rfl⟩ | ⟨_, rfl⟩⟩
  all_goals exact (h.map some).reads hs hd hr

private theorem items {before behind : List Doc} {d d' : Doc} {as : List α}
    (h : ∀ a, read source d = .ok a → read source d' = .ok a)
    (hr : Reader.items read source (before ++ d :: behind) = .ok as) :
    Reader.items read source (before ++ d' :: behind) = .ok as := by
  induction before generalizing as with
  | nil =>
    obtain ⟨a, ha, hr⟩ := bind_eq_ok.mp hr
    exact bind_eq_ok.mpr ⟨a, h a ha, hr⟩
  | cons e before ih =>
    obtain ⟨a, ha, hr⟩ := bind_eq_ok.mp hr
    obtain ⟨as', has, hr⟩ := bind_eq_ok.mp hr
    exact bind_eq_ok.mpr ⟨a, ha, bind_eq_ok.mpr ⟨as', ih has, hr⟩⟩

theorem list (h : Tolerates place read) : Tolerates (.list place) (Reader.list read) := by
  refine ⟨fun hs hd hr => ?_⟩
  cases hd with
  | item hd =>
    obtain ⟨inner, he, hr⟩ := bind_eq_ok.mp hr
    obtain ⟨as, has, hr⟩ := bind_eq_ok.mp hr
    have has' := items (fun a ha => h.reads (hs.inside he) hd ha) has
    exact bind_eq_ok.mpr ⟨inner, he, bind_eq_ok.mpr ⟨as, has', hr⟩⟩

end Tolerates

/-- What comes with a variant may be spelled in another way. -/
inductive PayloadTolerates (place : Place) : Reader.Payload α → Prop where
  | value {read : Reader α} (h : Tolerates place read) : PayloadTolerates place (.value read)
  | record {read : Reader α} (h : Tolerates place read) : PayloadTolerates place (.record read)

theorem PayloadTolerates.beside {payload : Reader.Payload α} (h : PayloadTolerates place payload)
    {d d' : Doc} {a : α} (hs : source.Within room) (hd : Respelled room place d d')
    (hr : payload.beside source d = .ok a) : payload.beside source d' = .ok a := by
  cases h with
  | value h => exact h.reads hs hd hr
  | record h =>
    cases source with
    | stream => exact h.reads hs hd hr
    | held =>
      rcases hd.container with ⟨⟨_, rfl⟩ | ⟨_, rfl⟩, ⟨_, rfl⟩ | ⟨_, rfl⟩⟩
      all_goals exact h.reads hs hd hr

theorem find_of_lookup {alternatives : List (String × Reader.Payload α)} {name : String}
    {payload : Reader.Payload α} (h : alternatives.lookup name = some payload) :
    Reader.find alternatives name = .ok payload := by
  rw [Reader.find, h]

/-- The object around a variant stays as it is. -/
theorem Tolerates.variant {alternatives : List (String × Reader.Payload α)}
    (h : ∀ name place, (name, place) ∈ typeParts →
      ∃ payload, alternatives.lookup name = some payload ∧ PayloadTolerates place payload) :
    Tolerates .type (Reader.variant alternatives) := by
  refine ⟨fun hs hd hr => ?_⟩
  cases hd with
  | part hpart hd =>
    obtain ⟨payload, hlookup, hpayload⟩ := h _ _ hpart
    have hfind := find_of_lookup hlookup
    cases hs with
    | stream =>
      obtain ⟨inner, he, hr⟩ := bind_eq_ok.mp hr
      rw [hfind, ok_bind] at hr
      obtain ⟨a, ha, hr⟩ := bind_eq_ok.mp hr
      have ha' := hpayload.beside (Source.Within.stream.inside he) hd ha
      refine bind_eq_ok.mpr ⟨inner, he, ?_⟩
      rw [hfind, ok_bind]
      exact bind_eq_ok.mpr ⟨a, ha', hr⟩
    | held =>
      simp only [Reader.variant, hfind, ok_bind] at hr ⊢
      exact hpayload.beside .held hd hr

/-! ## Slots and their table -/

theorem RecordForm.names_nodup (form : RecordForm) : (form.fields.map FieldRule.name).Nodup := by
  cases form <;> decide

theorem Default.Spells.skippable {default : Default} {d : Doc} (h : default.Spells d) :
    d.skippable = true := by
  cases default with
  | zero =>
    obtain ⟨n, rfl, -⟩ := h
    simp [Doc.skippable]
  | null | items | entries =>
    cases h
    simp [Doc.skippable, skippableItems, skippableMembers]

/-- The slot has the default of the table: a document spells it just when it is read as what the slot
has without it. -/
structure Defaults (slot : Slot α) (default : Default) (a : α) : Prop where
  absent : slot.absent = some a
  spells_iff {source : Source} {d : Doc} {b : α} (hd : d.skippable = true)
    (hr : slot.read source d = .ok b) : default.Spells d ↔ b = a
  reads {room : Nat} {source : Source} {d : Doc} (hs : source.Within room) (hd : default.Spells d)
    (hroom : d.holdable room = true) : slot.read source d = .ok a

/-- Without a value the slot has the default of the table, and none if the table has none. -/
inductive SlotDefaults (slot : Slot α) : Option Default → Prop where
  | required (h : slot.absent = none) : SlotDefaults slot none
  | defaulted {default : Default} {a : α} (h : Defaults slot default a) :
      SlotDefaults slot (some default)

/-- The slot is that of the field. -/
structure SlotFollows (slot : Slot α) (field : FieldRule) : Prop where
  name_eq : slot.name = field.name
  tolerates : Tolerates field.place slot.read
  defaults : SlotDefaults slot field.default

theorem SlotFollows.exists_default {slot : Slot α} {field : FieldRule} {default : Default}
    (h : SlotFollows slot field) (hdefault : field.default = some default) :
    ∃ a, Defaults slot default a := by
  have hslot := h.defaults
  rw [hdefault] at hslot
  cases hslot with
  | defaulted h => exact ⟨_, h⟩

/-- The slots are those of the table. -/
inductive Follows : {αs : List Type} → Slots αs → List FieldRule → Prop where
  | nil : Follows .nil []
  | cons {α : Type} {αs : List Type} {slot : Slot α} {rest : Slots αs} {field : FieldRule}
      {fields : List FieldRule} (hslot : SlotFollows slot field) (hrest : Follows rest fields) :
      Follows (.cons slot rest) (field :: fields)

/-- The row of a record without the members that an earlier field took. -/
theorem Row.without {name : String} {ms : Members} {fields : List FieldRule} {ds : List Doc}
    (h : Row room ms fields ds) (hname : ∀ field ∈ fields, field.name ≠ name) :
    Row room (others name ms) fields ds := by
  induction h with
  | nil => exact .nil
  | written hmem _ ih =>
    obtain ⟨hne, hrest⟩ := List.forall_mem_cons.mp hname
    exact .written (mem_others.mpr ⟨hmem, by simpa using hne⟩) (ih hrest)
  | omitted hnot hdefault hd hroom _ ih =>
    obtain ⟨-, hrest⟩ := List.forall_mem_cons.mp hname
    exact .omitted (fun m hm => hnot m (mem_others.mp hm).1) hdefault hd hroom (ih hrest)

namespace Follows

variable {slots : Slots αs} {fields : List FieldRule} {field : FieldRule} {ms : Members}
  {t : Tuple αs} {d d' : Doc}

theorem not_mem_names {key : String} (hf : Follows slots fields)
    (hkey : ∀ field ∈ fields, field.name ≠ key) : key ∉ slots.names := by
  induction hf with
  | nil => simp [Slots.names]
  | cons hslot _ ih =>
    obtain ⟨hne, hrest⟩ := List.forall_mem_cons.mp hkey
    rw [Slots.names, hslot.name_eq, List.mem_cons, not_or]
    exact ⟨hne.symm, ih hrest⟩

/-- The member of a field gives way to others of the same name, if the slot takes those for the same
value. -/
theorem exchange (hf : Follows slots fields) (hn : (fields.map FieldRule.name).Nodup)
    (hfield : field ∈ fields) (ds : List Doc)
    (h : ∀ {α : Type} {slot : Slot α} {a : α}, SlotFollows slot field →
      slot.read source d = .ok a → slot.Takes source ds a)
    (hr : slots.Reads source ((some field.name, d) :: ms) t) :
    slots.Reads source (written field.name ds ++ ms) t := by
  induction hf generalizing ms with
  | nil => simp at hfield
  | @cons α αs slot rest rule fields hslot _ ih =>
    obtain ⟨a, t⟩ := t
    obtain ⟨htakes, hrest⟩ := hr
    obtain ⟨hfresh, hn⟩ := List.nodup_cons.mp hn
    rw [hslot.name_eq] at htakes hrest
    rw [Slots.Reads, hslot.name_eq]
    rcases List.mem_cons.mp hfield with rfl | hfield
    · rw [named_cons_self] at htakes
      rw [others_cons_self] at hrest
      rw [named_written_self, others_written_self]
      generalize named field.name ms = values at htakes ⊢
      cases htakes with
      | present hd => exact ⟨by simpa using h hslot hd, hrest⟩
    · have hne : field.name ≠ rule.name := fun he =>
        hfresh (he ▸ List.mem_map_of_mem hfield)
      rw [named_cons_of_ne (by simpa using hne)] at htakes
      rw [others_cons_of_ne (by simpa using hne)] at hrest
      rw [named_written_of_ne hne, others_written_of_ne hne]
      exact ⟨htakes, ih hn hfield hrest⟩

/-- Another spelling of the value of a field. -/
theorem respell (hf : Follows slots fields) (hn : (fields.map FieldRule.name).Nodup)
    (hfield : field ∈ fields) (hs : source.Within room) (h : Respelled room field.place d d')
    (hr : slots.Reads source ((some field.name, d) :: ms) t) :
    slots.Reads source ((some field.name, d') :: ms) t :=
  hf.exchange hn hfield [d']
    (fun hslot ha => .present (hslot.tolerates.reads hs h ha)) hr

/-- Leaving out the value of a field that is its default. -/
theorem remove (hf : Follows slots fields) (hn : (fields.map FieldRule.name).Nodup)
    (hfield : field ∈ fields) {default : Default} (hdefault : field.default = some default)
    (hd : default.Spells d) (hr : slots.Reads source ((some field.name, d) :: ms) t) :
    slots.Reads source ms t := by
  refine hf.exchange hn hfield [] (fun hslot ha => ?_) hr
  obtain ⟨b, hb⟩ := hslot.exists_default hdefault
  rw [(hb.spells_iff hd.skippable ha).mp hd]
  exact .absent hb.absent

/-- The row of the members that make up the record makes it up as items. -/
theorem row (hf : Follows slots fields) (hn : (fields.map FieldRule.name).Nodup)
    (hs : source.Within room) {ds : List Doc} (hrow : Row room ms fields ds)
    (hr : slots.Reads source ms t) : slots.ReadsItems source ds t := by
  induction hf generalizing ms ds with
  | nil =>
    cases hrow
    rfl
  | @cons α αs slot rest field fields hslot _ ih =>
    obtain ⟨a, t⟩ := t
    obtain ⟨htakes, hrest⟩ := hr
    obtain ⟨hfresh, hn⟩ := List.nodup_cons.mp hn
    rw [hslot.name_eq] at htakes hrest
    have hne : ∀ rule ∈ fields, rule.name ≠ field.name := fun rule hrule he =>
      hfresh (he ▸ List.mem_map_of_mem hrule)
    generalize hnamed : named field.name ms = values at htakes
    cases hrow with
    | written hmem hrow =>
      refine ⟨?_, ih hn (hrow.without hne) hrest⟩
      have hmem := hnamed ▸ mem_named.mpr hmem
      cases htakes with
      | present ha =>
        cases List.mem_singleton.mp hmem
        exact ha
      | absent => simp at hmem
    | omitted hnot hdefault hd hroom hrow =>
      refine ⟨?_, ih hn (hrow.without hne) hrest⟩
      obtain ⟨b, hb⟩ := hslot.exists_default hdefault
      cases htakes with
      | present ha => exact absurd rfl (hnot _ (mem_named.mp (hnamed ▸ List.mem_singleton_self _)))
      | absent ha =>
        cases hb.absent.symm.trans ha
        exact hb.reads hs hd hroom

/-- Another spelling of one item. -/
theorem element (hf : Follows slots fields) {before behind : List Doc}
    (hfield : fields[before.length]? = some field) (hs : source.Within room)
    (h : Respelled room field.place d d')
    (hr : slots.ReadsItems source (before ++ d :: behind) t) :
    slots.ReadsItems source (before ++ d' :: behind) t := by
  induction hf generalizing before with
  | nil => simp at hfield
  | cons hslot _ ih =>
    obtain ⟨a, t⟩ := t
    cases before with
    | nil =>
      cases hfield
      exact ⟨hslot.tolerates.reads hs h hr.1, hr.2⟩
    | cons e before => exact ⟨hr.1, ih hfield hr.2⟩

/-- A record that is spelled in another way is made up all the same. -/
theorem makes {form : RecordForm} {inner : Source} (hf : Follows slots form.fields)
    (hs : source.Within room) (he : source.enter = .ok inner)
    (h : Respelled room (.record form) d d') (hr : slots.Makes inner d t) :
    slots.Makes inner d' t := by
  have hn := form.names_nodup
  cases h with
  | here h =>
    have hinner := hs.inside he
    cases hr with
    | object hr =>
      cases h with
      | permute hp => exact .object (hr.perm hp)
      | insert hkey hv =>
        have hr' := hr.insert (hf.not_mem_names hkey) (hinner.skip hv)
        exact .object (hr'.perm List.perm_middle.symm)
      | remove hfield hdefault hd =>
        exact .object (hf.remove hn hfield hdefault hd (hr.perm List.perm_middle))
      | array _ hrow => exact .array (hf.row hn hinner hrow hr)
  | member hfield h =>
    cases hr with
    | object hr =>
      have hr' := hf.respell hn hfield (hs.inside he) h (hr.perm List.perm_middle)
      exact .object (hr'.perm List.perm_middle.symm)
  | element hfield h =>
    cases hr with
    | array hr => exact .array (hf.element hfield (hs.inside he) h hr)

theorem record {form : RecordForm} (hf : Follows slots form.fields) (label : String) :
    Tolerates (.record form) (Reader.record label slots) := by
  refine ⟨fun hs h hr => ?_⟩
  rcases h.container.1 with ⟨_, rfl⟩ | ⟨_, rfl⟩
  · obtain ⟨inner, he, hr⟩ := record_object_eq_ok_iff.mp hr
    exact (hf.makes hs he h (.object hr)).record he label
  · obtain ⟨inner, he, hr⟩ := record_array_eq_ok_iff.mp hr
    exact (hf.makes hs he h (.array hr)).record he label

end Follows

/-! ## Slots of the table -/

theorem SlotFollows.required {name : String} {read : Reader α} (h : Tolerates place read) :
    SlotFollows (required name read) ⟨name, place, none⟩ where
  name_eq := rfl
  tolerates := h
  defaults := .required rfl

theorem SlotFollows.defaulted {name : String} {read : Reader α} {a : α} {default : Default}
    (hd : Defaults (defaulted name read a) default a) (h : Tolerates place read) :
    SlotFollows (defaulted name read a) ⟨name, place, some default⟩ where
  name_eq := rfl
  tolerates := h
  defaults := .defaulted hd

namespace Defaults

theorem optional (name : String) (read : Reader α) :
    Defaults (defaulted name (Reader.optional read) none) .null none where
  absent := rfl
  spells_iff := by
    intro source d b _ hr
    cases d with
    | null =>
      cases hr
      simp [Default.Spells]
    | bool | number | string | array | object | torn =>
      obtain ⟨a, -, rfl⟩ := map_eq_ok.mp hr
      simp [Default.Spells]
  reads := by
    rintro room source _ - rfl -
    rfl

theorem natural32 (name : String) : Defaults (defaulted name Reader.natural32 0) .zero 0 where
  absent := rfl
  spells_iff := by
    intro source d b _ hr
    simp only [defaulted, Reader.natural32] at hr
    split at hr
    · next n =>
      split at hr
      · next k hk =>
        split at hr
        · next hlt =>
          cases hr
          simp only [Default.Spells, Doc.number.injEq, exists_eq_left', hk, Option.some.injEq,
            Numeric.natural.injEq]
          rw [← UInt32.toNat_inj, UInt32.toNat_ofNat_of_lt' hlt]
          rfl
        · cases hr
      · cases hr
      · exact absurd hr refuse_ne_ok
    · exact absurd hr refuse_ne_ok
  reads := by
    rintro room source _ - ⟨n, rfl, hn⟩ -
    simp [defaulted, Reader.natural32, hn]

theorem list (name : String) (item : Reader α) :
    Defaults (defaulted name (Reader.list item) []) .items [] where
  absent := rfl
  spells_iff := by
    intro source d b hd hr
    simp only [defaulted, Reader.list] at hr
    split at hr
    · next ds closed =>
      obtain ⟨inner, -, hr⟩ := bind_eq_ok.mp hr
      obtain ⟨as, has, hr⟩ := bind_eq_ok.mp hr
      obtain ⟨_, -, hr⟩ := bind_eq_ok.mp hr
      cases hr
      simp only [Doc.skippable, Bool.and_eq_true] at hd
      cases ds with
      | nil =>
        cases has
        simp [Default.Spells, hd.1]
      | cons d ds =>
        obtain ⟨a, -, has⟩ := bind_eq_ok.mp has
        obtain ⟨as', -, has⟩ := bind_eq_ok.mp has
        cases has
        simp [Default.Spells]
    · exact absurd hr refuse_ne_ok
  reads := by
    rintro room source _ hs rfl hroom
    obtain ⟨inner, he⟩ := hs.enter fun hzero => by simp [hzero, Doc.holdable] at hroom
    exact bind_eq_ok.mpr ⟨inner, he, by rw [leave_true]; rfl⟩

/-- What was inserted stays, so that only no members leave nothing. -/
private theorem entries_ne_nil {value : Reader α} {ms : Members} {m full : OrderedMap α}
    (hm : m.entries ≠ []) (hr : Reader.members value source ms m = .ok full) : full.entries ≠ [] := by
  induction ms generalizing m with
  | nil =>
    cases hr
    exact hm
  | cons member ms ih =>
    obtain ⟨_ | key, d⟩ := member
    · cases hr
    · obtain ⟨a, -, hr⟩ := bind_eq_ok.mp hr
      exact ih insertPair_ne_nil hr

theorem map (name : String) (value : Reader α) :
    Defaults (defaulted name (Reader.map value) .empty) .entries .empty where
  absent := rfl
  spells_iff := by
    intro source d b hd hr
    simp only [defaulted, Reader.map] at hr
    split at hr
    · next ms closed =>
      obtain ⟨inner, -, hr⟩ := bind_eq_ok.mp hr
      obtain ⟨m, hm, hr⟩ := bind_eq_ok.mp hr
      obtain ⟨_, -, hr⟩ := bind_eq_ok.mp hr
      cases hr
      simp only [Doc.skippable, Bool.and_eq_true] at hd
      cases ms with
      | nil =>
        cases hm
        simp [Default.Spells, hd.1]
      | cons member ms =>
        obtain ⟨_ | key, d⟩ := member
        · cases hm
        · obtain ⟨a, -, hm⟩ := bind_eq_ok.mp hm
          have hne := entries_ne_nil insertPair_ne_nil hm
          constructor
          · intro hspelled
            cases hspelled
          · intro he
            rw [he] at hne
            exact absurd rfl hne
    · exact absurd hr refuse_ne_ok
  reads := by
    rintro room source _ hs rfl hroom
    obtain ⟨inner, he⟩ := hs.enter fun hzero => by simp [hzero, Doc.holdable] at hroom
    exact bind_eq_ok.mpr ⟨inner, he, by rw [leave_true]; rfl⟩

end Defaults

end IdlStencil.Idl
