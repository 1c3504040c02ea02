import Mathlib.Logic.Relation
import IdlStencil.Proofs.RoundTrip
import IdlStencil.Proofs.Tolerance

/-!
# A unit is the same however it is spelled

The readers of units follow the tables of their fields, so that no spelling of a record changes what
is read (`decode_of_respelled`). Types need an induction, level by level. A declaration is held until
its kind is known: its kind is a slot before those of the body, and what is held can be held in any
spelling (`Declaration.Held.respelled`). The members of an enum declaration are read in two goes, which
comes to the same as reading one record (`Declaration.readEnum_object_iff`), but it cannot be an array.
-/

namespace IdlStencil.Idl

open Json Members

/-! ## Types and fields -/

theorem Annot.follows : Follows Annot.slots RecordForm.annot.fields :=
  .cons (.required .plain) <|
  .cons (.defaulted (.natural32 _) .plain) <|
  .cons (.defaulted (.list _ _) .plain) <|
  .cons (.defaulted (.map _ _) .plain) .nil

theorem Annot.tolerates : Tolerates (.record .annot) Annot.read := (Annot.follows.record _).map _

section Level

variable {inner : Reader Ty} (h : Tolerates .type inner)

include h

theorem Field.follows : Follows (Field.slots inner) RecordForm.field.fields :=
  .cons (.required .plain) <|
  .cons (.defaulted (.optional _ _) h.optional) <|
  .cons (.defaulted (.optional _ _) .plain) <|
  .cons (.defaulted (.optional _ _) Annot.tolerates.optional) .nil

theorem Field.tolerates_level : Tolerates (.record .field) (Field.readWith inner) :=
  ((Field.follows h).record _).map _

theorem enum_follows : Follows (enumSlots inner) RecordForm.enumBody.fields :=
  .cons (.required h) <| .cons (.required (Field.tolerates_level h).list) .nil

theorem Ty.array_follows : Follows (Ty.arraySlots inner) RecordForm.arrayBody.fields :=
  .cons (.required h) <| .cons (.required .plain) .nil

theorem Ty.named_follows : Follows (Ty.namedSlots inner) RecordForm.namedBody.fields :=
  .cons (.required .plain) <| .cons (.required h) .nil

theorem Ty.tolerates_level : Tolerates .type (Ty.level inner) := by
  have hfields := (Field.tolerates_level h).list
  have hparts : ∀ part ∈ typeParts, ∃ payload,
      (Ty.alternatives inner).lookup part.1 = some payload ∧ PayloadTolerates part.2 payload := by
    simp only [typeParts, List.forall_mem_cons]
    refine ⟨⟨_, rfl, .value (h.map _)⟩, ⟨_, rfl, .value (h.map _)⟩,
      ⟨_, rfl, .record (((Ty.array_follows h).record _).map _)⟩,
      ⟨_, rfl, .value (((enum_follows h).record _).map _)⟩,
      ⟨_, rfl, .value (hfields.map _)⟩, ⟨_, rfl, .value (hfields.map _)⟩,
      ⟨_, rfl, .record (((Ty.named_follows h).record _).map _)⟩, by simp⟩
  exact .variant fun name place hpart => hparts (name, place) hpart

end Level

theorem Ty.tolerates_readLevels (n : Nat) : Tolerates .type (Ty.readLevels n) := by
  induction n with
  | zero => exact Ty.tolerates_level ⟨fun _ _ hr => nomatch hr⟩
  | succ n ih => exact Ty.tolerates_level ih

theorem Ty.tolerates : Tolerates .type Ty.read := Ty.tolerates_readLevels depthLimit

theorem fieldList_tolerates : Tolerates (.list (.record .field)) fieldList :=
  (Field.tolerates_level Ty.tolerates).list

theorem annotList_tolerates : Tolerates (.list (.record .annot)) annotList := Annot.tolerates.list

/-! ## Declarations -/

namespace Declaration

variable {source inner : Source} {ms rest : Members} {ds : List Doc} {d d' : Doc} {a : Declaration}
  {form : RecordForm} {body : Reader Declaration}

/-- The kind of a declaration, which is a field like others. -/
def kindSlot : Slot (Reader Declaration) := required "kind" readKind

theorem splitKind_eq_ok_iff {kind kind' : Option (Reader Declaration)} :
    splitKind source ms kind = .ok (kind', rest) ↔
      kindSlot.Collects .held (named "kind" ms) kind kind' ∧ rest = others "kind" ms ∧
        ∀ m ∈ others "kind" ms, m.1.isSome = true ∧ source.hold m.2 = .ok () := by
  induction ms generalizing kind rest with
  | nil =>
    constructor
    · rintro ⟨⟩
      exact ⟨.nothing, rfl, by simp [others]⟩
    · rintro ⟨hc, rfl, -⟩
      rw [Slot.collects_nil_iff.mp hc]
      rfl
  | cons m ms ih =>
    obtain ⟨_ | key, d⟩ := m
    · rw [others_cons_of_ne (by simp), splitKind]
      simp
    · by_cases hkey : key = "kind"
      · subst hkey
        rw [named_cons_self, others_cons_self, Slot.collects_cons_iff]
        cases kind with
        | some =>
          rw [splitKind]
          simp
        | none =>
          -- a kind is read from a stream as it is when held
          have hsource : readKind source d = readKind .held d := rfl
          rw [splitKind, hsource, bind_eq_ok]
          simp [ih, kindSlot, required, ← and_assoc]
      · have hne : (some key, d).1 ≠ some "kind" := by simpa using hkey
        rw [named_cons_of_ne hne, others_cons_of_ne hne, splitKind_cons hkey]
        constructor
        · intro h
          obtain ⟨⟨⟩, hhold, h⟩ := bind_eq_ok.mp h
          obtain ⟨⟨kind'', rest'⟩, hsplit, h⟩ := map_eq_ok.mp h
          cases h
          obtain ⟨hc, rfl, hheld⟩ := ih.mp hsplit
          exact ⟨hc, rfl, List.forall_mem_cons.mpr ⟨⟨rfl, hhold⟩, hheld⟩⟩
        · rintro ⟨hc, rfl, hheld⟩
          obtain ⟨⟨-, hhold⟩, hheld⟩ := List.forall_mem_cons.mp hheld
          exact bind_eq_ok.mpr ⟨(), hhold, map_eq_ok.mpr ⟨_, ih.mpr ⟨hc, rfl, hheld⟩, rfl⟩⟩

theorem splitName_eq_ok_iff {name name' : Option String} :
    splitName source ms name = .ok (name', rest) ↔
      (required "name" Reader.string).Collects source (named "name" ms) name name' ∧
        rest = others "name" ms := by
  induction ms generalizing name rest with
  | nil =>
    constructor
    · rintro ⟨⟩
      exact ⟨.nothing, rfl⟩
    · rintro ⟨hc, rfl⟩
      rw [Slot.collects_nil_iff.mp hc]
      rfl
  | cons m ms ih =>
    obtain ⟨key, d⟩ := m
    by_cases hkey : key = some "name"
    · subst hkey
      rw [named_cons_self, others_cons_self, Slot.collects_cons_iff]
      cases name with
      | some =>
        rw [splitName]
        simp
      | none =>
        rw [splitName, bind_eq_ok]
        simp [ih, required, ← and_assoc]
    · have hstep : splitName source ((key, d) :: ms) name =
          splitName source ms name >>= fun r => .ok (r.1, (key, d) :: r.2) := by
        rw [splitName]
        · rfl
        · simpa using hkey
      rw [named_cons_of_ne hkey, others_cons_of_ne hkey, hstep]
      constructor
      · intro h
        obtain ⟨⟨name'', rest'⟩, hsplit, h⟩ := bind_eq_ok.mp h
        cases h
        obtain ⟨hc, rfl⟩ := ih.mp hsplit
        exact ⟨hc, rfl⟩
      · rintro ⟨hc, rfl⟩
        exact bind_eq_ok.mpr ⟨_, ih.mpr ⟨hc, rfl⟩, rfl⟩

/-- What of a declaration was held: everything but the kind. Only those that are no enums can be
arrays. -/
inductive Held (form : RecordForm) (source : Source) : Doc → Prop where
  | object {ms : Members}
      (h : ∀ m ∈ ms, m.1 ≠ some "kind" → m.1.isSome = true ∧ source.hold m.2 = .ok ()) :
      Held form source (.object ms true)
  | array {kind : Doc} {ds : List Doc} (hform : form ≠ .enum)
      (h : ∀ d ∈ ds, source.hold d = .ok ()) : Held form source (.array (kind :: ds) true)

/-- The body has the fields of the form after the kind. -/
structure BodyReads (form : RecordForm) (body : Reader Declaration) {αs : List Type} (slots : Slots αs)
    (make : Tuple αs → Declaration) : Prop where
  follows : Follows (.cons kindSlot slots) form.fields
  object_iff {ms : Members} {a : Declaration} :
    body .held (.object ms true) = .ok a ↔ ∃ t, slots.Reads .held ms t ∧ make t = a
  array_iff {ds : List Doc} {a : Declaration} :
    body .held (.array ds true) = .ok a ↔
      form ≠ .enum ∧ ∃ t, slots.ReadsItems .held ds t ∧ make t = a

theorem kind_follows {αs : List Type} {slots : Slots αs} {fields : List FieldRule}
    (h : Follows slots fields) : Follows (.cons kindSlot slots) (⟨"kind", .plain, none⟩ :: fields) :=
  .cons (.required .plain) h

theorem BodyReads.record {αs : List Type} {slots : Slots αs}
    (hf : Follows (.cons kindSlot slots) form.fields) (hform : form ≠ .enum) (label : String)
    (make : Tuple αs → Declaration)
    (hbody : ∀ d, body .held d = (Reader.record label slots .held d).map make) :
    BodyReads form body slots make := by
  refine ⟨hf, ?_, ?_⟩
  · simp [hbody, map_eq_ok, record_object_eq_ok_iff, Source.enter]
  · simp [hbody, map_eq_ok, record_array_eq_ok_iff, Source.enter, hform]

/-- The name and the fields of an enum as one record. -/
def enumFields : Slots [String, Ty, List Field] :=
  .cons (required "name" Reader.string) (enumSlots Ty.read)

theorem readEnum_object_iff {closed : Bool} :
    readEnum source (.object ms closed) = .ok a ↔
      ∃ t, enumFields.Reads source ms t ∧ Declaration.enum t.1 t.2.1 t.2.2.1 = a := by
  constructor
  · intro h
    obtain ⟨⟨name, rest⟩, hsplit, h⟩ := bind_eq_ok.mp h
    obtain ⟨hname, rfl⟩ := splitName_eq_ok_iff.mp hsplit
    cases name with
    | none => cases h
    | some name =>
      obtain ⟨found, hfound, h⟩ := bind_eq_ok.mp h
      obtain ⟨⟨storage, fields, ⟨⟩⟩, hfinish, h⟩ := bind_eq_ok.mp h
      cases h
      have hbody := members_finish_iff.mp ⟨found, hfound, hfinish⟩
      exact ⟨(name, storage, fields, ()), ⟨Slot.takes_iff.mpr ⟨_, hname, rfl⟩, hbody⟩, rfl⟩
  · rintro ⟨⟨name, storage, fields, ⟨⟩⟩, ⟨hname, hbody⟩, rfl⟩
    obtain ⟨here, hcollects, hhere⟩ := Slot.takes_iff.mp hname
    obtain ⟨found, hfound, hfinish⟩ := members_finish_iff.mpr hbody
    have hhere : here = some name := by simpa [required] using hhere
    subst hhere
    have hsplit := splitName_eq_ok_iff.mpr ⟨hcollects, rfl⟩
    refine bind_eq_ok.mpr ⟨_, hsplit, bind_eq_ok.mpr ⟨found, hfound, ?_⟩⟩
    exact bind_eq_ok.mpr ⟨_, hfinish, rfl⟩

theorem BodyReads.enum :
    BodyReads .enum readEnum enumFields fun t => .enum t.1 t.2.1 t.2.2.1 where
  follows := kind_follows (.cons (.required .plain) (enum_follows Ty.tolerates))
  object_iff := readEnum_object_iff
  array_iff := by simp [readEnum, refuse_ne_ok]

/-- A form that has a kind has a body that the kind announces. -/
theorem body_of_kind {kind : String} (hkind : form.kind? = some kind) :
    ∃ (body : Reader Declaration) (αs : List Type) (slots : Slots αs) (make : Tuple αs → Declaration),
      alternatives.lookup kind = some body ∧ BodyReads form body slots make := by
  cases form with
  | const =>
    cases hkind
    have hf : Follows constSlots _ := .cons (.required .plain) (.cons (.required .plain) .nil)
    exact ⟨_, _, _, _, rfl, .record (kind_follows hf) (by decide) _ _ fun _ => rfl⟩
  | typedef =>
    cases hkind
    have hf : Follows typedefSlots _ := .cons (.required .plain) (.cons (.required Ty.tolerates) .nil)
    exact ⟨_, _, _, _, rfl, .record (kind_follows hf) (by decide) _ _ fun _ => rfl⟩
  | struct | union =>
    cases hkind
    have hf : Follows fieldsSlots _ :=
      .cons (.required .plain) (.cons (.defaulted (.list _ _) fieldList_tolerates) .nil)
    exact ⟨_, _, _, _, rfl, .record (kind_follows hf) (by decide) _ _ fun _ => rfl⟩
  | enum =>
    cases hkind
    exact ⟨_, _, _, _, rfl, .enum⟩
  | imported =>
    cases hkind
    have hf : Follows nameSlots _ := .cons (.required .plain) .nil
    exact ⟨_, _, _, _, rfl, .record (kind_follows hf) (by decide) _ _ fun _ => rfl⟩
  | function =>
    cases hkind
    have hf : Follows Function.slots _ :=
      .cons (.required .plain) <|
      .cons (.defaulted (.list _ _) fieldList_tolerates) <|
      .cons (.defaulted (.list _ _) fieldList_tolerates) <|
      .cons (.defaulted (.list _ _) annotList_tolerates) <|
      .cons (.defaulted (.natural32 _) .plain) .nil
    refine ⟨_, _, Function.slots, fun t => .function
      { name := t.1, params := t.2.1, generates := t.2.2.1, annotations := t.2.2.2.1,
        line := t.2.2.2.2.1 }, rfl,
      .record (kind_follows hf) (by decide) "struct Function" _ fun d => ?_⟩
    rw [Function.read]
    cases Reader.record "struct Function" Function.slots .held d <;> rfl
  | unit | interface | annot | field | enumBody | arrayBody | namedBody => cases hkind

theorem fields_of_kind {kind : String} (hkind : form.kind? = some kind) :
    ∃ fields, form.fields = ⟨"kind", .plain, none⟩ :: fields := by
  cases form with
  | const | typedef | struct | enum | union | imported | function => exact ⟨_, rfl⟩
  | unit | interface | annot | field | enumBody | arrayBody | namedBody => cases hkind

theorem readKind_string {kind : String} (h : alternatives.lookup kind = some body) :
    readKind source (.string (some kind)) = .ok body := by
  simp [readKind, Reader.text, h, pure, Except.pure]

theorem holdItems_eq_ok_iff : holdItems source ds = .ok () ↔ ∀ d ∈ ds, source.hold d = .ok () := by
  induction ds with
  | nil => simp [holdItems]
  | cons d ds ih =>
    rw [List.forall_mem_cons, ← ih, holdItems]
    cases source.hold d <;> simp [bind, Except.bind]

section Body

variable {kind : String} {αs : List Type} {slots : Slots αs} {make : Tuple αs → Declaration}
  {t : Tuple αs}

/-- A declaration of a known kind was held but for the kind, and the kind and the body make up one
record. -/
theorem held_of_read (hlookup : alternatives.lookup kind = some body)
    (hbody : BodyReads form body slots make) (ha : Announces kind d) (hr : read source d = .ok a) :
    ∃ inner t, source.enter = .ok inner ∧ Held form inner d ∧
      (Slots.cons kindSlot slots).Makes .held d (body, t) ∧ make t = a := by
  cases ha with
  | @object ms hmem =>
    obtain ⟨inner, he, hr⟩ := bind_eq_ok.mp hr
    obtain ⟨⟨found, rest⟩, hsplit, hr⟩ := bind_eq_ok.mp hr
    obtain ⟨hc, rfl, hheld⟩ := splitKind_eq_ok_iff.mp hsplit
    obtain ⟨⟨⟩, -, hr⟩ := bind_eq_ok.mp hr
    cases found with
    | none => cases hr
    | some body' =>
      have htakes : kindSlot.Takes .held (named "kind" ms) body' := Slot.takes_iff.mpr ⟨_, hc, rfl⟩
      have hsame : body' = body := by
        have hmem := mem_named.mpr hmem
        generalize named "kind" ms = kinds at htakes hmem
        cases htakes with
        | present h =>
          cases List.mem_singleton.mp hmem
          cases (readKind_string hlookup).symm.trans h
          rfl
        | absent => simp at hmem
      subst hsame
      obtain ⟨t, ht, rfl⟩ := hbody.object_iff.mp hr
      have hheld' := fun m hm hne => hheld m (mem_others.mpr ⟨hm, hne⟩)
      exact ⟨inner, t, he, .object hheld', .object ⟨htakes, ht⟩, rfl⟩
  | array =>
    obtain ⟨inner, he, hr⟩ := bind_eq_ok.mp hr
    obtain ⟨body', hkind, hr⟩ := bind_eq_ok.mp hr
    obtain ⟨⟨⟩, hheld, hr⟩ := bind_eq_ok.mp hr
    obtain ⟨⟨⟩, -, hr⟩ := bind_eq_ok.mp hr
    cases (readKind_string hlookup).symm.trans hkind
    obtain ⟨hform, t, ht, rfl⟩ := hbody.array_iff.mp hr
    exact ⟨inner, t, he, .array hform (holdItems_eq_ok_iff.mp hheld),
      .array ⟨readKind_string hlookup, ht⟩, rfl⟩

theorem read_of_held (hbody : BodyReads form body slots make) (he : source.enter = .ok inner)
    (hheld : Held form inner d) (hm : (Slots.cons kindSlot slots).Makes .held d (body, t)) :
    read source d = .ok (make t) := by
  cases hheld with
  | object hheld =>
    obtain ⟨htakes, hreads⟩ := Slots.makes_object_iff.mp hm
    obtain ⟨here, hc, hhere⟩ := Slot.takes_iff.mp htakes
    have hhere : here = some body := by simpa [kindSlot, required] using hhere
    subst hhere
    have hsplit := splitKind_eq_ok_iff.mpr
      ⟨hc, rfl, fun m hm => hheld m (mem_others.mp hm).1 (mem_others.mp hm).2⟩
    refine bind_eq_ok.mpr ⟨inner, he, bind_eq_ok.mpr ⟨_, hsplit, ?_⟩⟩
    exact bind_eq_ok.mpr ⟨(), leave_true inner, hbody.object_iff.mpr ⟨t, hreads, rfl⟩⟩
  | array hform hheld =>
    obtain ⟨hkind, hitems⟩ := Slots.makes_array_iff.mp hm
    refine bind_eq_ok.mpr ⟨inner, he, bind_eq_ok.mpr ⟨body, hkind, ?_⟩⟩
    refine bind_eq_ok.mpr ⟨(), holdItems_eq_ok_iff.mpr hheld, ?_⟩
    exact bind_eq_ok.mpr ⟨(), leave_true inner, hbody.array_iff.mpr ⟨hform, t, hitems, rfl⟩⟩

end Body

/-- What can be held can be held in any spelling. -/
theorem hold_respelled {room : Nat} {place : Place} (hs : source.Within room)
    (h : Respelled room place d d') (hd : source.hold d = .ok ()) : source.hold d' = .ok () := by
  cases hs with
  | stream =>
    have hroom := (Source.Offers.stream : (Source.stream room).Offers room d).holdable hd
    exact Source.Within.stream.hold (h.holdable hroom)
  | held => rfl

theorem Held.respelled {room : Nat} {fields : List FieldRule} (hs : source.Within room)
    (he : source.enter = .ok inner) (hfields : form.fields = ⟨"kind", .plain, none⟩ :: fields)
    (h : Respelled room (.record form) d d') (hd : Held form inner d) : Held form inner d' := by
  have hkind : ∀ field ∈ fields, field.name ≠ "kind" := by
    have hn := form.names_nodup
    rw [hfields] at hn
    exact fun field hfield heq =>
      (List.nodup_cons.mp hn).1 (List.mem_map.mpr ⟨field, hfield, heq⟩)
  cases h with
  | here h =>
    have hinner := hs.inside he
    cases hd with
    | object hd =>
      cases h with
      | permute hp => exact .object fun m hm => hd m (hp.mem_iff.mpr hm)
      | insert _ hv => exact .object (forall_mem_middle.mpr ⟨fun _ => ⟨rfl, hinner.hold hv⟩, hd⟩)
      | remove => exact .object (forall_mem_middle.mp hd).2
      | array hform hrow =>
        rw [hfields] at hrow
        have hheld : ∀ {ds}, Row _ _ fields ds → ∀ d ∈ ds, inner.hold d = .ok () := fun hrow =>
          hrow.forall
            (fun field hfield d hmem => (hd _ hmem (by simpa using hkind field hfield)).2)
            fun d hroom => hinner.hold hroom
        cases hrow with
        | written _ hrow | omitted _ _ _ _ hrow => exact .array hform (hheld hrow)
  | member _ h =>
    cases hd with
    | object hd =>
      obtain ⟨hvalue, hrest⟩ := forall_mem_middle.mp hd
      refine .object (forall_mem_middle.mpr ⟨fun hne => ⟨rfl, ?_⟩, hrest⟩)
      exact hold_respelled (hs.inside he) h (hvalue hne).2
  | @element _ _ _ before _ _ _ hfield h =>
    rw [hfields] at hfield
    cases before with
    | nil =>
      -- the kind is no record
      cases hfield
      cases h
    | cons kind before =>
      cases hd with
      | array hform hd =>
        obtain ⟨hvalue, hrest⟩ := forall_mem_middle.mp hd
        have hvalue' := hold_respelled (hs.inside he) h hvalue
        exact .array hform (forall_mem_middle.mpr ⟨hvalue', hrest⟩)

theorem tolerates : Tolerates .declaration Declaration.read := by
  refine ⟨fun hs h hr => ?_⟩
  cases h with
  | declaration hkind ha h =>
    obtain ⟨body, _, slots, make, hlookup, hbody⟩ := body_of_kind hkind
    obtain ⟨inner, t, he, hheld, hm, rfl⟩ := held_of_read hlookup hbody ha hr
    obtain ⟨fields, hfields⟩ := fields_of_kind hkind
    exact read_of_held hbody he (hheld.respelled hs he hfields h)
      (hbody.follows.makes .held rfl h hm)

end Declaration

/-! ## Units -/

theorem Interface.tolerates : Tolerates (.record .interface) Interface.read := by
  have hf : Follows Interface.slots RecordForm.interface.fields :=
    .cons (.required .plain) <|
    .cons (.defaulted (.list _ _) annotList_tolerates) <|
    .cons (.defaulted (.natural32 _) .plain) .nil
  exact (hf.record _).map _

theorem PackageUnit.tolerates : Tolerates (.record .unit) PackageUnit.read := by
  have hf : Follows PackageUnit.slots RecordForm.unit.fields :=
    .cons (.required .plain) <|
    .cons (.required .plain) <|
    .cons (.defaulted (.list _ _) .plain) <|
    .cons (.defaulted (.list _ _) .plain) <|
    .cons (.defaulted (.optional _ _) Interface.tolerates.optional) <|
    .cons (.defaulted (.list _ _) Declaration.tolerates.list) <|
    .cons (.defaulted (.list _ _) fieldList_tolerates) .nil
  exact (hf.record _).map _

/-- Changes of spelling, one after another, anywhere in a document that is accepted as a unit, leave
the unit as it is. -/
theorem decode_of_respelled {d d' : Doc} {trailing : Bool} {u : PackageUnit}
    (h : Relation.ReflTransGen (Respelled depthLimit (.record .unit)) d d')
    (hr : (Document.mk d trailing).decode PackageUnit.read = .ok u) :
    (Document.mk d' trailing).decode PackageUnit.read = .ok u := by
  induction h with
  | refl => exact hr
  | tail _ h ih =>
    obtain ⟨v, hv, hrest⟩ := bind_eq_ok.mp ih
    exact bind_eq_ok.mpr ⟨v, PackageUnit.tolerates.reads .stream h hv, hrest⟩

/-- A struct whose kind stands last becomes an array, a default inside it goes, and an unknown member
comes in at the top. -/
theorem decode_of_respelled_struct :
    let text := fun s => Doc.string (some s)
    let field := fun value => Doc.object ([(some "name", text "f"),
      (some "type", .object [(some "vec", text "string")] true)] ++ value) true
    let unit := fun note declaration => Doc.object ([(some "package", text "p")] ++ note ++
      [(some "version", text "1.0"), (some "declarations", .array [declaration] true)]) true
    let first := unit [] (.object [(some "name", text "S"),
      (some "fields", .array [field [(some "value", .null)]] true), (some "kind", text "struct")] true)
    let last := unit [(some "note", .array [.null] true)]
      (.array [text "struct", text "S", .array [field []] true] true)
    let u : PackageUnit :=
      { package := "p", version := ⟨1, 0⟩,
        declarations := [.struct "S" [{ name := "f", type := some (.vec .string) }]] }
    Relation.ReflTransGen (Respelled depthLimit (.record .unit)) first last ∧
      (Document.mk first false).decode PackageUnit.read = .ok u ∧
      (Document.mk last false).decode PackageUnit.read = .ok u := by
  intro text field unit first last u
  let declarations : FieldRule := ⟨"declarations", .list .declaration, some .items⟩
  let fields : FieldRule := ⟨"fields", .list (.record .field), some .items⟩
  -- a change to the one declaration
  have hinside {d d' : Doc} (h : Respelled 125 .declaration d d') :
      Respelled depthLimit (.record .unit) (unit [] d) (unit [] d') := by
    refine @Respelled.member 126 .unit declarations [_, _] [] _ _ (by decide) ?_
    exact @Respelled.item 125 _ [] [] _ _ h
  have hdefault : Respelled depthLimit (.record .unit) first (unit [] (.object [(some "name", text "S"),
      (some "fields", .array [field []] true), (some "kind", text "struct")] true)) := by
    refine hinside (@Respelled.declaration 125 .struct "struct" _ _ rfl (.object (by simp [text])) ?_)
    refine @Respelled.member 124 .struct fields [_] [_] _ _ (by decide) ?_
    refine @Respelled.item 123 _ [] [] _ _ (.here ?_)
    exact @Change.remove 122 .field [_, _] [] ⟨"value", .plain, some .null⟩ .null .null (by decide) rfl rfl
  have harray : Respelled depthLimit (.record .unit) (unit [] (.object [(some "name", text "S"),
      (some "fields", .array [field []] true), (some "kind", text "struct")] true))
      (unit [] (.array [text "struct", text "S", .array [field []] true] true)) := by
    refine hinside (@Respelled.declaration 125 .struct "struct" _ _ rfl (.object (by simp [text])) ?_)
    refine .here (.array (by decide) (.written ?_ (.written ?_ (.written ?_ .nil)))) <;> simp
  have hnote : Respelled depthLimit (.record .unit)
      (unit [] (.array [text "struct", text "S", .array [field []] true] true)) last := by
    refine @Respelled.here 126 .unit _ _ ?_
    exact @Change.insert 126 .unit [_] [_, _] "note" (.array [.null] true) (by decide)
      (by simp [Doc.holdable, holdableItems])
  have h : Relation.ReflTransGen (Respelled depthLimit (.record .unit)) first last :=
    ((Relation.ReflTransGen.single hdefault).tail harray).tail hnote
  have hfirst : (Document.mk first false).decode PackageUnit.read = .ok u := rfl
  exact ⟨h, hfirst, decode_of_respelled h hfirst⟩

end IdlStencil.Idl
