import IdlStencil.Proofs.RecordReading
import IdlStencil.Idl.Unit

/-!
# Other spellings of a unit

The records of a unit may be written with their members in any order, with unknown members, with or
without members that say no more than the default, and as arrays. `Respelled room place d d'` is one
such change, to one record anywhere in a document. Where the records stand is said by the format: a
table of the fields of each record with what stands in them (`RecordForm.fields`), and of the types
that have types or fields inside (`typeParts`). Entries of annotations and the objects around a
variant are no records.

What a change puts into the document has to find room there: `room` is how deep arrays and objects
may nest from the place on.
-/

namespace IdlStencil.Idl

open Json

/-! ## The format -/

/-- The records of a unit. Those of declarations begin with the kind. -/
inductive RecordForm where
  | unit
  | interface
  | annot
  | field
  | enumBody
  | arrayBody
  | namedBody
  | const
  | typedef
  | struct
  | enum
  | union
  | imported
  | function
  deriving DecidableEq, Repr

/-- What stands in a place of a document, as far as there are records in it. -/
inductive Place where
  /-- No record. -/
  | plain
  | record (form : RecordForm)
  | list (item : Place)
  | type
  | declaration
  deriving DecidableEq, Repr

/-- The value of a field that may be left out. -/
inductive Default where
  | null
  | zero
  | items
  | entries
  deriving DecidableEq, Repr

/-- The document is the default, written. -/
def Default.Spells : Default → Doc → Prop
  | .null, d => d = .null
  | .zero, d => ∃ n : Number, d = .number n ∧ n.value? = some (.natural 0)
  | .items, d => d = .array [] true
  | .entries, d => d = .object [] true

/-- A field of a record. One without a default is required. -/
structure FieldRule where
  name : String
  place : Place
  default : Option Default
  deriving DecidableEq, Repr

namespace RecordForm

/-- The fields of a record in their order. -/
def fields : RecordForm → List FieldRule
  | .unit =>
    [⟨"package", .plain, none⟩, ⟨"version", .plain, none⟩, ⟨"namespace", .plain, some .items⟩,
      ⟨"imports", .plain, some .items⟩, ⟨"interface", .record .interface, some .null⟩,
      ⟨"declarations", .list .declaration, some .items⟩,
      ⟨"vars", .list (.record .field), some .items⟩]
  | .interface =>
    [⟨"name", .plain, none⟩, ⟨"annotations", .list (.record .annot), some .items⟩,
      ⟨"line", .plain, some .zero⟩]
  | .annot =>
    [⟨"name", .plain, none⟩, ⟨"line", .plain, some .zero⟩, ⟨"values", .plain, some .items⟩,
      ⟨"entries", .plain, some .entries⟩]
  | .field =>
    [⟨"name", .plain, none⟩, ⟨"type", .type, some .null⟩, ⟨"value", .plain, some .null⟩,
      ⟨"annotation", .record .annot, some .null⟩]
  | .enumBody => [⟨"storage", .type, none⟩, ⟨"fields", .list (.record .field), none⟩]
  | .arrayBody => [⟨"base", .type, none⟩, ⟨"dimension", .plain, none⟩]
  | .namedBody => [⟨"name", .plain, none⟩, ⟨"base", .type, none⟩]
  | .const => [⟨"kind", .plain, none⟩, ⟨"name", .plain, none⟩, ⟨"value", .plain, none⟩]
  | .typedef => [⟨"kind", .plain, none⟩, ⟨"name", .plain, none⟩, ⟨"base", .type, none⟩]
  | .struct | .union =>
    [⟨"kind", .plain, none⟩, ⟨"name", .plain, none⟩,
      ⟨"fields", .list (.record .field), some .items⟩]
  | .enum =>
    [⟨"kind", .plain, none⟩, ⟨"name", .plain, none⟩, ⟨"storage", .type, none⟩,
      ⟨"fields", .list (.record .field), none⟩]
  | .imported => [⟨"kind", .plain, none⟩, ⟨"name", .plain, none⟩]
  | .function =>
    [⟨"kind", .plain, none⟩, ⟨"name", .plain, none⟩,
      ⟨"params", .list (.record .field), some .items⟩,
      ⟨"generates", .list (.record .field), some .items⟩,
      ⟨"annotations", .list (.record .annot), some .items⟩, ⟨"line", .plain, some .zero⟩]

/-- The kind that announces a declaration. -/
def kind? : RecordForm → Option String
  | .const => some "const"
  | .typedef => some "typedef"
  | .struct => some "struct"
  | .enum => some "enum"
  | .union => some "union"
  | .imported => some "import"
  | .function => some "function"
  | _ => none

end RecordForm

/-- The variants of types that have records or types inside, with what they carry. -/
def typeParts : List (String × Place) :=
  [("vec", .type), ("ref", .type), ("array", .record .arrayBody), ("enum", .record .enumBody),
    ("union", .list (.record .field)), ("struct", .list (.record .field)),
    ("named", .record .namedBody)]

/-- The declaration says its kind: in a member wherever it stands, or in the first item. -/
inductive Announces (kind : String) : Doc → Prop where
  | object {ms : Members} (h : (some "kind", .string (some kind)) ∈ ms) :
      Announces kind (.object ms true)
  | array {ds : List Doc} : Announces kind (.array (.string (some kind) :: ds) true)

/-! ## Changes -/

/-- The items of a record that has the members: the value of each field in its turn, or the default,
written, of a field that was left out. -/
inductive Row (room : Nat) (ms : Members) : List FieldRule → List Doc → Prop where
  | nil : Row room ms [] []
  | written {field : FieldRule} {fields : List FieldRule} {d : Doc} {ds : List Doc}
      (h : (some field.name, d) ∈ ms) (hrest : Row room ms fields ds) :
      Row room ms (field :: fields) (d :: ds)
  | omitted {field : FieldRule} {fields : List FieldRule} {default : Default} {d : Doc} {ds : List Doc}
      (hnot : ∀ m ∈ ms, m.1 ≠ some field.name) (hdefault : field.default = some default)
      (hd : default.Spells d) (hroom : d.holdable room = true) (hrest : Row room ms fields ds) :
      Row room ms (field :: fields) (d :: ds)

/-- One change to a record that is written as an object. What is put in is sound and nests no deeper
than there is room. -/
inductive Change (room : Nat) (form : RecordForm) : Members → Doc → Prop where
  | permute {ms ms' : Members} (h : ms.Perm ms') : Change room form ms (.object ms' true)
  | insert {before behind : Members} {key : String} {v : Doc}
      (hkey : ∀ field ∈ form.fields, field.name ≠ key) (hv : v.holdable room = true) :
      Change room form (before ++ behind) (.object (before ++ (some key, v) :: behind) true)
  | remove {before behind : Members} {field : FieldRule} {default : Default} {d : Doc}
      (hfield : field ∈ form.fields) (hdefault : field.default = some default)
      (hd : default.Spells d) :
      Change room form (before ++ (some field.name, d) :: behind) (.object (before ++ behind) true)
  | array {ms : Members} {ds : List Doc} (hform : form ≠ .enum) (h : Row room ms form.fields ds) :
      Change room form ms (.array ds true)

/-- One change to one record, in the place or anywhere inside. -/
inductive Respelled : (room : Nat) → Place → Doc → Doc → Prop where
  | here {room : Nat} {form : RecordForm} {ms : Members} {d' : Doc} (h : Change room form ms d') :
      Respelled (room + 1) (.record form) (.object ms true) d'
  | member {room : Nat} {form : RecordForm} {field : FieldRule} {before behind : Members} {d d' : Doc}
      (hfield : field ∈ form.fields) (h : Respelled room field.place d d') :
      Respelled (room + 1) (.record form) (.object (before ++ (some field.name, d) :: behind) true)
        (.object (before ++ (some field.name, d') :: behind) true)
  | element {room : Nat} {form : RecordForm} {field : FieldRule} {before behind : List Doc} {d d' : Doc}
      (hfield : form.fields[before.length]? = some field) (h : Respelled room field.place d d') :
      Respelled (room + 1) (.record form) (.array (before ++ d :: behind) true)
        (.array (before ++ d' :: behind) true)
  | item {room : Nat} {place : Place} {before behind : List Doc} {d d' : Doc}
      (h : Respelled room place d d') :
      Respelled (room + 1) (.list place) (.array (before ++ d :: behind) true)
        (.array (before ++ d' :: behind) true)
  | part {room : Nat} {name : String} {place : Place} {d d' : Doc} (hpart : (name, place) ∈ typeParts)
      (h : Respelled room place d d') :
      Respelled (room + 1) .type (.object [(some name, d)] true) (.object [(some name, d')] true)
  | declaration {room : Nat} {form : RecordForm} {kind : String} {d d' : Doc}
      (hkind : form.kind? = some kind) (ha : Announces kind d)
      (h : Respelled room (.record form) d d') : Respelled room .declaration d d'

/-! ## Room -/

/-- What a change in the middle of a list has to answer for. -/
theorem forall_mem_middle {α : Type} {P : α → Prop} {before behind : List α} {a : α} :
    (∀ b ∈ before ++ a :: behind, P b) ↔ P a ∧ ∀ b ∈ before ++ behind, P b := by
  rw [← List.forall_mem_cons]
  exact forall_congr' fun b => imp_congr_left List.perm_middle.mem_iff

/-- What holds of the values of the fields, and of all that finds room, holds of the items. -/
theorem Row.forall {P : Doc → Prop} {room : Nat} {ms : Members} {fields : List FieldRule}
    {ds : List Doc} (h : Row room ms fields ds)
    (hms : ∀ field ∈ fields, ∀ d, (some field.name, d) ∈ ms → P d)
    (hroom : ∀ d : Doc, d.holdable room = true → P d) : ∀ d ∈ ds, P d := by
  induction h with
  | nil => simp
  | written hmem _ ih =>
    obtain ⟨hfield, hfields⟩ := List.forall_mem_cons.mp hms
    exact List.forall_mem_cons.mpr ⟨hfield _ hmem, ih hfields⟩
  | omitted _ _ _ hd _ ih =>
    exact List.forall_mem_cons.mpr ⟨hroom _ hd, ih (List.forall_mem_cons.mp hms).2⟩

theorem holdable_object_iff {room : Nat} {ms : Members} :
    (Doc.object ms true).holdable (room + 1) = true ↔
      ∀ m ∈ ms, m.1.isSome = true ∧ m.2.holdable room = true := by
  simp [Doc.holdable, holdableMembers_iff]

theorem holdable_array_iff {room : Nat} {ds : List Doc} :
    (Doc.array ds true).holdable (room + 1) = true ↔ ∀ d ∈ ds, d.holdable room = true := by
  simp [Doc.holdable, holdableItems_iff]

theorem Change.holdable {room : Nat} {form : RecordForm} {ms : Members} {d' : Doc}
    (h : Change room form ms d') (hms : ∀ m ∈ ms, m.1.isSome = true ∧ m.2.holdable room = true) :
    d'.holdable (room + 1) = true := by
  cases h with
  | permute hp => exact holdable_object_iff.mpr fun m hm => hms m (hp.mem_iff.mpr hm)
  | insert _ hv => exact holdable_object_iff.mpr (forall_mem_middle.mpr ⟨⟨rfl, hv⟩, hms⟩)
  | remove => exact holdable_object_iff.mpr (forall_mem_middle.mp hms).2
  | array _ hrow =>
    apply holdable_array_iff.mpr
    exact hrow.forall (fun _ _ d hd => (hms _ hd).2) fun _ hd => hd

/-- A document that could be held in the room can be held after the change. -/
theorem Respelled.holdable {room : Nat} {place : Place} {d d' : Doc} (h : Respelled room place d d')
    (hd : d.holdable room = true) : d'.holdable room = true := by
  induction h with
  | here h => exact h.holdable (holdable_object_iff.mp hd)
  | member _ _ ih =>
    rw [holdable_object_iff, forall_mem_middle] at hd ⊢
    exact ⟨⟨rfl, ih hd.1.2⟩, hd.2⟩
  | element _ _ ih | item _ ih =>
    rw [holdable_array_iff, forall_mem_middle] at hd ⊢
    exact ⟨ih hd.1, hd.2⟩
  | part _ _ ih =>
    rw [holdable_object_iff] at hd ⊢
    simpa using ih (by simpa using hd)
  | declaration _ _ _ ih => exact ih hd

/-- Only arrays and objects have spellings of their own. -/
theorem Respelled.container {room : Nat} {place : Place} {d d' : Doc} (h : Respelled room place d d') :
    ((∃ ms, d = .object ms true) ∨ ∃ ds, d = .array ds true) ∧
      ((∃ ms, d' = .object ms true) ∨ ∃ ds, d' = .array ds true) := by
  induction h with
  | here h => cases h <;> simp
  | member | element | item | part => simp
  | declaration _ _ _ ih => exact ih

end IdlStencil.Idl
