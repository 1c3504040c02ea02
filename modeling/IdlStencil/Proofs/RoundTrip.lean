import IdlStencil.Interchange.Read
import IdlStencil.Interchange.Write
import IdlStencil.Proofs.ReadsBack

/-!
# Units and their parts survive the way through JSON

Whatever is written is read back as long as it does not nest too deep, and is malformed otherwise
(`written_roundTrips`). Types need no induction of their own: a type is read by a stack of levels,
and one level reads back what is one level deeper than the levels below it (`Ty.readsBack_level`).
A declaration is held before it is read, so what it holds must have room first
(`Declaration.splitKind_stream`).
-/

namespace IdlStencil.Idl

open Json

variable {levels : Nat}

/-! ## Literals and annotations -/

theorem Scalar.readsBack (s : Scalar) : ReadsBack levels Scalar.read s.toJson s :=
  .alone (by cases s <;> rfl)

theorem Literal.readsBack (l : Literal) : ReadsBack levels Literal.read l.toJson l := by
  have h : ReadsBack (levels + 1) Literal.read l.toJson l := by
    cases l with
    | string s => exact .beside rfl (fun _ => rfl) ((ReadsBack.string s).map Literal.string)
    | number s => exact .beside rfl (fun _ => rfl) ((ReadsBack.string s).map Literal.number)
    | ident s => exact .beside rfl (fun _ => rfl) ((ReadsBack.string s).map Literal.ident)
  exact h.mono (Nat.le_succ _)

theorem annotValue_readsBack (value : AnnotValue) :
    ReadsBack levels (Reader.optional Literal.read) (annotValueJson value) value := by
  cases value with
  | none => exact .none
  | some l => exact l.readsBack.some (by cases l <;> simp [Literal.toJson])

theorem annotValues_readsBack (values : List AnnotValue) :
    ReadsBack levels annotValues (annotValuesJson values) values :=
  .list fun value _ => annotValue_readsBack value

private theorem entries_spelled (entries : OrderedMap (List AnnotValue)) :
    Spelled levels (.cons (defaulted "entries" (Reader.map annotValues) .empty) .nil)
      (memberJson "entries" (if entries.isEmpty then none
        else some (.object (entries.entries.map fun (key, vs) => (key, annotValuesJson vs)))))
      (entries, ()) := by
  by_cases h : entries.isEmpty = true
  · have he : OrderedMap.empty = entries := OrderedMap.ext (List.isEmpty_iff.mp h).symm
    rw [if_pos h]
    exact .left (congrArg some he) .nil
  · rw [if_neg h]
    exact .written (.orderedMap entries fun e _ => annotValues_readsBack e.2) .nil

private theorem values_spelled (a : Annot) :
    Spelled levels Annot.slots ([("name", .string a.name), ("line", lineJson a.line)] ++
      memberJson "values" (if a.values.isEmpty then none else some (annotValuesJson a.values)) ++
      memberJson "entries" (if a.entries.isEmpty then none
        else some (.object (a.entries.entries.map fun (key, vs) => (key, annotValuesJson vs)))))
      (a.name, a.line, a.values, a.entries, ()) := by
  refine .written (.string _) (.written (.natural32 _) ?_)
  by_cases h : a.values.isEmpty = true
  · rw [if_pos h]
    exact .left (congrArg some (List.isEmpty_iff.mp h).symm) (entries_spelled _)
  · rw [if_neg h]
    exact .written (annotValues_readsBack a.values) (entries_spelled _)

theorem Annot.readsBack (a : Annot) : ReadsBack levels Annot.read a.toJson a :=
  ((values_spelled a).readsBack (by decide) _).map _

theorem annotList_readsBack (annotations : List Annot) :
    ReadsBack levels annotList (annotationsJson annotations) annotations :=
  .list fun a _ => a.readsBack

/-! ## Types and fields -/

theorem fieldItems_eq_map (fields : List Field) : fieldItems fields = fields.map Field.toJson := by
  induction fields with
  | nil => simp [fieldItems]
  | cons f fs ih => simp [fieldItems, ih]

theorem Ty.toJson_ne_null (t : Ty) : t.toJson ≠ .null := by
  cases t <;> simp [Ty.toJson]

section Level

variable {inner : Reader Ty} (hinner : ∀ t : Ty, ReadsBack levels inner t.toJson t)
include hinner

theorem Field.readsBack_level (f : Field) : ReadsBack levels (Field.readWith inner) f.toJson f := by
  obtain ⟨name, type, value, annot⟩ := f
  have hannot : Spelled levels (.cons (defaulted "annotation" (Reader.optional Annot.read) none) .nil)
      (memberJson "annotation" (annot.map Annot.toJson)) (annot, ()) := by
    cases annot with
    | none => exact .left rfl .nil
    | some a => exact .written (a.readsBack.some (by simp [Annot.toJson])) .nil
  have hvalue : Spelled levels (.cons (defaulted "value" (Reader.optional Literal.read) none) <|
        .cons (defaulted "annotation" (Reader.optional Annot.read) none) .nil)
      (memberJson "value" (value.map Literal.toJson) ++ memberJson "annotation" (annot.map Annot.toJson))
      (value, annot, ()) := by
    cases value with
    | none => exact .left rfl hannot
    | some l => exact .written (l.readsBack.some (by cases l <;> simp [Literal.toJson])) hannot
  have hn : (Field.slots inner).names.Nodup := by simp [Field.slots, Slots.names, required, defaulted]
  cases type with
  | none =>
    have h : Spelled levels (Field.slots inner) (("name", .string name) :: (_ ++ _))
        (name, none, value, annot, ()) := .written (.string name) (.left rfl hvalue)
    rw [Field.toJson, List.append_assoc]
    exact (h.readsBack hn "struct Field").map _
  | some t =>
    have h : Spelled levels (Field.slots inner)
        (("name", .string name) :: ("type", t.toJson) :: (_ ++ _)) (name, some t, value, annot, ()) :=
      .written (.string name) (.written ((hinner t).some t.toJson_ne_null) hvalue)
    rw [Field.toJson, List.append_assoc]
    exact (h.readsBack hn "struct Field").map _

theorem fields_readsBack_level (fields : List Field) :
    ReadsBack levels (Reader.list (Field.readWith inner)) (.array (fieldItems fields)) fields := by
  rw [fieldItems_eq_map]
  exact .list fun f _ => f.readsBack_level hinner

theorem enum_spelled (storage : Ty) (fields : List Field) :
    Spelled levels (enumSlots inner)
      [("storage", storage.toJson), ("fields", .array (fieldItems fields))] (storage, fields, ()) :=
  .written (hinner storage) (.written (fields_readsBack_level hinner fields) .nil)

/-- One level reads back types one level deeper than the levels below it. -/
theorem Ty.readsBack_level (t : Ty) : ReadsBack (levels + 1) (Ty.level inner) t.toJson t := by
  cases t with
  | scalar s => exact .beside rfl (fun _ => rfl) (s.readsBack.map Ty.scalar)
  | vec base => exact .beside rfl (fun _ => rfl) ((hinner base).map Ty.vec)
  | array base dimension =>
    have h : Spelled levels (Ty.arraySlots inner)
        [("base", base.toJson), ("dimension", .string dimension)] (base, dimension, ()) :=
      .written (hinner base) (.written (.string dimension) .nil)
    have hn : (Ty.arraySlots inner).names.Nodup := by simp [Ty.arraySlots, Slots.names, required]
    refine .beside rfl ?_ ((h.readsBack hn "struct variant Type::Array").map
      fun slots => Ty.array slots.1 slots.2.1)
    exact fun source => by cases source <;> rfl
  | enum storage fields =>
    have hn : (enumSlots inner).names.Nodup := by simp [enumSlots, Slots.names, required]
    exact .beside rfl (fun _ => rfl) (((enum_spelled hinner storage fields).readsBack hn _).map
      fun slots => Ty.enum slots.1 slots.2.1)
  | union fields => exact .beside rfl (fun _ => rfl) ((fields_readsBack_level hinner fields).map Ty.union)
  | struct fields =>
    exact .beside rfl (fun _ => rfl) ((fields_readsBack_level hinner fields).map Ty.struct)
  | named name base =>
    have h : Spelled levels (Ty.namedSlots inner)
        [("name", .string name), ("base", base.toJson)] (name, base, ()) :=
      .written (.string name) (.written (hinner base) .nil)
    have hn : (Ty.namedSlots inner).names.Nodup := by simp [Ty.namedSlots, Slots.names, required]
    refine .beside rfl ?_ ((h.readsBack hn "struct variant Type::Named").map
      fun slots => Ty.named slots.1 slots.2.1)
    exact fun source => by cases source <;> rfl
  | ref base => exact .beside rfl (fun _ => rfl) ((hinner base).map Ty.ref)
  | sealed => exact .alone rfl
  | string => exact .alone rfl
  | handle => exact .alone rfl

end Level

theorem Ty.readsBack_readLevels (n : Nat) (t : Ty) :
    ReadsBack (n + 1) (Ty.readLevels n) t.toJson t := by
  induction n generalizing t with
  | zero => exact t.readsBack_level fun _ => ⟨fun _ h => by omega, fun h => by omega⟩
  | succ n ih => exact t.readsBack_level ih

theorem Ty.readsBack (t : Ty) : ReadsBack (depthLimit + 1) Ty.read t.toJson t :=
  t.readsBack_readLevels depthLimit

theorem fieldList_readsBack (fields : List Field) :
    ReadsBack (depthLimit + 1) fieldList (fieldsJson fields) fields :=
  fields_readsBack_level Ty.readsBack fields

/-! ## Declarations -/

theorem Function.spelled (f : Function) :
    Spelled (depthLimit + 1) Function.slots f.members
      (f.name, f.params, f.generates, f.annotations, f.line, ()) :=
  .written (.string _) <| .written (fieldList_readsBack _) <| .written (fieldList_readsBack _) <|
    .written (annotList_readsBack _) <| .written (.natural32 _) .nil

theorem Function.readsBack (f : Function) : ReadsBack (depthLimit + 1) Function.read f.toJson f :=
  (f.spelled.readsBack (by decide) _).map _

/-! ### Only lines are numbers -/

theorem valued_member {name : String} {v : Value} (h : Valued v) :
    Valued (.object [(name, v)]) :=
  .object (by simpa using h)

theorem valued_memberJson {name : String} {v : Option Value} (h : ∀ w ∈ v, Valued w) :
    ∀ m ∈ memberJson name v, Valued m.2 := by
  cases v with
  | none => simp [memberJson]
  | some w => simpa [memberJson] using h

theorem Literal.valued (l : Literal) : Valued l.toJson := by
  cases l <;> exact valued_member (.string _)

theorem annotValues_valued (values : List AnnotValue) : Valued (annotValuesJson values) := by
  refine .array fun v hv => ?_
  obtain ⟨value, -, rfl⟩ := List.mem_map.mp hv
  cases value with
  | none => exact .null
  | some l => exact l.valued

theorem Annot.valued (a : Annot) : Valued a.toJson := by
  refine .object (List.forall_mem_append.mpr ⟨List.forall_mem_append.mpr ⟨?_, ?_⟩, ?_⟩)
  · simp [Valued.string, lineJson, valued_number]
  · refine valued_memberJson fun w hw => ?_
    split at hw
    · cases hw
    · cases hw
      exact annotValues_valued _
  · refine valued_memberJson fun w hw => ?_
    split at hw
    · cases hw
    · cases hw
      refine .object fun m hm => ?_
      obtain ⟨e, -, rfl⟩ := List.mem_map.mp hm
      exact annotValues_valued _

theorem annotations_valued (annotations : List Annot) : Valued (annotationsJson annotations) := by
  refine .array fun v hv => ?_
  obtain ⟨a, -, rfl⟩ := List.mem_map.mp hv
  exact a.valued

private theorem optionals_valued (value : Option Literal) (annot : Option Annot) :
    ∀ m ∈ memberJson "value" (value.map Literal.toJson) ++
      memberJson "annotation" (annot.map Annot.toJson), Valued m.2 := by
  refine List.forall_mem_append.mpr ⟨valued_memberJson fun w hw => ?_, valued_memberJson fun w hw => ?_⟩
  · obtain ⟨l, -, rfl⟩ := Option.map_eq_some_iff.mp hw
    exact l.valued
  · obtain ⟨a, -, rfl⟩ := Option.map_eq_some_iff.mp hw
    exact a.valued

mutual

theorem Ty.valued : ∀ t : Ty, Valued t.toJson
  | .scalar _ => valued_member (.string _)
  | .vec base | .ref base => valued_member base.valued
  | .array base _ => valued_member (.object (by simp [base.valued, Valued.string]))
  | .enum storage fields =>
    valued_member (.object (by simp [storage.valued, Valued.array (fieldItems_valued fields)]))
  | .union fields | .struct fields => valued_member (.array (fieldItems_valued fields))
  | .named _ base => valued_member (.object (by simp [base.valued, Valued.string]))
  | .sealed | .string | .handle => .string _

theorem fieldItems_valued : ∀ fields : List Field, ∀ v ∈ fieldItems fields, Valued v
  | [] => by simp [fieldItems]
  | f :: fs => by
    rw [fieldItems]
    exact List.forall_mem_cons.mpr ⟨f.valued, fieldItems_valued fs⟩

theorem Field.valued : ∀ f : Field, Valued f.toJson
  | ⟨name, none, value, annot⟩ => by
    rw [Field.toJson, List.append_assoc]
    exact .object (by simpa [Valued.string] using optionals_valued value annot)
  | ⟨name, some t, value, annot⟩ => by
    rw [Field.toJson, List.append_assoc]
    exact .object (by simpa [Valued.string, t.valued] using optionals_valued value annot)

end

theorem fields_valued (fields : List Field) : Valued (fieldsJson fields) :=
  .array (fieldItems_valued fields)

theorem Declaration.members_valued (d : Declaration) : ∀ m ∈ d.members, Valued m.2 := by
  cases d with
  | const name value => simp [Declaration.members, Valued.string, value.valued]
  | typedef name base => simp [Declaration.members, Valued.string, base.valued]
  | struct name fields | union name fields =>
    simp [Declaration.members, Valued.string, fields_valued]
  | enum name storage fields =>
    simp [Declaration.members, Valued.string, storage.valued, fields_valued]
  | imported name => simp [Declaration.members, Valued.string]
  | function f =>
    simp [Declaration.members, Function.members, Valued.string, fields_valued, annotations_valued,
      lineJson, valued_number]

/-! ### Holding and reading a declaration -/

namespace Declaration

theorem key_ne_kind (d : Declaration) : ∀ m ∈ d.members, m.1 ≠ "kind" := by
  cases d <;> simp [members, Function.members]

theorem splitKind_cons {source : Source} {key : String} {d : Doc}
    {ds : List (Option String × Doc)} {kind : Option (Reader Declaration)} (hk : key ≠ "kind") :
    splitKind source ((some key, d) :: ds) kind =
      source.hold d >>= fun _ => (splitKind source ds kind).map fun r => (r.1, (some key, d) :: r.2) := by
  rw [splitKind]
  · cases source.hold d with
    | error => rfl
    | ok => cases splitKind source ds kind <;> rfl
  · simp
  · simpa using hk

theorem splitKind_stream {room : Nat} {ms : List (String × Value)}
    {kind : Option (Reader Declaration)} (hk : ∀ m ∈ ms, m.1 ≠ "kind")
    (hv : ∀ m ∈ ms, Valued m.2) :
    splitKind (.stream room) (memberDocs ms) kind =
      within room (membersDepth ms) (kind, memberDocs ms) := by
  induction ms with
  | nil => simp [memberDocs, membersDepth, splitKind]
  | cons m ms ih =>
    obtain ⟨hkm, hk⟩ := List.forall_mem_cons.mp hk
    obtain ⟨hvm, hv⟩ := List.forall_mem_cons.mp hv
    rw [memberDocs, splitKind_cons hkm, hold_doc hvm, membersDepth, ih hk hv]
    exact within_bind (map_within _)

theorem splitKind_held {ms : List (String × Value)} {kind : Option (Reader Declaration)}
    (hk : ∀ m ∈ ms, m.1 ≠ "kind") :
    splitKind .held (memberDocs ms) kind = .ok (kind, memberDocs ms) := by
  induction ms with
  | nil => rfl
  | cons m ms ih =>
    obtain ⟨hkm, hk⟩ := List.forall_mem_cons.mp hk
    rw [memberDocs, splitKind_cons hkm, ih hk]
    rfl

theorem splitName_held {ms : List (String × Value)} {name : String}
    (hn : ∀ m ∈ ms, m.1 ≠ "name") :
    splitName .held (memberDocs ms) (some name) = .ok (some name, memberDocs ms) := by
  induction ms with
  | nil => rfl
  | cons m ms ih =>
    obtain ⟨hnm, hn⟩ := List.forall_mem_cons.mp hn
    rw [memberDocs, splitName, ih hn]
    · rfl
    · simpa using hnm

theorem readEnum_held (name : String) (storage : Ty) (fields : List Field)
    (hd : membersDepth (Declaration.enum name storage fields).members < depthLimit) :
    readEnum .held (Value.object (Declaration.enum name storage fields).members).doc =
      .ok (.enum name storage fields) := by
  obtain ⟨partly, hfinish, -, hheld⟩ := (enum_spelled Ty.readsBack storage fields).members
    (by simp [enumSlots, Slots.names, required])
  have hsplit : splitName .held (memberDocs (Declaration.enum name storage fields).members) none =
      .ok (some name, memberDocs [("storage", storage.toJson), ("fields", fieldsJson fields)]) := by
    rw [members, memberDocs, splitName]
    exact splitName_held (by simp)
  have hmembers := hheld (by
    rw [members, membersDepth] at hd
    exact Nat.lt_succ_of_lt (Nat.lt_of_le_of_lt (Nat.le_max_right _ _) hd))
  simp only [readEnum, Value.doc, hsplit, ok_bind]
  rw [fieldsJson, hmembers, ok_bind, hfinish]
  rfl

/-- A body that is a record is read from what was held. -/
theorem record_held {αs : List Type} {slots : Slots αs} {ms : List (String × Value)} {t : Tuple αs}
    (h : Spelled (depthLimit + 1) slots ms t) (hn : slots.names.Nodup) (label : String)
    (make : Tuple αs → Declaration) (hd : membersDepth ms < depthLimit) :
    (Reader.record label slots .held (Value.object ms).doc).map make = .ok (make t) :=
  ((h.readsBack hn label).map make).held (Nat.succ_lt_succ hd)

theorem fields_spelled (name : String) (fields : List Field) :
    Spelled (depthLimit + 1) fieldsSlots
      [("name", .string name), ("fields", fieldsJson fields)] (name, fields, ()) :=
  .written (.string name) (.written (fieldList_readsBack fields) .nil)

/-- The kind of a declaration announces a body that reads back the other members. -/
theorem exists_body (d : Declaration) : ∃ body, alternatives.lookup d.kind = some body ∧
    (membersDepth d.members < depthLimit → body .held (Value.object d.members).doc = .ok d) := by
  cases d with
  | const name value =>
    have h : Spelled (depthLimit + 1) constSlots
        [("name", .string name), ("value", value.toJson)] (name, value, ()) :=
      .written (.string name) (.written value.readsBack .nil)
    exact ⟨_, rfl, record_held h (by decide) _ _⟩
  | typedef name base =>
    have h : Spelled (depthLimit + 1) typedefSlots
        [("name", .string name), ("base", base.toJson)] (name, base, ()) :=
      .written (.string name) (.written base.readsBack .nil)
    exact ⟨_, rfl, record_held h (by decide) _ _⟩
  | struct name fields => exact ⟨_, rfl, record_held (fields_spelled name fields) (by decide) _ _⟩
  | enum name storage fields => exact ⟨_, rfl, readEnum_held name storage fields⟩
  | union name fields => exact ⟨_, rfl, record_held (fields_spelled name fields) (by decide) _ _⟩
  | imported name =>
    have h : Spelled (depthLimit + 1) nameSlots [("name", .string name)] (name, ()) :=
      .written (.string name) .nil
    exact ⟨_, rfl, record_held h (by decide) _ _⟩
  | function f =>
    have h := f.readsBack.map Declaration.function
    exact ⟨_, rfl, fun hd => h.held (Nat.succ_lt_succ hd)⟩

theorem readKind_kind {d : Declaration} {body : Reader Declaration}
    (h : alternatives.lookup d.kind = some body) (source : Source) :
    readKind source (Value.string d.kind).doc = .ok body := by
  simp [readKind, Value.doc, Reader.text, h, pure, Except.pure]

theorem readsBack (d : Declaration) : ReadsBack (depthLimit + 1) Declaration.read d.toJson d := by
  obtain ⟨body, hbody, hheld⟩ := d.exists_body
  have hsplit : ∀ source, splitKind source (memberDocs (("kind", .string d.kind) :: d.members)) none =
      splitKind source (memberDocs d.members) (some body) := by
    intro source
    rw [memberDocs, splitKind, readKind_kind hbody]
    rfl
  have hdepth : d.toJson.depth = membersDepth d.members + 1 := by
    simp [toJson, Value.depth, membersDepth]
  refine ⟨fun room hr => ?_, fun hd => ?_⟩
  · rw [hdepth]
    refine enter_bind fun r hlt => ?_
    rw [hsplit, splitKind_stream d.key_ne_kind d.members_valued]
    exact within_bind_ok fun hle => hheld (by omega)
  · have hmembers := hheld (by omega)
    simp only [toJson, Value.doc, read, Source.enter, ok_bind, hsplit, splitKind_held d.key_ne_kind]
    exact hmembers

end Declaration

/-! ## Units -/

namespace Version

theorem digits?_toDigits (n : UInt32) : digits? (Nat.toDigits 10 n.toNat) = some n := by
  have hall : (Nat.toDigits 10 n.toNat).all Char.isDigit = true :=
    List.all_eq_true.mpr fun c => isDigit_of_mem_digits
  have hne : (Nat.toDigits 10 n.toNat).isEmpty = false := by simp [Nat.toDigits_ne_nil]
  have hlt : n.toNat < UInt32.size := n.toNat_lt
  simp only [digits?, hall, hne, foldl_toDigits, hlt, if_true]
  simp

theorem part?_toDigits (n : UInt32) : part? (Nat.toDigits 10 n.toNat) = some n := by
  rw [part?, digits?_toDigits]
  intro cs he
  have := isDigit_of_mem_digits (he ▸ List.mem_cons_self)
  simp at this

theorem splitDot?_append {a : List Char} (ha : ∀ c ∈ a, c ≠ '.') (b : List Char) :
    splitDot? (a ++ '.' :: b) = some (a, b) := by
  induction a with
  | nil => rfl
  | cons c cs ih =>
    obtain ⟨hc, hcs⟩ := List.forall_mem_cons.mp ha
    rw [List.cons_append, splitDot?, if_neg hc, ih hcs]
    rfl

theorem parse_text (v : Version) : parse v.text = .ok v := by
  have htext : v.text.toList =
      Nat.toDigits 10 v.major.toNat ++ '.' :: Nat.toDigits 10 v.minor.toNat := by
    simp [text, majorText, minorText]
  have hsplit := splitDot?_append (a := Nat.toDigits 10 v.major.toNat) (by
    rintro c hc rfl
    have := isDigit_of_mem_digits hc
    simp at this) (Nat.toDigits 10 v.minor.toNat)
  simp only [parse, htext, hsplit, part?_toDigits]

theorem readsBack {levels : Nat} (v : Version) :
    ReadsBack levels Version.read (.string v.text) v := by
  have heq : ∀ source, Version.read source (Value.string v.text).doc = .ok v := by
    intro source
    simp [Version.read, Value.doc, Reader.string, Reader.text, parse_text, pure, Except.pure]
  exact ⟨fun room _ => by simp [heq, Value.depth], fun _ => heq _⟩

end Version

theorem Interface.readsBack {levels : Nat} (i : Interface) :
    ReadsBack levels Interface.read i.toJson i := by
  have h : Spelled levels Interface.slots
      [("name", .string i.name), ("annotations", annotationsJson i.annotations),
        ("line", lineJson i.line)] (i.name, i.annotations, i.line, ()) :=
    .written (.string _) (.written (annotList_readsBack _) (.written (.natural32 _) .nil))
  exact (h.readsBack (by decide) _).map _

theorem strings_readsBack {levels : Nat} (ss : List String) :
    ReadsBack levels (Reader.list Reader.string) (stringsJson ss) ss :=
  .list fun s _ => .string s

theorem PackageUnit.spelled (u : PackageUnit) {v : Value} {interface : Option Interface}
    (hv : ReadsBack (depthLimit + 1) (Reader.optional Interface.read) v interface) :
    Spelled (depthLimit + 1) PackageUnit.slots
      [("package", .string u.package), ("version", .string u.version.text),
        ("namespace", stringsJson u.namespacePath), ("imports", .array (u.imports.map stringsJson)),
        ("interface", v), ("declarations", .array (u.declarations.map Declaration.toJson)),
        ("vars", fieldsJson u.vars)]
      (u.package, u.version, u.namespacePath, u.imports, interface, u.declarations, u.vars, ()) :=
  .written (.string _) <| .written u.version.readsBack <| .written (strings_readsBack _) <|
    .written (.list fun ss _ => strings_readsBack ss) <| .written hv <|
    .written (.list fun d _ => d.readsBack) <| .written (fieldList_readsBack _) .nil

theorem PackageUnit.readsBack (u : PackageUnit) :
    ReadsBack (depthLimit + 1) PackageUnit.read u.toJson u := by
  have hnames : PackageUnit.slots.names.Nodup := by decide
  obtain ⟨package, version, namespacePath, imports, interface, declarations, vars⟩ := u
  cases interface with
  | none => exact ((spelled _ .none).readsBack hnames _).map _
  | some i =>
    have hi : i.toJson ≠ .null := by simp [Interface.toJson]
    exact ((spelled _ (i.readsBack.some hi)).readsBack hnames _).map _

/-! ## Whole texts -/

/-- Reading undoes writing: the compact text is read as what it was written for when it nests at
most as deep as the limit, and is malformed when it nests deeper. -/
def RoundTrips {α : Type} (read : Reader α) (write : α → Value) : Prop :=
  ∀ a, (Document.ofText (write a).compact).decode read =
    if (write a).depth ≤ 127 then .ok a else .error .malformed

theorem roundTrips_of_readsBack {α : Type} {read : Reader α} {write : α → Value}
    (h : ∀ a, ReadsBack (depthLimit + 1) read (write a) a) : RoundTrips read write := by
  intro a
  rw [Document.ofText_compact, Document.decode, (h a).stream depthLimit (Nat.lt_succ_self _)]
  exact within_bind_ok fun _ => rfl

theorem written_roundTrips :
    RoundTrips PackageUnit.read PackageUnit.toJson ∧
    RoundTrips Declaration.read Declaration.toJson ∧
    RoundTrips Function.read Function.toJson ∧
    RoundTrips Ty.read Ty.toJson ∧
    RoundTrips fieldList fieldsJson ∧
    RoundTrips annotList annotationsJson ∧
    RoundTrips Annot.read Annot.toJson ∧
    RoundTrips Literal.read Literal.toJson :=
  ⟨roundTrips_of_readsBack PackageUnit.readsBack, roundTrips_of_readsBack Declaration.readsBack,
    roundTrips_of_readsBack Function.readsBack, roundTrips_of_readsBack Ty.readsBack,
    roundTrips_of_readsBack fieldList_readsBack, roundTrips_of_readsBack annotList_readsBack,
    roundTrips_of_readsBack Annot.readsBack, roundTrips_of_readsBack Literal.readsBack⟩

end IdlStencil.Idl
