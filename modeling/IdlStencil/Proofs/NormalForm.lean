import IdlStencil.Proofs.DepthBounds
import IdlStencil.Proofs.RoundTrip

/-!
# The normal form of accepted texts

A unit or a part of one can be spelled in many ways: records as arrays, defaults left out or written,
unknown members, bare variants as objects. Whatever spelling was read, the written form of what was
read nests no deeper than is allowed, so that it is read as the same (`accepted_normalizes`). Types,
fields and annotations are written within the room they were read in; only declarations, interfaces
and units may need more, for lists that were left out, and these stand near the top.
-/

namespace IdlStencil.Idl

open Json

/-! ## Members -/

theorem membersDepth_append (ms ns : List (String × Value)) :
    membersDepth (ms ++ ns) = max (membersDepth ms) (membersDepth ns) := by
  induction ms with
  | nil => simp [membersDepth]
  | cons m ms ih => simp [membersDepth, ih, Nat.max_assoc]

theorem membersDepth_memberJson (name : String) (v : Option Value) :
    membersDepth (memberJson name v) = (v.map Value.depth).getD 0 := by
  cases v <;> simp [memberJson, membersDepth]

/-- A member that is left out on a condition. -/
theorem membersDepth_unless (name : String) (c : Bool) (v : Value) :
    membersDepth (memberJson name (if c then none else some v)) = if c then 0 else v.depth := by
  cases c <;> simp [membersDepth_memberJson]

theorem depth_string (s : String) : (Value.string s).depth = 0 := by simp [Value.depth]

theorem depth_lineJson (line : UInt32) : (lineJson line).depth = 0 := by simp [lineJson, Value.depth]

/-- A list that is left out is written as an empty one. -/
theorem depth_array_nil : (Value.array []).depth = 1 := by simp [Value.depth, itemsDepth]

/-! ## Literals and annotations -/

theorem Literal.depth_toJson (l : Literal) : l.toJson.depth = 1 := by
  cases l <;> simp [Literal.toJson, Value.depth, membersDepth]

theorem Literal.fits : Fits 0 Literal.read fun l => l.toJson.depth := by
  have hcarry (make : String → Literal) :
      Fits 0 (fun source d => (Reader.string source d).map make) fun l => l.toJson.depth - 1 :=
    .of_le fun l => by simp [l.depth_toJson]
  refine .variant ?_
  simp only [List.forall_mem_cons]
  exact ⟨hcarry _, hcarry _, hcarry _, by simp⟩

theorem annotValues_fits : Fits 0 annotValues fun values => (annotValuesJson values).depth :=
  .list (.optional Literal.fits (by simp [annotValueJson, Value.depth]))

/-- The values as a member, which an annotation without values does not have. -/
def valuesDepth (values : List AnnotValue) : Nat :=
  if values.isEmpty then 0 else (annotValuesJson values).depth

/-- The entries as a member, which an annotation without entries does not have. -/
def entriesDepth (entries : OrderedMap (List AnnotValue)) : Nat :=
  if entries.isEmpty then 0
  else (Value.object (entries.entries.map fun e => (e.1, annotValuesJson e.2))).depth

theorem Annot.fits : Fits 0 Annot.read fun a => a.toJson.depth := by
  have hvalues : Fits 0 annotValues valuesDepth :=
    annotValues_fits.anti fun values => by
      unfold valuesDepth
      split <;> omega
  have hentries : Fits 0 (Reader.map annotValues) entriesDepth :=
    Fits.anti (.orderedMap annotValues_fits) fun entries => by
      unfold entriesDepth
      split <;> omega
  have hslots : Annot.slots.Fit 0 (fun _ => 0, fun _ => 0, valuesDepth, entriesDepth, ()) :=
    .unmeasured <| .unmeasured <| .defaulted hvalues (Nat.le_refl 0) <|
    .defaulted hentries (Nat.le_refl 0) .nil
  refine hslots.record _ ?_
  rintro ⟨name, line, values, entries, ⟨⟩⟩
  simp only [Annot.toJson, Value.depth, membersDepth_append, membersDepth_unless, membersDepth,
    depth_lineJson, Depths.tuple, valuesDepth, entriesDepth]
  omega

theorem annotList_fits : Fits 0 annotList fun annotations => (annotationsJson annotations).depth :=
  .list Annot.fits

/-! ## Types and fields -/

section Level

variable {inner : Reader Ty} (hinner : Fits 0 inner fun t => t.toJson.depth)
include hinner

theorem Field.fits_level : Fits 0 (Field.readWith inner) fun f => f.toJson.depth := by
  have hoptional {α : Type} {read : Reader α} {write : α → Value}
      (h : Fits 0 read fun a => (write a).depth) :
      Fits 0 (Reader.optional read) fun a => (a.map fun a => (write a).depth).getD 0 :=
    .optional h (Nat.le_refl 0)
  have hslots : (Field.slots inner).Fit 0 (fun _ => 0, fun t => (t.map fun t => t.toJson.depth).getD 0,
      fun l => (l.map fun l => l.toJson.depth).getD 0,
      fun a => (a.map fun a => a.toJson.depth).getD 0, ()) :=
    .unmeasured <| .defaulted (hoptional hinner) (Nat.le_refl 0) <|
    .defaulted (hoptional Literal.fits) (Nat.le_refl 0) <|
    .defaulted (hoptional Annot.fits) (Nat.le_refl 0) .nil
  refine hslots.record _ ?_
  rintro ⟨name, type, value, annot, ⟨⟩⟩
  cases type <;> simp [Field.toJson, Value.depth, membersDepth_append, membersDepth_memberJson,
    membersDepth, Depths.tuple, Function.comp_def]

theorem fields_fits_level :
    Fits 0 (Reader.list (Field.readWith inner)) fun fields => (Value.array (fieldItems fields)).depth := by
  simp only [fieldItems_eq_map]
  exact .list (Field.fits_level hinner)

theorem enum_fit : (enumSlots inner).Fit 0 (fun storage => storage.toJson.depth,
    fun fields => (Value.array (fieldItems fields)).depth, ()) :=
  .required hinner <| .required (fields_fits_level hinner) .nil

/-- One level is written in the room that the levels below it leave. -/
theorem Ty.fits_level : Fits 0 (Ty.level inner) fun t => t.toJson.depth := by
  have hfields := fields_fits_level hinner
  have harray : (Ty.arraySlots inner).Fit 0 (fun base => base.toJson.depth, fun _ => 0, ()) :=
    .required hinner <| .unmeasured .nil
  have hnamed : (Ty.namedSlots inner).Fit 0 (fun _ => 0, fun base => base.toJson.depth, ()) :=
    .unmeasured <| .required hinner .nil
  have hcarry {α : Type} {read : Reader α} {depth : α → Nat} (make : α → Ty) (h : Fits 0 read depth)
      (hmake : ∀ a, (make a).toJson.depth ≤ depth a + 1) :
      Fits 0 (fun source d => (read source d).map make) fun t => t.toJson.depth - 1 :=
    .map (h.anti fun a => Nat.sub_le_of_le_add (hmake a))
  refine .variant ?_
  simp only [Ty.alternatives, List.forall_mem_cons]
  refine ⟨?scalar, ?vec, ?array, ?enum, ?union, ?struct, ?named, ?ref, ?sealed, ?string, ?handle, by simp⟩
  case scalar =>
    refine hcarry _ (.of_le fun _ => Nat.le_refl 0) fun s => ?_
    simp [Ty.toJson, Scalar.toJson, Value.depth, membersDepth]
  case vec | ref =>
    refine hcarry _ hinner fun base => ?_
    simp [Ty.toJson, Value.depth, membersDepth]
  case array =>
    refine harray.record _ fun t => ?_
    simp [Ty.toJson, Value.depth, membersDepth, Depths.tuple]
  case enum =>
    refine (enum_fit hinner).record _ fun t => ?_
    simp [Ty.toJson, Value.depth, membersDepth, Depths.tuple]
  case union | struct =>
    refine hcarry _ hfields fun fields => ?_
    simp [Ty.toJson, Value.depth, membersDepth]
  case named =>
    refine hnamed.record _ fun t => ?_
    simp [Ty.toJson, Value.depth, membersDepth, Depths.tuple]
  case sealed | string | handle => exact Nat.le_refl 0

end Level

theorem Ty.fits_readLevels (n : Nat) : Fits 0 (Ty.readLevels n) fun t => t.toJson.depth := by
  induction n with
  | zero => exact Ty.fits_level ⟨fun _ hr => by cases hr⟩
  | succ n ih => exact Ty.fits_level ih

theorem Ty.fits : Fits 0 Ty.read fun t => t.toJson.depth := Ty.fits_readLevels depthLimit

theorem fieldList_fits : Fits 0 fieldList fun fields => (fieldsJson fields).depth :=
  fields_fits_level Ty.fits

/-! ## Declarations -/

theorem Function.fits : Fits 2 Function.read fun f => f.toJson.depth := by
  have hfields : Fits 1 fieldList fun fields => (fieldsJson fields).depth :=
    fieldList_fits.mono (Nat.zero_le 1)
  have hannotations : Fits 1 annotList fun annotations => (annotationsJson annotations).depth :=
    annotList_fits.mono (Nat.zero_le 1)
  have hslots : Function.slots.Fit 1 (fun _ => 0, fun fields => (fieldsJson fields).depth,
      fun fields => (fieldsJson fields).depth,
      fun annotations => (annotationsJson annotations).depth, fun _ => 0, ()) :=
    .unmeasured <| .defaulted hfields (Nat.le_of_eq depth_array_nil) <|
    .defaulted hfields (Nat.le_of_eq depth_array_nil) <|
    .defaulted hannotations (Nat.le_of_eq depth_array_nil) <| .unmeasured .nil
  refine hslots.record _ fun t => ?_
  simp [Function.toJson, Function.members, Value.depth, membersDepth, Depths.tuple, depth_lineJson]

namespace Declaration

theorem depth_toJson (d : Declaration) : d.toJson.depth = membersDepth d.members + 1 := by
  simp [toJson, Value.depth, membersDepth]

theorem fieldsSlots_fit : fieldsSlots.Fit 1 (fun _ => 0, fun fields => (fieldsJson fields).depth, ()) :=
  .unmeasured <| .defaulted (fieldList_fits.mono (Nat.zero_le 1)) (Nat.le_of_eq depth_array_nil) .nil

theorem mem_of_splitName {source : Source} {ds others : List (Option String × Doc)}
    {name name' : Option String} (h : splitName source ds name = .ok (name', others)) :
    ∀ m ∈ others, m ∈ ds := by
  fun_induction splitName source ds name generalizing name' others with
  | case1 name =>
    cases h
    simp
  | case2 => cases h
  | case3 d ds ih =>
    obtain ⟨s, -, h⟩ := bind_eq_ok.mp h
    exact fun m hm => List.mem_cons_of_mem _ (ih s h m hm)
  | case4 member ds name _ ih =>
    obtain ⟨⟨name'', others'⟩, hs, h⟩ := bind_eq_ok.mp h
    cases h
    intro m hm
    rcases List.mem_cons.mp hm with rfl | hm
    · exact List.mem_cons_self
    · exact List.mem_cons_of_mem _ (ih hs m hm)

/-- What a body takes from what was held is written in the room in which it was held. -/
def BodyFits (body : Reader Declaration) : Prop :=
  ∀ (room : Nat) (d : Doc) (a : Declaration), d.holdable room = true → body .held d = .ok a →
    a.toJson.depth ≤ max room 2

theorem readEnum_fits : BodyFits readEnum := by
  intro room d a hd hr
  have ho : Source.held.Offers room d := .held hd
  unfold readEnum at hr
  split at hr
  · obtain ⟨⟨name, others⟩, hsplit, hr⟩ := bind_eq_ok.mp hr
    cases name with
    | none => cases hr
    | some name =>
      obtain ⟨partly, hmembers, hr⟩ := bind_eq_ok.mp hr
      obtain ⟨⟨storage, fields, ⟨⟩⟩, hfinish, hr⟩ := bind_eq_ok.mp hr
      cases hr
      obtain ⟨r, rfl, hinner⟩ := ho.object (rfl : Source.held.enter = .ok .held)
      have hfit := enum_fit Ty.fits
      have hpartly := hfit.members (fun m hm => hinner m (mem_of_splitName hsplit m hm))
        (by simp [Slots.Fit.partly_start]) hmembers
      have hle := hfit.finish (Nat.le_max_right r 0) hpartly hfinish
      simp only [Depths.tuple] at hle
      simp only [depth_toJson, members, membersDepth, depth_string, fieldsJson]
      omega
  · exact absurd hr refuse_ne_ok

theorem body_fits : ∀ p ∈ alternatives, BodyFits p.2 := by
  have hbody {read : Reader Declaration} (h : Fits 2 read fun a => a.toJson.depth) : BodyFits read :=
    fun _ _ _ hd hr => h.depth_le (.held hd) hr
  simp only [alternatives, List.forall_mem_cons]
  refine ⟨hbody ?const, hbody ?typedef, hbody ?struct, readEnum_fits, hbody ?union, hbody ?imported,
    hbody ?function, by simp⟩
  case const =>
    have hslots : constSlots.Fit 1 (fun _ => 0, fun value => value.toJson.depth, ()) :=
      .unmeasured <| .required (Literal.fits.mono (Nat.zero_le 1)) .nil
    refine hslots.record _ fun t => ?_
    simp [depth_toJson, members, membersDepth, Depths.tuple, depth_string]
  case typedef =>
    have hslots : typedefSlots.Fit 1 (fun _ => 0, fun base => base.toJson.depth, ()) :=
      .unmeasured <| .required (Ty.fits.mono (Nat.zero_le 1)) .nil
    refine hslots.record _ fun t => ?_
    simp [depth_toJson, members, membersDepth, Depths.tuple, depth_string]
  case struct | union =>
    refine fieldsSlots_fit.record _ fun t => ?_
    simp [depth_toJson, members, membersDepth, Depths.tuple, depth_string]
  case imported =>
    have hslots : nameSlots.Fit 1 (fun _ => 0, ()) := .unmeasured .nil
    refine hslots.record _ fun t => ?_
    simp [depth_toJson, members, membersDepth, Depths.tuple, depth_string]
  case function =>
    refine .map (Function.fits.anti fun f => ?_)
    simp [depth_toJson, members, Function.toJson, Value.depth]

theorem readKind_mem {source : Source} {d : Doc} {body : Reader Declaration}
    (h : readKind source d = .ok body) : ∃ p ∈ alternatives, p.2 = body := by
  obtain ⟨name, -, h⟩ := bind_eq_ok.mp h
  split at h
  · next hlookup =>
    cases h
    exact ⟨_, mem_of_lookup_eq_some hlookup, rfl⟩
  · cases h

/-- The kind announces a body, and the other members were held. -/
theorem splitKind_fits {room : Nat} {source : Source} {ds others : List (Option String × Doc)}
    {kind kind' : Option (Reader Declaration)} (ho : ∀ m ∈ ds, source.Offers room m.2)
    (hkind : ∀ body ∈ kind, BodyFits body) (h : splitKind source ds kind = .ok (kind', others)) :
    (∀ body ∈ kind', BodyFits body) ∧
      ∀ m ∈ others, m.1.isSome = true ∧ m.2.holdable room = true := by
  fun_induction splitKind source ds kind generalizing kind' others with
  | case1 kind =>
    cases h
    exact ⟨hkind, by simp⟩
  | case2 => cases h
  | case3 => cases h
  | case4 d ds ih =>
    obtain ⟨body, hbody, h⟩ := bind_eq_ok.mp h
    obtain ⟨p, hp, rfl⟩ := readKind_mem hbody
    refine ih _ (List.forall_mem_cons.mp ho).2 ?_ h
    rintro _ ⟨⟩
    exact body_fits p hp
  | case5 key d ds kind hnone _ ih =>
    obtain ⟨hd, hds⟩ := List.forall_mem_cons.mp ho
    obtain ⟨⟨⟩, hhold, h⟩ := bind_eq_ok.mp h
    obtain ⟨⟨kind'', others'⟩, hsplit, h⟩ := bind_eq_ok.mp h
    cases h
    obtain ⟨hbodies, hothers⟩ := ih hds hkind hsplit
    have hkey : key.isSome = true := Option.isSome_iff_ne_none.mpr hnone
    exact ⟨hbodies, List.forall_mem_cons.mpr ⟨⟨hkey, hd.holdable hhold⟩, hothers⟩⟩

theorem holdItems_fits {room : Nat} {source : Source} {ds : List Doc}
    (ho : ∀ d ∈ ds, source.Offers room d) (h : holdItems source ds = .ok ()) :
    ∀ d ∈ ds, d.holdable room = true := by
  induction ds with
  | nil => simp
  | cons d ds ih =>
    obtain ⟨hd, hds⟩ := List.forall_mem_cons.mp ho
    obtain ⟨⟨⟩, hhold, h⟩ := bind_eq_ok.mp h
    exact List.forall_mem_cons.mpr ⟨hd.holdable hhold, ih hds h⟩

theorem fits : Fits 2 Declaration.read fun d => d.toJson.depth := by
  refine ⟨fun {room _ _ a} ho hr => ?_⟩
  unfold Declaration.read at hr
  split at hr
  · obtain ⟨inner, he, hr⟩ := bind_eq_ok.mp hr
    obtain ⟨⟨kind, others⟩, hsplit, hr⟩ := bind_eq_ok.mp hr
    obtain ⟨_, -, hr⟩ := bind_eq_ok.mp hr
    obtain ⟨r, rfl, hinner⟩ := ho.object he
    obtain ⟨hbody, hothers⟩ := splitKind_fits hinner (by simp) hsplit
    cases kind with
    | none => cases hr
    | some body =>
      refine hbody body rfl (r + 1) _ a ?_ hr
      simpa [Doc.holdable, holdableMembers_iff] using hothers
  · obtain ⟨inner, he, hr⟩ := bind_eq_ok.mp hr
    obtain ⟨r, rfl, hinner⟩ := ho.array he
    split at hr
    · obtain ⟨_, -, hr⟩ := bind_eq_ok.mp hr
      cases hr
    · obtain ⟨body, hkind, hr⟩ := bind_eq_ok.mp hr
      obtain ⟨⟨⟩, hhold, hr⟩ := bind_eq_ok.mp hr
      obtain ⟨_, -, hr⟩ := bind_eq_ok.mp hr
      obtain ⟨p, hp, rfl⟩ := readKind_mem hkind
      refine body_fits p hp (r + 1) _ a ?_ hr
      simpa [Doc.holdable, holdableItems_iff] using
        holdItems_fits (List.forall_mem_cons.mp hinner).2 hhold
  · exact absurd hr refuse_ne_ok

end Declaration

/-! ## Units -/

theorem Interface.fits : Fits 2 Interface.read fun i => i.toJson.depth := by
  have hslots : Interface.slots.Fit 1 (fun _ => 0,
      fun annotations => (annotationsJson annotations).depth, fun _ => 0, ()) :=
    .unmeasured <|
    .defaulted (annotList_fits.mono (Nat.zero_le 1)) (Nat.le_of_eq depth_array_nil) <|
    .unmeasured .nil
  refine hslots.record _ fun t => ?_
  simp [Interface.toJson, Value.depth, membersDepth, Depths.tuple, depth_lineJson]

theorem strings_fits : Fits 0 (Reader.list Reader.string) fun ss => (stringsJson ss).depth :=
  .list (.of_le fun _ => by simp [depth_string])

/-- The written form of the interface of a unit. -/
def interfaceDepth (interface : Option Interface) : Nat := (interface.map fun i => i.toJson.depth).getD 0

theorem PackageUnit.fits : Fits 4 PackageUnit.read fun u => u.toJson.depth := by
  have hempty : (Value.array []).depth ≤ 3 := by simp [depth_array_nil]
  have hslots : PackageUnit.slots.Fit 3 (fun _ => 0, fun _ => 0, fun ss => (stringsJson ss).depth,
      fun imports => (Value.array (imports.map stringsJson)).depth, interfaceDepth,
      fun ds => (Value.array (ds.map Declaration.toJson)).depth,
      fun fields => (fieldsJson fields).depth, ()) :=
    .unmeasured <| .unmeasured <|
    .defaulted (strings_fits.mono (Nat.zero_le 3)) hempty <|
    .defaulted (.mono (.list strings_fits) (Nat.zero_le 3)) hempty <|
    .defaulted (.optional (Interface.fits.mono (by decide)) (Nat.zero_le 3)) (Nat.zero_le 3) <|
    .defaulted (.list Declaration.fits) hempty <|
    .defaulted (fieldList_fits.mono (Nat.zero_le 3)) hempty .nil
  refine hslots.record _ ?_
  rintro ⟨package, version, namespacePath, imports, interface, declarations, vars, ⟨⟩⟩
  cases interface <;>
    simp [PackageUnit.toJson, Value.depth, membersDepth, Depths.tuple, interfaceDepth]

/-! ## Whole texts -/

/-- The normal form of a text: what is read from it, written. -/
def normalized {α : Type} (read : Reader α) (write : α → Value) (text : String) : Except Fault String :=
  ((Document.ofText text).decode read).map fun a => (write a).compact

/-- What is read from a text, however it is spelled there, has a written form that nests no deeper
than is allowed and is read as the same, and that is a normal form of its own. -/
def Normalizes {α : Type} (read : Reader α) (write : α → Value) : Prop :=
  ∀ (text : String) (a : α), (Document.ofText text).decode read = .ok a →
    (write a).depth ≤ depthLimit ∧
    (Document.ofText (write a).compact).decode read = .ok a ∧
    normalized read write (write a).compact = normalized read write text

theorem normalizes_of_fits {α : Type} {read : Reader α} {write : α → Value} {spare : Nat}
    (hspare : spare ≤ depthLimit) (hfits : Fits spare read fun a => (write a).depth)
    (hback : ∀ a, ReadsBack (depthLimit + 1) read (write a) a) : Normalizes read write := by
  intro text a h
  obtain ⟨b, hread, hrest⟩ := bind_eq_ok.mp h
  have hb : b = a := by
    split at hrest
    · cases hrest
    · cases hrest
      rfl
  subst hb
  have hdepth : (write b).depth ≤ depthLimit := by
    have := hfits.depth_le .stream hread
    omega
  have hwritten : (Document.ofText (write b).compact).decode read = .ok b := by
    rw [roundTrips_of_readsBack hback b]
    exact if_pos hdepth
  exact ⟨hdepth, hwritten, by rw [normalized, normalized, hwritten, h]⟩

/-- Every text that is accepted as a unit, or as a part of one that is read on its own, has a normal
form. -/
theorem accepted_normalizes :
    Normalizes PackageUnit.read PackageUnit.toJson ∧
    Normalizes Ty.read Ty.toJson ∧
    Normalizes fieldList fieldsJson ∧
    Normalizes Declaration.read Declaration.toJson ∧
    Normalizes Function.read Function.toJson ∧
    Normalizes annotList annotationsJson ∧
    Normalizes Annot.read Annot.toJson ∧
    Normalizes Literal.read Literal.toJson :=
  ⟨normalizes_of_fits (by decide) PackageUnit.fits PackageUnit.readsBack,
    normalizes_of_fits (by decide) Ty.fits Ty.readsBack,
    normalizes_of_fits (by decide) fieldList_fits fieldList_readsBack,
    normalizes_of_fits (by decide) Declaration.fits Declaration.readsBack,
    normalizes_of_fits (by decide) Function.fits Function.readsBack,
    normalizes_of_fits (by decide) annotList_fits annotList_readsBack,
    normalizes_of_fits (by decide) Annot.fits fun a => a.readsBack,
    normalizes_of_fits (by decide) Literal.fits fun l => l.readsBack⟩

set_option maxRecDepth 2000 in
/-- Records as arrays, a bare variant with a null, lists left out, and a version with a sign and a
leading zero. -/
theorem normalizes_sparse_unit :
    let text := "[\"p\", \"+01.2\", [], [], [\"I\"], [[\"struct\", \"S\"]], [[\"v\", " ++
      "\x7b\"opaque\": null\x7d]]]"
    let u : PackageUnit :=
      { package := "p", version := ⟨1, 2⟩, interface := some { name := "I" },
        declarations := [.struct "S" []], vars := [{ name := "v", type := some .sealed }] }
    (Document.ofText text).decode PackageUnit.read = .ok u ∧ u.toJson.depth ≤ depthLimit ∧
      (Document.ofText u.toJson.compact).decode PackageUnit.read = .ok u := by
  intro text u
  have htokens : tokens text.toList = [.openBracket, .string "p", .comma, .string "+01.2", .comma,
      .openBracket, .closeBracket, .comma, .openBracket, .closeBracket, .comma,
      .openBracket, .string "I", .closeBracket, .comma,
      .openBracket, .openBracket, .string "struct", .comma, .string "S", .closeBracket,
      .closeBracket, .comma, .openBracket, .openBracket, .string "v", .comma,
      .openBrace, .string "opaque", .colon, .null, .closeBrace, .closeBracket, .closeBracket,
      .closeBracket] := by decide +kernel
  have h : (Document.ofText text).decode PackageUnit.read = .ok u := by
    rw [Document.ofText, htokens]
    rfl
  obtain ⟨hdepth, hback, -⟩ := accepted_normalizes.1 text u h
  exact ⟨h, hdepth, hback⟩

end IdlStencil.Idl
