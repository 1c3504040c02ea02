import IdlStencil.Proofs.SameLookups
import IdlStencil.Render.FieldList

/-!
# Facts behind aliases

An alias adds one fact, its name, in front of the facts about what it names, and has the tag of what it
names. Every type is a chain of aliases around a type that is none (`Ty.exists_aliased`), so whatever
passes through one alias is known of every type once it is known of those.

A fact is looked up by the first entry with its key, and the facts about a field stand before those about
its type. Neither hides the other: the keys of a type, behind any number of aliases, are not those of a
field (`disjoint_ownKeys`), and a type that is no alias has no fact under the key of an alias. So the
outermost alias gives the name, and everything else is what the type behind all aliases says
(`aliases_transparent`).
-/

namespace IdlStencil.Template

theorem get?_eq_none_iff {subs : Substitutions} {key : String} :
    subs.get? key = none ↔ key ∉ subs.keys := by
  rw [mem_keys_iff, Option.isSome_iff_ne_none, not_not]

theorem get?_append_of_notMem {before behind : Substitutions} {key : String} (h : key ∉ before.keys) :
    Substitutions.get? (before ++ behind) key = behind.get? key := by
  rw [get?_append, get?_eq_none_iff.mpr h, Option.none_or]

end IdlStencil.Template

namespace IdlStencil.Idl

namespace Ty

/-! ## Chains of aliases -/

def isAlias : Ty → Bool
  | .named _ _ => true
  | _ => false

/-- A type behind aliases, the outermost first. -/
def aliased (names : List String) (t : Ty) : Ty := names.foldr .named t

theorem aliased_cons (name : String) (names : List String) (t : Ty) :
    t.aliased (name :: names) = .named name (t.aliased names) := rfl

/-- Every type is some type that is no alias behind a chain of aliases, which may be empty. -/
theorem exists_aliased : ∀ t : Ty, ∃ names c, c.isAlias = false ∧ t = aliased names c
  | .named name base => by
    obtain ⟨names, c, hc, hbase⟩ := exists_aliased base
    exact ⟨name :: names, c, hc, by rw [hbase, aliased_cons]⟩
  | .scalar _ | .vec _ | .array _ _ | .enum _ _ | .union _ | .struct _ | .ref _ | .sealed | .string
  | .handle => ⟨[], _, rfl, rfl⟩

theorem suiteTag_aliased (names : List String) (t : Ty) : (t.aliased names).suiteTag = t.suiteTag := by
  induction names with
  | nil => rfl
  | cons name names ih => rw [aliased_cons, suiteTag, ih]

theorem isPrimitive_aliased (names : List String) (t : Ty) :
    (t.aliased names).isPrimitive = t.isPrimitive := by
  induction names with
  | nil => rfl
  | cons name names ih => rw [aliased_cons, isPrimitive, ih]

/-! ## Tags of primitive types -/

/-- The tags of types that are not primitive. -/
def aggregateTags : List String :=
  ["TYPE_VECTOR", "TYPE_ARRAY", "TYPE_UNION", "TYPE_STRUCT", "TYPE_REF", "TYPE_OPAQUE", "TYPE_HANDLE"]

/-- A tag of one of the primitive types. -/
def PrimitiveTag (tag : String) : Prop :=
  (∃ s : Scalar, tag = s.suiteTag) ∨ tag = "TYPE_ENUM" ∨ tag = "TYPE_STRING"

theorem not_primitiveTag {tag : String} (h : tag ∈ aggregateTags) : ¬ PrimitiveTag tag := by
  rintro (⟨s, rfl⟩ | rfl | rfl)
  · revert h
    cases s <;> decide
  · exact absurd h (by decide)
  · exact absurd h (by decide)

theorem isPrimitive_iff (t : Ty) : t.isPrimitive = true ↔ PrimitiveTag t.suiteTag := by
  obtain ⟨names, c, hc, rfl⟩ := exists_aliased t
  rw [suiteTag_aliased, isPrimitive_aliased]
  -- behind the aliases both sides are decided by the kind alone
  cases c with
  | named => cases hc
  | scalar s => exact iff_of_true rfl (.inl ⟨s, rfl⟩)
  | enum => exact iff_of_true rfl (.inr (.inl rfl))
  | string => exact iff_of_true rfl (.inr (.inr rfl))
  | vec | array | union | struct | ref | sealed | handle =>
    exact iff_of_false Bool.false_ne_true (not_primitiveTag (by simp [suiteTag, aggregateTags]))

end Ty
end IdlStencil.Idl

namespace IdlStencil.Render

open Template (Substitutions get?_append get?_append_of_notMem get?_eq_none_iff)
open Idl (Ty Field Scalar)

/-! ## Keys -/

/-- The keys of the facts about a field itself. -/
def ownKeys : List String := ["param_name", "package_name", "init_value"]

/-- The keys of the facts about types that are no aliases. -/
def typeKeys : List String :=
  ["field_type_vts", "base_type_name", "vec_name", "array_name", "array_size", "enum_base_type"]

/-- The facts that a chain of aliases adds. -/
def aliasFacts (names : List String) : Substitutions := names.map fun name => ("named_type_name", name)

theorem eq_of_mem_keys_aliasFacts {names : List String} {key : String}
    (h : key ∈ (aliasFacts names).keys) : key = "named_type_name" := by
  simp only [aliasFacts, Substitutions.keys, List.map_map, List.mem_map] at h
  obtain ⟨_, -, rfl⟩ := h
  rfl

theorem typeFacts_aliased (cx : Context) (names : List String) (t : Ty) :
    typeFacts cx (t.aliased names) = do return aliasFacts names ++ (← typeFacts cx t) := by
  induction names with
  | nil => ext1 <;> simp [Ty.aliased, aliasFacts]
  | cons name names ih =>
    rw [Ty.aliased_cons, typeFacts, ih]
    ext1 <;> simp [aliasFacts]

theorem keys_typeFacts_subset (cx : Context) {c : Ty} (hc : c.isAlias = false) :
    (typeFacts cx c).value.keys ⊆ typeKeys := by
  cases c with
  | named => cases hc
  | _ => simp [typeFacts, Substitutions.keys, typeKeys]

/-- No fact about a type, an alias or not, has a key of the facts about a field. -/
theorem disjoint_ownKeys (cx : Context) (t : Ty) : ownKeys.Disjoint (typeFacts cx t).value.keys := by
  obtain ⟨names, c, hc, rfl⟩ := t.exists_aliased
  intro key hown htype
  rw [typeFacts_aliased] at htype
  simp only [Noted.value_bind, Noted.value_pure, Substitutions.keys, List.map_append,
    List.mem_append] at htype
  -- the keys of an alias and of all other types are fixed texts, apart from those of a field
  have hne : ∀ own ∈ ownKeys, own ≠ "named_type_name" ∧ own ∉ typeKeys := by decide
  rcases htype with hname | hplain
  · exact (hne key hown).1 (eq_of_mem_keys_aliasFacts hname)
  · exact (hne key hown).2 (keys_typeFacts_subset cx hc hplain)

/-! ## Lookups -/

section

variable (cx : Context)

theorem get?_name_aliased (name : String) (names : List String) (t : Ty) :
    (typeFacts cx (t.aliased (name :: names))).value.get? "named_type_name" = some name := by
  rw [typeFacts_aliased]
  rfl

theorem get?_aliased {key : String} (h : key ≠ "named_type_name") (names : List String) (t : Ty) :
    (typeFacts cx (t.aliased names)).value.get? key = (typeFacts cx t).value.get? key := by
  rw [typeFacts_aliased]
  exact get?_append_of_notMem fun hmem => h (eq_of_mem_keys_aliasFacts hmem)

theorem get?_name_eq_none {c : Ty} (hc : c.isAlias = false) :
    (typeFacts cx c).value.get? "named_type_name" = none :=
  get?_eq_none_iff.mpr fun h => absurd (keys_typeFacts_subset cx hc h) (by decide)

theorem get?_fieldFacts (f : Field) (key : String) :
    (fieldFacts cx f).value.get? key = ((ownFacts cx f).get? key).or
      (f.type.bind fun t => (typeFacts cx t).value.get? key) := by
  cases htype : f.type with
  | some t =>
    simp only [fieldFacts, htype]
    exact get?_append _ _ key
  | none => simp [fieldFacts, htype]

theorem get?_fieldFacts_of_own {f : Field} {key value : String}
    (h : (ownFacts cx f).get? key = some value) : (fieldFacts cx f).value.get? key = some value := by
  rw [get?_fieldFacts, h, Option.some_or]

theorem get?_init_ownFacts (f : Field) :
    (ownFacts cx f).get? "init_value" = some (match f.value with
      | none => ""
      | some (.string s) => "\"" ++ s ++ "\""
      | some (.number s) => s
      | some (.ident s) => s) := by
  obtain ⟨name, type, value, annot⟩ := f
  rcases value with _ | (_ | _ | _) <;> rfl

end

/-- A chain of aliases adds its names to the facts about the type it is around, and nothing else: the
outermost one is the name that is looked up, all else is as without aliases, and so are the tag and what
counts as primitive, which is told by the tag. A field has the facts about itself whatever its type, and
all others from its type. -/
theorem aliases_transparent (cx : Context) :
    (∀ (name : String) (names : List String) (c : Ty), c.isAlias = false →
      let t := c.aliased (name :: names)
      typeFacts cx t = (do return aliasFacts (name :: names) ++ (← typeFacts cx c)) ∧
      (typeFacts cx c).value.get? "named_type_name" = none ∧
      (typeFacts cx t).value.get? "named_type_name" = some name ∧
      (∀ key, key ≠ "named_type_name" →
        (typeFacts cx t).value.get? key = (typeFacts cx c).value.get? key) ∧
      t.suiteTag = c.suiteTag ∧ t.isPrimitive = c.isPrimitive) ∧
    (∀ t : Ty, t.isPrimitive = true ↔
      (∃ s : Scalar, t.suiteTag = s.suiteTag) ∨ t.suiteTag = "TYPE_ENUM" ∨ t.suiteTag = "TYPE_STRING") ∧
    (∀ f : Field,
      let facts := (fieldFacts cx f).value
      facts.get? "param_name" = some f.name ∧
      facts.get? "package_name" = some cx.package ∧
      facts.get? "init_value" = some (match f.value with
        | none => ""
        | some (.string s) => "\"" ++ s ++ "\""
        | some (.number s) => s
        | some (.ident s) => s) ∧
      ∀ key, key ∉ ["param_name", "package_name", "init_value"] →
        facts.get? key = f.type.bind fun t => (typeFacts cx t).value.get? key) ∧
    ∀ t : Ty, ["param_name", "package_name", "init_value"].Disjoint (typeFacts cx t).value.keys := by
  refine ⟨fun name names c hc => ?_, Ty.isPrimitive_iff, fun f => ?_, disjoint_ownKeys cx⟩
  · exact ⟨typeFacts_aliased cx _ c, get?_name_eq_none cx hc, get?_name_aliased cx name names c,
      fun key hkey => get?_aliased cx hkey _ c, c.suiteTag_aliased _, c.isPrimitive_aliased _⟩
  · refine ⟨get?_fieldFacts_of_own cx rfl, get?_fieldFacts_of_own cx rfl,
      get?_fieldFacts_of_own cx (get?_init_ownFacts cx f), fun key hkey => ?_⟩
    rw [get?_fieldFacts, get?_eq_none_iff.mpr hkey, Option.none_or]

/-- Two aliases, one of them with the name of a key, around an array of structs in a section that does not
exist: the facts about the array are still there, and so are those about a field of that type. -/
theorem aliases_transparent_of_array :
    let cx : Context := { table := .empty, sectionName := "s", package := "p" }
    let c : Ty := .array (.struct [{ name := "y", type := some .string }]) "N"
    let t : Ty := .named "param_name" (.named "Inner" c)
    let f : Field := { name := "x", type := some t, value := some (.string "v") }
    (c.isAlias = false ∧ "array_size" ≠ "named_type_name" ∧
      "array_size" ∉ ["param_name", "package_name", "init_value"]) ∧
    ((typeFacts cx t).value.get? "named_type_name" = some "param_name" ∧
      (typeFacts cx t).value.get? "array_size" = some "N" ∧
      (typeFacts cx t).notes = [missingSection "s", missingSection "s"] ∧
      t.suiteTag = "TYPE_ARRAY") ∧
    (fieldFacts cx f).value.get? "param_name" = some "x" ∧
    (fieldFacts cx f).value.get? "init_value" = some "\"v\"" ∧
    (fieldFacts cx f).value.get? "array_size" = some "N" := by
  intro cx c t f
  obtain ⟨hchain, -, hfield, -⟩ := aliases_transparent cx
  have hc : c.isAlias = false := rfl
  have hne : "array_size" ≠ "named_type_name" := by decide
  have hother : "array_size" ∉ ["param_name", "package_name", "init_value"] := by decide
  have hsize : (typeFacts cx c).value.get? "array_size" = some "N" := rfl
  have hnotes : (typeFacts cx c).notes = [missingSection "s", missingSection "s"] := rfl
  obtain ⟨hfacts, -, hname, hkeep, htag, -⟩ := hchain "param_name" ["Inner"] c hc
  obtain ⟨hparam, -, hinit, hrest⟩ := hfield f
  have hsize' : (typeFacts cx t).value.get? "array_size" = some "N" := (hkeep _ hne).trans hsize
  refine ⟨⟨hc, hne, hother⟩, ⟨hname, hsize', ?_, htag⟩, hparam, hinit, (hrest _ hother).trans hsize'⟩
  exact (congrArg Noted.notes hfacts).trans (by rw [Noted.notes_bind, hnotes]; rfl)

end IdlStencil.Render
