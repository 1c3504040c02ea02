import IdlStencil.Render.FieldList

/-!
# Suffixes name shapes

A suffix is a chain of kinds with underscores between them and nothing at its end, and the names of
scalars have underscores of their own. It can be taken apart all the same: its first four characters
tell the kind of the type (`kind_eq_of_take_eq`), and behind the kind stands the suffix of the type
inside. So a suffix names a shape, which is all of a type but dimensions, aliases and fields, and no
suffix is the general one of any kind. The snippets that a field is looked up by are therefore
distinct (`Render.suffix_names_shape`).
-/

namespace IdlStencil.Idl.Ty

/-- The type without dimensions of arrays, names of aliases, and fields. -/
def shape : Ty → Ty
  | .vec base => .vec base.shape
  | .ref base => .ref base.shape
  | .array base _ => .array base.shape ""
  | .named _ base => .named "" base.shape
  | .enum storage _ => .enum storage.shape []
  | .union _ => .union []
  | .struct _ => .struct []
  | t => t

theorem suffix_shape (t : Ty) : t.shape.suffix = t.suffix := by
  fun_induction shape t with
  | case1 _ ih | case2 _ ih | case3 _ _ ih | case4 _ _ ih | case5 _ _ ih => simp only [suffix, ih]
  | case6 | case7 => rfl
  | case8 => rfl

/-! ## The head of a suffix -/

/-- The kinds of types. -/
def kinds : List String :=
  ["scalar", "vec", "array", "enum", "union", "struct", "named", "ref", "opaque", "string", "handle"]

/-- The kinds of types that are not built from others. -/
def wholeKinds : List String := ["union", "struct", "opaque", "string", "handle"]

theorem kind_mem_kinds (t : Ty) : t.kind ∈ kinds := by
  cases t <;> simp [kind, kinds]

/-- Four characters tell the kinds apart, the underscore behind the shortest ones included. -/
theorem kind_eq_of_take_eq {t u : Ty}
    (h : (t.kind ++ "_").toList.take 4 = (u.kind ++ "_").toList.take 4) : t.kind = u.kind := by
  have hkinds : ∀ k ∈ kinds, ∀ l ∈ kinds,
      (k ++ "_").toList.take 4 = (l ++ "_").toList.take 4 → k = l := by decide
  exact hkinds _ t.kind_mem_kinds _ u.kind_mem_kinds h

theorem take_suffix (t : Ty) : t.suffix.toList.take 4 = (t.kind ++ "_").toList.take 4 := by
  cases t <;> simp [suffix, kind, String.toList_append]

theorem take_kindSuffix (t : Ty) : t.kindSuffix.toList.take 4 = (t.kind ++ "_").toList.take 4 := by
  cases t <;> simp [kindSuffix, kind]

/-- What stands behind a kind is never the general suffix. -/
theorem suffix_ne_all (t : Ty) : t.suffix ≠ "all" := by
  intro h
  have hall : ∀ k ∈ kinds, (k ++ "_").toList.take 4 ≠ "all".toList.take 4 := by decide
  apply hall _ t.kind_mem_kinds
  rw [← take_suffix, h]

/-! ## Suffixes and kinds -/

/-- The suffix of a type that is built from another one. -/
theorem suffix_of_not_whole {t : Ty} (h : t.kind ∉ wholeKinds) :
    ∃ inner : String, t.suffix = t.kind ++ "_" ++ inner ∧ inner ≠ "all" := by
  cases t with
  | scalar s => exact ⟨s.name, by simp [suffix, kind], by cases s <;> decide⟩
  | vec base | ref base | array base | named _ base | enum base =>
    exact ⟨base.suffix, by simp [suffix, kind], base.suffix_ne_all⟩
  | _ => exact absurd (by simp [kind, wholeKinds]) h

theorem suffix_of_whole {t : Ty} (h : t.kind ∈ wholeKinds) : t.suffix = t.kind := by
  cases t with
  | union | struct | sealed | string | handle => rfl
  | _ => simp [kind, wholeKinds] at h

theorem suffix_eq_kind_iff (t : Ty) : t.suffix = t.kind ↔ t.kind ∈ wholeKinds := by
  refine ⟨fun h => ?_, suffix_of_whole⟩
  by_cases hwhole : t.kind ∈ wholeKinds
  · exact hwhole
  · obtain ⟨inner, hinner, -⟩ := suffix_of_not_whole hwhole
    have hlength := congrArg String.length (hinner.symm.trans h)
    have hunderscore : "_".length = 1 := rfl
    simp only [String.length_append] at hlength
    omega

theorem suffix_ne_kindSuffix (t u : Ty) : t.suffix ≠ u.kindSuffix := by
  intro h
  have hkind : t.kind = u.kind := kind_eq_of_take_eq (by rw [← take_suffix, ← take_kindSuffix, h])
  by_cases hwhole : t.kind ∈ wholeKinds
  · rw [suffix_of_whole hwhole, kindSuffix, ← hkind] at h
    have hlength := congrArg String.length h
    simp at hlength
  · obtain ⟨inner, hinner, hne⟩ := suffix_of_not_whole hwhole
    apply hne
    rw [hinner, kindSuffix, ← hkind, String.append_assoc, String.append_right_inj] at h
    exact (String.append_right_inj "_").mp h

theorem kindSuffix_ne_kind (t : Ty) : t.kindSuffix ≠ t.kind := by
  intro h
  have hlength := congrArg String.length h
  simp [kindSuffix] at hlength

/-! ## Suffixes and shapes -/

theorem scalarName_injective {s s' : Scalar} (h : s.name = s'.name) : s = s' := by
  cases s <;> cases s' <;> simp_all [Scalar.name]

theorem kind_eq_of_suffix_eq {t u : Ty} (h : t.suffix = u.suffix) : t.kind = u.kind :=
  kind_eq_of_take_eq (by rw [← take_suffix, ← take_suffix, h])

/-- Two types with one suffix are of one kind, so that the suffixes go on with those of their parts. -/
theorem shape_eq_of_suffix_eq : ∀ {t u : Ty}, t.suffix = u.suffix → t.shape = u.shape
  | t, u, h => by
    have hkind := kind_eq_of_suffix_eq h
    -- types of two kinds go here, and the pairs of one kind are left
    cases t <;> cases u <;> simp [kind] at hkind
    case scalar.scalar => rw [scalarName_injective ((String.append_right_inj _).mp h)]
    case vec.vec | ref.ref | array.array | named.named | enum.enum =>
      have hpart := shape_eq_of_suffix_eq ((String.append_right_inj _).mp h)
      simp only [shape, hpart]
    case union.union | struct.struct | sealed.sealed | string.string | handle.handle => rfl

theorem suffix_eq_iff (t u : Ty) : t.suffix = u.suffix ↔ t.shape = u.shape := by
  refine ⟨shape_eq_of_suffix_eq, fun h => ?_⟩
  rw [← suffix_shape t, h, suffix_shape u]

end IdlStencil.Idl.Ty

namespace IdlStencil.Render

open Idl (Ty)

theorem nodup_suffixSnippets (stem : String) (t : Ty) : (suffixSnippets stem t).Nodup := by
  have h : stem ++ t.suffix ≠ stem ++ t.kindSuffix :=
    fun e => t.suffix_ne_kindSuffix t ((String.append_right_inj stem).mp e)
  simpa [suffixSnippets] using h

/-- The names of the snippets for a parameter. That of the kind is left out where it is the first. -/
theorem parameterSnippets_eq (t : Ty) :
    parameterSnippets t = suffixSnippets "param_decl_" t ++
      if t.suffix = t.kind then [] else ["param_decl_" ++ t.kind] := by
  have hgeneral : t.kindSuffix ≠ t.suffix := (t.suffix_ne_kindSuffix t).symm
  have hkind : t.kind ≠ t.kindSuffix := t.kindSuffix_ne_kind.symm
  by_cases h : t.suffix = t.kind
  · simp [parameterSnippets, suffixSnippets, List.eraseDups_cons, h, hkind.symm]
  · have hne : t.kind ≠ t.suffix := fun e => h e.symm
    simp [parameterSnippets, suffixSnippets, List.eraseDups_cons, h, hgeneral, hne, hkind]

theorem nodup_parameterSnippets (t : Ty) : (parameterSnippets t).Nodup := by
  rw [parameterSnippets_eq, List.nodup_append]
  refine ⟨nodup_suffixSnippets _ t, by split <;> simp, ?_⟩
  split
  · simp
  · next hne =>
    intro name hname other hother hsame
    rw [List.mem_singleton.mp hother] at hsame
    simp only [suffixSnippets, List.mem_cons, List.not_mem_nil, or_false] at hname
    rcases hname with rfl | rfl
    · exact hne ((String.append_right_inj _).mp hsame)
    · exact t.kindSuffix_ne_kind ((String.append_right_inj _).mp hsame)

/-- A suffix names a shape and nothing else: two types have one suffix exactly if they have one
shape, no suffix is the general one of a kind, and a suffix is a kind exactly for types that are not
built from others. So no field is looked up twice under one name, and of the three names for a
parameter that of the kind alone is left out, for those types. -/
theorem suffix_names_shape :
    (∀ t u : Ty, t.suffix = u.suffix ↔ t.shape = u.shape) ∧
    (∀ t u : Ty, t.suffix ≠ u.kindSuffix) ∧
    (∀ t : Ty, t.suffix = t.kind ↔ t.kind ∈ ["union", "struct", "opaque", "string", "handle"]) ∧
    ∀ t : Ty, (∀ stem, (suffixSnippets stem t).Nodup) ∧ (memberSnippets t).Nodup ∧
      (parameterSnippets t).Nodup ∧
      parameterSnippets t = suffixSnippets "param_decl_" t ++
        if t.suffix = t.kind then [] else ["param_decl_" ++ t.kind] := by
  refine ⟨Ty.suffix_eq_iff, Ty.suffix_ne_kindSuffix, Ty.suffix_eq_kind_iff, fun t => ?_⟩
  have hstem (stem : String) := nodup_suffixSnippets stem t
  exact ⟨hstem, hstem "field_decl_", nodup_parameterSnippets t, parameterSnippets_eq t⟩

end IdlStencil.Render
