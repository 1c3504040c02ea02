import IdlStencil.Proofs.LongestKeyScan

/-!
# Filling looks keys up and nothing else

Two lists of substitutions may differ in their order, in repeated and empty keys, and in keys that
stand nowhere in the template, so that their candidates are other lists altogether. As long as the
keys that do stand in the template are looked up alike (`SameLookups`), the same key is the longest
at every place (`LongestAt.of_sameLookups`), and the texts are the same
(`fill_depends_on_lookups`).
-/

namespace IdlStencil.Template

/-- Every key that stands in the template has the same value in both lists, or no value in either. -/
def SameLookups (template : String) (s₁ s₂ : Substitutions) : Prop :=
  ∀ key : String, key ≠ "" → key.toList <:+: template.toList → s₁.get? key = s₂.get? key

theorem SameLookups.symm {template : String} {s₁ s₂ : Substitutions}
    (h : SameLookups template s₁ s₂) : SameLookups template s₂ s₁ :=
  fun key hne hin => (h key hne hin).symm

/-! ## Lookups -/

theorem get?_cons_of_ne {key other : String} (h : key ≠ other) (value : String) (subs : Substitutions) :
    Substitutions.get? ((other, value) :: subs) key = subs.get? key := by
  simp only [Substitutions.get?, List.lookup_cons, beq_false_of_ne h]

theorem get?_append (before behind : Substitutions) (key : String) :
    Substitutions.get? (before ++ behind) key = (before.get? key).or (behind.get? key) :=
  List.lookup_append

theorem mem_keys_iff {subs : Substitutions} {key : String} :
    key ∈ subs.keys ↔ (subs.get? key).isSome := by
  induction subs with
  | nil => simp [Substitutions.keys, Substitutions.get?]
  | cons entry subs ih =>
    obtain ⟨other, value⟩ := entry
    by_cases h : key = other
    · simp [Substitutions.keys, Substitutions.get?, h]
    · rw [get?_cons_of_ne h, ← ih]
      simp [Substitutions.keys, h]

theorem get?_swap {k₁ k₂ : String} (hne : k₁ ≠ k₂) (v₁ v₂ : String) (subs : Substitutions)
    (key : String) : Substitutions.get? ((k₁, v₁) :: (k₂, v₂) :: subs) key =
      Substitutions.get? ((k₂, v₂) :: (k₁, v₁) :: subs) key := by
  by_cases h₁ : key = k₁
  · subst h₁
    rw [get?_cons_of_ne hne]
    simp [Substitutions.get?]
  · rw [get?_cons_of_ne h₁]
    by_cases h₂ : key = k₂
    · simp [Substitutions.get?, h₂]
    · rw [get?_cons_of_ne h₂, get?_cons_of_ne h₂, get?_cons_of_ne h₁]

/-- Where no key is repeated, the order of the entries does not matter. -/
theorem get?_eq_of_perm {s₁ s₂ : Substitutions} (h : s₁.Perm s₂) (hn : s₁.keys.Nodup) (key : String) :
    s₁.get? key = s₂.get? key := by
  induction h with
  | nil => rfl
  | cons entry _ ih =>
    obtain ⟨other, value⟩ := entry
    by_cases hk : key = other
    · simp [Substitutions.get?, hk]
    · rw [get?_cons_of_ne hk, get?_cons_of_ne hk]
      exact ih (List.nodup_cons.mp hn).2
  | swap e₁ e₂ subs =>
    have hne : e₂.1 ≠ e₁.1 := fun e => (List.nodup_cons.mp hn).1 (by simp [e])
    exact get?_swap hne e₂.2 e₁.2 subs key
  | trans h₁ _ ih₁ ih₂ => exact (ih₁ hn).trans (ih₂ ((h₁.map Prod.fst).nodup_iff.mp hn))

/-! ## One place and the whole walk -/

variable {template : String} {s₁ s₂ : Substitutions} {text : List Char}

/-- The longest key at a place of the template is the same for both lists. -/
theorem LongestAt.of_sameLookups {key : List Char} (h : SameLookups template s₁ s₂)
    (htext : text <:+ template.toList) (hkey : LongestAt s₁ text key) : LongestAt s₂ text key := by
  have hmem {other : String} (hne : other ≠ "") (hp : other.toList <+: text) :
      other ∈ s₁.keys ↔ other ∈ s₂.keys := by
    rw [mem_keys_iff, mem_keys_iff, h other hne (hp.isInfix.trans htext.isInfix)]
  refine ⟨?_, hkey.ne_nil, hkey.stands, fun other hother hp => ?_⟩
  · exact (hmem (by simpa using hkey.ne_nil) (by simpa using hkey.stands)).mp hkey.listed
  · by_cases hne : other = ""
    · simp [hne]
    · exact hkey.longest other ((hmem hne hp).mpr hother) hp

theorem longestKey?_of_sameLookups (h : SameLookups template s₁ s₂) (htext : text <:+ template.toList) :
    longestKey? s₁ text = longestKey? s₂ text := by
  cases h₁ : longestKey? s₁ text with
  | some key =>
    have hkey := (longestKey?_some h₁).of_sameLookups h htext
    cases h₂ : longestKey? s₂ text with
    | some key' => rw [String.toList_inj.mp (hkey.unique (longestKey?_some h₂))]
    | none => exact absurd hkey (longestKey?_none h₂)
  | none =>
    cases h₂ : longestKey? s₂ text with
    | some key' =>
      exact absurd ((longestKey?_some h₂).of_sameLookups h.symm htext) (longestKey?_none h₁)
    | none => rfl

theorem scan_of_sameLookups (h : SameLookups template s₁ s₂) (htext : text <:+ template.toList) :
    scan s₁ text = scan s₂ text := by
  fun_induction scan s₁ text with
  | case1 => rw [scan]
  | case2 c cs key hkey ih =>
    have hlong := longestKey?_some hkey
    have hvalue : firstValue s₁ key = firstValue s₂ key := by
      have hne : key ≠ "" := by simpa using hlong.ne_nil
      rw [firstValue_eq_get?, firstValue_eq_get?,
        h key hne (hlong.stands.isInfix.trans htext.isInfix)]
    rw [scan]
    split
    · next key' hkey' =>
      rw [← longestKey?_of_sameLookups h htext, hkey] at hkey'
      cases hkey'
      rw [hvalue, ih ((List.drop_suffix _ _).trans htext)]
    · next hnone =>
      rw [← longestKey?_of_sameLookups h htext, hkey] at hnone
      cases hnone
  | case3 c cs hnone ih =>
    rw [scan]
    split
    · next key' hkey' =>
      rw [← longestKey?_of_sameLookups h htext, hnone] at hkey'
      cases hkey'
    · rw [ih ((List.suffix_cons c cs).trans htext)]

theorem fill_of_sameLookups (h : SameLookups template s₁ s₂) : fill template s₁ = fill template s₂ := by
  rw [← String.toList_inj, toList_fill, toList_fill]
  exact scan_of_sameLookups h (List.suffix_refl _)

/-! ## Order and noise -/

/-- An entry whose key is never asked for, or was found before, may stand anywhere. -/
theorem SameLookups.insert {key value : String} {before behind : Substitutions}
    (h : key ≠ "" → key.toList <:+: template.toList → key ∈ before.keys) :
    SameLookups template (before ++ (key, value) :: behind) (before ++ behind) := by
  intro asked hne hin
  rw [get?_append, get?_append]
  by_cases hk : asked = key
  · subst hk
    obtain ⟨found, hfound⟩ := Option.isSome_iff_exists.mp (mem_keys_iff.mp (h hne hin))
    rw [hfound, Option.some_or, Option.some_or]
  · rw [get?_cons_of_ne hk]

/-- The filled template depends on the values of the keys that stand in it. So entries with distinct
keys may change places, all of them at once or two of a list with repeated keys; and a key that came
before, an empty key, and a key that stands nowhere may be added or left out. -/
theorem fill_depends_on_lookups (template : String) :
    (∀ s₁ s₂ : Substitutions, SameLookups template s₁ s₂ → fill template s₁ = fill template s₂) ∧
    (∀ s₁ s₂ : Substitutions, s₁.Perm s₂ → s₁.keys.Nodup → fill template s₁ = fill template s₂) ∧
    ∀ before behind : Substitutions,
      (∀ k₁ v₁ k₂ v₂, k₁ ≠ k₂ →
        fill template (before ++ (k₁, v₁) :: (k₂, v₂) :: behind) =
          fill template (before ++ (k₂, v₂) :: (k₁, v₁) :: behind)) ∧
      (∀ key value, key ∈ before.keys ∨ key = "" ∨ ¬ key.toList <:+: template.toList →
        fill template (before ++ (key, value) :: behind) = fill template (before ++ behind)) := by
  refine ⟨fun s₁ s₂ => fill_of_sameLookups, fun s₁ s₂ hp hn => ?_, fun before behind => ⟨?_, ?_⟩⟩
  · exact fill_of_sameLookups fun key _ _ => get?_eq_of_perm hp hn key
  · intro k₁ v₁ k₂ v₂ hne
    apply fill_of_sameLookups
    intro key _ _
    rw [get?_append, get?_append, get?_swap hne]
  · intro key value hkey
    apply fill_of_sameLookups
    apply SameLookups.insert
    intro hne hin
    rcases hkey with hkey | hkey | hkey
    · exact hkey
    · exact absurd hkey hne
    · exact absurd hin hkey

/-- Keys inside each other, in another order; then a repeated key with another value, an empty key,
and a key that stands nowhere. -/
theorem fill_permuted_and_noisy :
    let subs : Substitutions := [("a", "ab"), ("ab", "b"), ("b", "\n")]
    let turned : Substitutions := [("b", "\n"), ("ab", "b"), ("a", "ab")]
    (subs.Perm turned ∧ subs.keys.Nodup ∧ fill "aab b" subs = fill "aab b" turned) ∧
    (∀ entry ∈ [("ab", "x"), ("", "x"), ("ba", "x")],
      (entry.1 ∈ subs.keys ∨ entry.1 = "" ∨ ¬ entry.1.toList <:+: "aab b".toList) ∧
      fill "aab b" (subs ++ entry :: turned) = fill "aab b" (subs ++ turned)) := by
  intro subs turned
  obtain ⟨-, hperm, hnoise⟩ := fill_depends_on_lookups "aab b"
  have hp : subs.Perm turned := by decide
  have hn : subs.keys.Nodup := by decide
  have hentry : ∀ entry ∈ [("ab", "x"), ("", "x"), ("ba", "x")],
      entry.1 ∈ subs.keys ∨ entry.1 = "" ∨ ¬ entry.1.toList <:+: "aab b".toList := by decide
  refine ⟨⟨hp, hn, hperm subs turned hp hn⟩, fun entry hmem => ⟨hentry entry hmem, ?_⟩⟩
  exact (hnoise subs turned).2 entry.1 entry.2 (hentry entry hmem)

end IdlStencil.Template
