import Mathlib.Logic.Basic
import IdlStencil.Proofs.PassNotes
import IdlStencil.Snippet.Name

/-!
# A pass sees its own section only

A rendering asks for snippets by names that it composes itself. Every such name is one that a
snippet of a loaded table may have (`Render.loadable_of_asked`), by induction on types, since the
suffix of a type goes on with that of the type inside. So two tables that have the same snippets
with such names in a section are the same for its pass (`Emission.render_eq_of_get?_eq`): other
sections, the order of snippets and snippets with other names do not matter.
-/

namespace IdlStencil.Snippet

/-- A name that a snippet of a loaded table may have. -/
def Loadable (name : String) : Prop := nameFault? .snippetName name = none

instance (name : String) : Decidable (Loadable name) := inferInstanceAs (Decidable (_ = _))

theorem Loadable.append {s t : String} (hs : Loadable s) (ht : Loadable t) : Loadable (s ++ t) := by
  rw [Loadable, nameFault?_eq_none_iff] at hs ht ⊢
  refine ⟨fun h => hs.1 (String.append_eq_empty_iff.mp h).1, fun c hc => ?_⟩
  rw [String.toList_append] at hc
  rcases List.mem_append.mp hc with hc | hc
  · exact hs.2 c hc
  · exact ht.2 c hc

end IdlStencil.Snippet

namespace IdlStencil.Render

open Idl (Ty Scalar Declaration)
open Snippet (Loadable)

/-! ## The names that are asked for -/

theorem loadable_scalarName (s : Scalar) : Loadable s.name := by
  cases s <;> decide

theorem loadable_kind (t : Ty) : Loadable t.kind := by
  cases t <;> simp only [Ty.kind] <;> decide

theorem loadable_declarationKind (d : Declaration) : Loadable d.kind := by
  cases d <;> simp only [Declaration.kind] <;> decide

theorem loadable_kindSuffix (t : Ty) : Loadable t.kindSuffix :=
  (loadable_kind t).append (by decide)

theorem loadable_suffix (t : Ty) : Loadable t.suffix := by
  fun_induction Ty.suffix t with
  | case1 s => exact .append (by decide) (loadable_scalarName s)
  | case2 _ _ ih | case3 _ ih | case4 _ ih | case5 _ _ ih | case6 _ _ ih =>
    exact .append (by decide) ih
  | case7 t => exact loadable_kind t

theorem loadable_of_asked {name : String} (h : Asked name) : Loadable name := by
  have htype : ∀ stem ∈ typeStems, Loadable stem := by decide
  cases h with
  | fixed h =>
    have hfixed : ∀ name ∈ fixedSnippets, Loadable name := by decide
    exact hfixed name h
  | suffix h t => exact (htype _ h).append (loadable_suffix t)
  | kindSuffix h t => exact (htype _ h).append (loadable_kindSuffix t)
  | kind h t => exact (htype _ h).append (loadable_kind t)
  | declaration h d =>
    have hstem : ∀ stem ∈ declarationStems, Loadable stem := by decide
    exact (hstem _ h).append (loadable_declarationKind d)

/-! ## Two tables -/

/-- Two renderings that are the same. -/
def agreement : Parametric Bool where
  Text f := f true = f false
  Notes := SameNotes
  const _ := rfl
  append hf hg := congrArg₂ (· ++ ·) hf hg
  flatten hf := congrArg flatten hf
  empty_or {f} hf := by
    rw [Bool.forall_bool, Bool.forall_bool, hf]
    exact (Classical.em (f false = "")).imp (fun h => ⟨h, h⟩) (fun h => ⟨h, h⟩)
  silent := .silent
  notes_append := @SameNotes.append

theorem eq_of_agreement_facts {subs : Bool → Template.Substitutions} (h : agreement.Facts subs) :
    subs true = subs false := by
  induction h with
  | nil => rfl
  | cons key hf _ ih => exact congrArg₂ (fun value rest => (key, value) :: rest) hf ih

/-- In a section that exists a snippet is looked up in the table. -/
theorem Context.Known.snip_eq {cx : Context} (h : cx.Known) (name : String)
    (subs : Template.Substitutions) :
    cx.snip name subs =
      pure (((cx.table.get? cx.sectionName name).map (Template.fill · subs)).getD "") := by
  obtain ⟨snippets, hs⟩ := Option.ne_none_iff_exists'.mp h
  simp only [Context.snip, Snippet.Table.get?, hs, Option.bind_eq_bind, Option.bind_some]
  cases snippets.get? name <;> rfl

theorem agreement_keeps {cx : Bool → Context} (hknown : ∀ i, (cx i).Known)
    (hpackage : (cx true).package = (cx false).package)
    (hinterface : (cx true).interface = (cx false).interface)
    (hmultiline : (cx true).multiline = (cx false).multiline)
    (hget : ∀ name, Loadable name → (cx true).table.get? (cx true).sectionName name =
      (cx false).table.get? (cx false).sectionName name) : agreement.Keeps cx where
  package := hpackage
  interface := hinterface
  special hf := congrArg₂ special hmultiline hf
  snip hname hsubs := by
    have hsnip := hget _ (loadable_of_asked hname)
    refine ⟨?_, ?_⟩
    · simp only [agreement, (hknown _).snip_eq, hsnip, eq_of_agreement_facts hsubs]
    · simp only [(hknown _).notes_snip]
      exact agreement.silent

end IdlStencil.Render

namespace IdlStencil.Emission

open Render
open Snippet (Loadable Table)
open Idl (PackageUnit)

/-- Every name that is asked for may stand in a loaded table. The pass of a section, its text and
its notes, depends on nothing of the table but the section's snippets with such names. -/
theorem render_eq_of_get?_eq {t₁ t₂ : Table} {sectionName : String}
    (h₁ : t₁.section? sectionName ≠ none) (h₂ : t₂.section? sectionName ≠ none)
    (hget : ∀ name, Loadable name → t₁.get? sectionName name = t₂.get? sectionName name)
    (u : PackageUnit) (multiline : Option Bool) :
    (Emission.mk t₁ sectionName multiline).render u =
        (Emission.mk t₂ sectionName multiline).render u ∧
      ∀ name, Asked name → Loadable name := by
  refine ⟨?_, fun _ => loadable_of_asked⟩
  cases hi : u.interface with
  | none => simp only [render, hi]
  | some interface =>
    let cx (i : Bool) := Context.of (if i then t₁ else t₂) sectionName u.package interface.name multiline
    have hknown (i : Bool) : (cx i).Known := by cases i <;> assumption
    have K : agreement.Keeps cx := agreement_keeps hknown rfl rfl rfl hget
    have hfacts := K.unitFacts (fun _ => rfl) u interface.annotations
    have hfile := K.snip (.fixed (by decide : "file" ∈ fixedSnippets)) hfacts.value
    simp only [render, hi, h₁, h₂, Option.isNone_iff_eq_none, if_false]
    ext1
    · exact congrArg some hfile.value
    · exact congrArg₂ (· ++ ·) hfacts.notes (congrArg (· ++ []) hfile.notes)

/-- A section apart, another order, and a snippet that could not be loaded. -/
theorem render_eq_beside_others :
    let t₁ := (Table.empty.insert "s" "file" "text").insert "s" "import_line" "line"
    let t₂ := (((Table.empty.insert "other" "file" "other").insert "s" "import_line" "line").insert
      "s" "a-b" "ignored").insert "s" "file" "text"
    let u : PackageUnit := { package := "p", version := ⟨1, 0⟩, interface := some { name := "I" } }
    (t₁ ≠ t₂ ∧ t₁.section? "s" ≠ none ∧ t₂.section? "s" ≠ none ∧
      ∀ name, Loadable name → t₁.get? "s" name = t₂.get? "s" name) ∧
    (Emission.mk t₁ "s" none).render u = (Emission.mk t₂ "s" none).render u := by
  intro t₁ t₂ u
  have h₁ : t₁.section? "s" ≠ none := by decide
  have h₂ : t₂.section? "s" ≠ none := by decide
  have hget (name : String) (hname : Loadable name) : t₁.get? "s" name = t₂.get? "s" name := by
    have hne : name ≠ "a-b" := by
      rintro rfl
      exact absurd hname (by decide)
    by_cases hfile : name = "file"
    · subst hfile
      decide
    · simp [t₁, t₂, Table.get?_insert, hfile, hne]
  exact ⟨⟨by decide, h₁, h₂, hget⟩, (render_eq_of_get?_eq h₁ h₂ hget u none).1⟩

end IdlStencil.Emission
