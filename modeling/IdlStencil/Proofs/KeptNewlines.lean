import Mathlib.Data.List.Forall2
import IdlStencil.Proofs.Parametric

/-!
# Keeping the newlines of parameters

Whether special forms of parameters keep their newlines is asked deep inside a rendering: the forms
become values of other snippets, are tested for being empty, and may be put on one line later on.
Two passes that differ in the answer alone are rendered at once (`newlines`, one index an answer).
Their texts differ in nothing but newlines of the one that are blanks of the other, and a sink
cannot tell the passes apart by their status or notes (`Emission.emit_keeping`).
-/

namespace IdlStencil.Render

/-- The characters in one place of a text that keeps its newlines and of one that may not. -/
def SameOrBlank (kept flat : Char) : Prop := kept = flat ∨ kept = '\n' ∧ flat = ' '

/-- The second text is the first one with some of its newlines turned into blanks. -/
def Blanked (kept flat : String) : Prop := List.Forall₂ SameOrBlank kept.toList flat.toList

namespace Blanked

variable {s t s' t' : String}

theorem refl (s : String) : Blanked s s := List.forall₂_same.mpr fun _ _ => .inl rfl

theorem append (h : Blanked s t) (h' : Blanked s' t') : Blanked (s ++ s') (t ++ t') := by
  simp only [Blanked, String.toList_append]
  exact List.rel_append h h'

/-- The second text may be put on one line at any time. -/
theorem flatten_right (h : Blanked s t) : Blanked s (flatten t) := by
  simp only [Blanked, flatten, String.toList_ofList, List.forall₂_map_right_iff]
  refine h.imp fun c d hcd => ?_
  rcases hcd with rfl | ⟨rfl, rfl⟩
  · by_cases hc : c = '\n'
    · exact .inr ⟨hc, if_pos hc⟩
    · exact .inl (if_neg hc).symm
  · exact .inr ⟨rfl, rfl⟩

theorem flatten (h : Blanked s t) : Blanked (flatten s) (flatten t) := by
  simp only [Blanked, Render.flatten, String.toList_ofList, List.forall₂_map_left_iff,
    List.forall₂_map_right_iff]
  refine h.imp fun c d hcd => ?_
  rcases hcd with rfl | ⟨rfl, rfl⟩
  · exact .inl rfl
  · exact .inl rfl

theorem eq_empty_iff (h : Blanked s t) : s = "" ↔ t = "" := by
  rw [← String.toList_eq_nil_iff, ← String.toList_eq_nil_iff, ← List.length_eq_zero_iff,
    ← List.length_eq_zero_iff, List.Forall₂.length_eq h]

/-- A newline is as long as a blank. -/
theorem byteSize_eq (h : Blanked s t) : s.utf8ByteSize = t.utf8ByteSize := by
  have hchars {cs ds : List Char} (h : List.Forall₂ SameOrBlank cs ds) :
      Text.byteLength cs = Text.byteLength ds := by
    induction h with
    | nil => rfl
    | cons hcd _ ih =>
      rcases hcd with rfl | ⟨rfl, rfl⟩
      · simp only [Text.byteLength_cons, ih]
      · simp only [Text.byteLength_cons, ih]
        rfl
  simpa only [Text.byteLength_eq_utf8ByteSize, String.ofList_toList] using hchars h

end Blanked

/-- Two renderings with the same notes, the second of which may have blanks for newlines. -/
def newlines : Parametric Bool where
  Text f := Blanked (f true) (f false)
  Notes := SameNotes
  const s := .refl s
  append hf hg := hf.append hg
  flatten hf := hf.flatten
  empty_or {f} hf := by
    rw [Bool.forall_bool, Bool.forall_bool]
    by_cases h : f true = ""
    · exact .inl ⟨hf.eq_empty_iff.mp h, h⟩
    · exact .inr ⟨fun h' => h (hf.eq_empty_iff.mpr h'), h⟩
  silent := .silent
  notes_append := @SameNotes.append

/-- The answer is not asked for when a snippet is looked up. -/
theorem newlines_keeps (table : Snippet.Table) (sectionName package interface : String) :
    newlines.Keeps fun keep => Context.of table sectionName package interface (some keep) where
  package := .refl _
  interface := .refl _
  special hf := hf.flatten_right
  snip {name subs} _ hsubs := by
    simp only [Context.snip, Context.of]
    cases table.section? sectionName with
    | none => exact ⟨.refl _, rfl⟩
    | some snippets =>
      cases hname : snippets.get? name with
      | none => simpa only [hname] using ⟨.refl _, rfl⟩
      | some template => simpa only [hname] using ⟨hsubs.fill template, rfl⟩

end IdlStencil.Render

namespace IdlStencil.Emission

open Render
open Idl (PackageUnit)

theorem render_keeping (table : Snippet.Table) (sectionName : String) (u : PackageUnit) :
    newlines.Made (fun texts => Option.Rel Blanked (texts true) (texts false)) fun keep =>
      (Emission.mk table sectionName (some keep)).render u := by
  cases hi : u.interface with
  | none =>
    simp only [render, hi]
    exact ⟨.none, rfl⟩
  | some interface =>
    by_cases hs : table.section? sectionName = none
    · simp only [render, hi, hs, Option.isNone_none, if_true]
      exact ⟨.some (.refl _), rfl⟩
    · have K := newlines_keeps table sectionName u.package interface.name
      have hfacts := K.unitFacts (fun _ => rfl) u interface.annotations
      have hfile := K.snip (.fixed (by decide : "file" ∈ fixedSnippets)) hfacts.value
      simp only [render, hi, hs, Option.isNone_iff_eq_none, if_false]
      exact .bind hfacts.notes (.bind hfile.notes (.pure (.some hfile.value)))

/-- A pass that keeps the newlines of parameters and one that does not end with the same status,
whatever the sink, and note the same; and their texts are of one length and agree in every place, a
newline of the first apart that is a blank of the second. -/
theorem emit_keeping (table : Snippet.Table) (sectionName : String) (u : PackageUnit) :
    let keeping : Emission := ⟨table, sectionName, some true⟩
    let flat : Emission := ⟨table, sectionName, some false⟩
    (∀ sink : Sink, keeping.emit u sink.write = flat.emit u sink.write) ∧
      (keeping.render u).notes = (flat.render u).notes ∧
      Option.Rel Blanked (keeping.render u).value (flat.render u).value := by
  intro keeping flat
  obtain ⟨hvalue, hnotes⟩ : Option.Rel Blanked (keeping.render u).value (flat.render u).value ∧
      (keeping.render u).notes = (flat.render u).notes :=
    ⟨(render_keeping table sectionName u).value, (render_keeping table sectionName u).notes⟩
  refine ⟨fun sink => ?_, hnotes, hvalue⟩
  have htext {s t : String} (h : Blanked s t) : sink.write s = sink.write t := by
    cases sink <;> simp only [Sink.write, h.byteSize_eq]
  simp only [emit]
  generalize keeping.render u = kept, flat.render u = flattened at hvalue hnotes
  obtain ⟨value, notes⟩ := kept
  obtain ⟨value', notes'⟩ := flattened
  obtain rfl : notes = notes' := hnotes
  cases hvalue with
  | none => rfl
  | some h => ext1 <;> simp only [Noted.value_bind, Noted.notes_bind, htext h]

end IdlStencil.Emission
