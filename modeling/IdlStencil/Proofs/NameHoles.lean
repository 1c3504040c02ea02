import IdlStencil.Proofs.Parametric

/-!
# Names are put in as they are

The names of the package and of the interface reach a text through snippets within snippets,
newlines turned into blanks, and choices between a plain form and a special one. None of this looks
into the names: the text of a unit is made of pieces that are chosen before the names are known
(`Emission.render_eq_assemble`). So a name that is a key, or that forms one with the text around it,
is not replaced.
-/

namespace IdlStencil.Render

/-- A name: some text on one line. -/
structure OneLine where
  text : String
  ne_empty : text ≠ ""
  no_newline : '\n' ∉ text.toList

/-- A piece of a text whose names are not known yet. -/
inductive Piece where
  | fixed (text : String)
  | package
  | interface
  deriving DecidableEq, Repr

/-- The piece with the names put in. -/
def Piece.put (package interface : OneLine) : Piece → String
  | .fixed text => text
  | .package => package.text
  | .interface => interface.text

/-- The pieces one after another, with the names put in. -/
def assemble (package interface : OneLine) (pieces : List Piece) : String :=
  String.join (pieces.map (Piece.put package interface))

/-! ## Pieces are closed under rendering -/

theorem flatten_append (s t : String) : flatten (s ++ t) = flatten s ++ flatten t := by
  simp [flatten, String.ofList_append]

theorem OneLine.flatten_text (name : OneLine) : flatten name.text = name.text := by
  have hline (c : Char) (hc : c ∈ name.text.toList) : (if c = '\n' then ' ' else c) = c := by
    refine if_neg fun h => name.no_newline ?_
    rwa [← h]
  rw [flatten, List.map_congr_left hline, List.map_id', String.ofList_toList]

/-- The fixed text of a piece on one line. -/
def Piece.flat : Piece → Piece
  | .fixed text => .fixed (flatten text)
  | piece => piece

variable {package interface : OneLine}

theorem Piece.put_flat (piece : Piece) :
    piece.flat.put package interface = flatten (piece.put package interface) := by
  cases piece with
  | fixed text => rfl
  | package => exact package.flatten_text.symm
  | interface => exact interface.flatten_text.symm

theorem Piece.put_eq_empty_iff (piece : Piece) :
    piece.put package interface = "" ↔ piece = .fixed "" := by
  cases piece with
  | fixed text => simp [put]
  | package => simp [put, package.ne_empty]
  | interface => simp [put, interface.ne_empty]

theorem assemble_flat (pieces : List Piece) :
    assemble package interface (pieces.map Piece.flat) =
      flatten (assemble package interface pieces) := by
  induction pieces with
  | nil => rfl
  | cons piece pieces ih => simp_all [assemble, flatten_append, Piece.put_flat]

theorem assemble_eq_empty_iff (pieces : List Piece) :
    assemble package interface pieces = "" ↔ ∀ piece ∈ pieces, piece = .fixed "" := by
  induction pieces with
  | nil => simp [assemble]
  | cons piece pieces ih => simp_all [assemble, Piece.put_eq_empty_iff]

/-- Texts that are made of the same pieces for all names. -/
def holes : Parametric (OneLine × OneLine) where
  Text f := ∃ pieces, ∀ names, f names = assemble names.1 names.2 pieces
  Notes _ := True
  const s := ⟨[.fixed s], fun _ => by simp [assemble, Piece.put]⟩
  append := by
    rintro f g ⟨ps, hf⟩ ⟨qs, hg⟩
    exact ⟨ps ++ qs, fun names => by simp [hf, hg, assemble]⟩
  flatten := by
    rintro f ⟨ps, hf⟩
    exact ⟨ps.map Piece.flat, fun names => by simp only [hf, assemble_flat]⟩
  empty_or := by
    rintro f ⟨ps, hf⟩
    simp only [hf, ne_eq, assemble_eq_empty_iff]
    by_cases h : ∀ piece ∈ ps, piece = .fixed ""
    · exact .inl fun _ => h
    · exact .inr fun _ => h
  silent := trivial
  notes_append _ _ := trivial

theorem holes_keeps (e : Emission) : holes.Keeps fun names =>
    Context.of e.table e.sectionName names.1.text names.2.text e.multiline where
  package := ⟨[.package], fun _ => by simp [assemble, Piece.put, Context.of]⟩
  interface := ⟨[.interface], fun _ => by simp [assemble, Piece.put, Context.of]⟩
  special hf := by
    cases hkeep : e.multiline.getD (e.sectionName = "json") with
    | true => simpa [special, Context.of, hkeep] using hf
    | false => simpa [special, Context.of, hkeep] using holes.flatten hf
  snip {name subs} _ hsubs := by
    refine ⟨?_, trivial⟩
    simp only [Context.snip, Context.of]
    cases e.table.section? e.sectionName with
    | none => exact holes.const ""
    | some snippets =>
      cases hname : snippets.get? name with
      | none => simpa [hname] using holes.const ""
      | some template => simpa [hname] using hsubs.fill template

end IdlStencil.Render

namespace IdlStencil.Emission

open Render
open Idl (PackageUnit Interface)

/-- The text of a unit is made of pieces that do not depend on its package and on the name of its
interface. -/
theorem render_eq_assemble (e : Emission) (u : PackageUnit) (interface : Interface) :
    ∃ pieces : List Piece, ∀ p i : OneLine,
      (e.render { u with
        package := p.text, interface := some { interface with name := i.text } }).value =
          some (assemble p i pieces) := by
  by_cases hs : e.table.section? e.sectionName = none
  · exact ⟨[], fun p i => by simp [render, hs, assemble]⟩
  · have hfacts := (holes_keeps e).unitFacts (fun _ => trivial) u interface.annotations
    have hfile := (holes_keeps e).snip (.fixed (by decide : "file" ∈ fixedSnippets)) hfacts.value
    obtain ⟨pieces, hpieces⟩ := hfile.value
    refine ⟨pieces, fun p i => ?_⟩
    simp only [render, hs, Option.isNone_iff_eq_none, if_false, Noted.value_bind, Noted.value_pure]
    exact congrArg some (hpieces (p, i))

/-- A package with the name of the key that its text is put in for, and an interface whose name ends
another key: the pieces are those of plain names. -/
theorem render_eq_assemble_of_keys :
    let table := Snippet.Table.ofPairs [("s", [("file", "declarations"),
      ("declare_struct", "struct_fields"), ("field_decl_string", "package_name"),
      ("declare_function", "version_package_name")])]
    let text (p i : OneLine) := ((Emission.mk table "s" none).render
      { package := p.text, version := ⟨1, 0⟩, interface := some { name := i.text }
        declarations := [.struct "S" [{ name := "x", type := some .string }],
          .function { name := "f" }] }).value
    let key : OneLine := ⟨"declarations", by decide, by decide⟩
    let ending : OneLine := ⟨"string", by decide, by decide⟩
    let plain : OneLine := ⟨"p", by decide, by decide⟩
    ∃ pieces, (∀ p i, text p i = some (assemble p i pieces)) ∧
      assemble key ending pieces = "declarations;\nversion_string" ∧
      assemble plain plain pieces = "p;\nversion_p" := by
  intro table text key ending plain
  obtain ⟨pieces, hpieces⟩ := render_eq_assemble (Emission.mk table "s" none)
    { package := "", version := ⟨1, 0⟩
      declarations := [.struct "S" [{ name := "x", type := some .string }],
        .function { name := "f" }] } { name := "" }
  refine ⟨pieces, hpieces, ?_, ?_⟩
  · exact Option.some.inj ((hpieces key ending).symm.trans (by decide +kernel))
  · exact Option.some.inj ((hpieces plain plain).symm.trans (by decide +kernel))

end IdlStencil.Emission
