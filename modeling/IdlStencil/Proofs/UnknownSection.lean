import Mathlib.Logic.Basic
import Mathlib.Tactic.Choose
import IdlStencil.Proofs.Interleaving
import IdlStencil.Render.Declaration

/-!
# Rendering for a section that does not exist

A rendering knows the table by what it is told about snippets. This is made explicit by a `Query`,
which asks for snippets, goes on with the texts that come back, and notes diagnostics of its own. A
rendering is `Queried` if one query tells what it does for all tables and all sections. All renderings
are, by one induction on types, and from there for lists of fields, functions and declarations.

A section that does not exist answers as an empty one does, and notes its lack each time. So by
induction on queries both give the same text or facts, ask for the same snippets, and differ in their
notes by one warning for each snippet that is asked for (`missing_as_empty`).
-/

namespace IdlStencil.Render

open Template (Substitutions)
open Idl (Ty Field Function Declaration)

/-! ## Queries -/

/-- What a rendering does, apart from what the table tells it. -/
inductive Query (α : Type) where
  | done (a : α)
  | note (d : Diagnostic) (rest : Query α)
  /-- Goes on with the text of a snippet. -/
  | ask (name : String) (facts : Substitutions) (rest : String → Query α)

namespace Query

variable {α β : Type}

def bind (f : α → Query β) : Query α → Query β
  | .done a => f a
  | .note d rest => .note d (rest.bind f)
  | .ask name facts rest => .ask name facts fun text => (rest text).bind f

/-- The query in a context that answers it. -/
def run (cx : Context) : Query α → Noted α
  | .done a => pure a
  | .note d rest => do
    Noted.note d
    rest.run cx
  | .ask name facts rest => do (rest (← cx.snip name facts)).run cx

/-- The names of the snippets that are asked for, in order. -/
def asked (cx : Context) : Query α → List String
  | .done _ => []
  | .note _ rest => rest.asked cx
  | .ask name facts rest => name :: (rest (cx.snip name facts).value).asked cx

theorem run_bind (cx : Context) (f : α → Query β) (q : Query α) :
    (q.bind f).run cx = q.run cx >>= fun a => (f a).run cx := by
  induction q with
  | done a => rfl
  | note d rest ih => ext1 <;> simp [bind, run, ih]
  | ask name facts rest ih => ext1 <;> simp [bind, run, ih]

/-- Every answer is empty in both contexts, so that the query takes the same way. -/
theorem run_missing {missing empty : Context} {warning : Diagnostic}
    (hmissing : ∀ name facts, missing.snip name facts = ⟨"", [warning]⟩)
    (hempty : ∀ name facts, empty.snip name facts = pure "") (q : Query α) :
    (q.run missing).value = (q.run empty).value ∧ q.asked missing = q.asked empty ∧
      Interleaving [(q.run empty).notes, (q.asked missing).map fun _ => warning]
        (q.run missing).notes := by
  induction q with
  | done a => exact ⟨rfl, rfl, .nil (by simp [run, asked])⟩
  | note d rest ih =>
    obtain ⟨hvalue, hasked, hnotes⟩ := ih
    exact ⟨hvalue, hasked, .cons [] d hnotes⟩
  | ask name facts rest ih =>
    obtain ⟨hvalue, hasked, hnotes⟩ := ih ""
    simp only [run, asked, hmissing, hempty, Noted.value_bind, Noted.notes_bind, Noted.value_pure,
      Noted.notes_pure, List.nil_append, List.map_cons]
    exact ⟨hvalue, congrArg (name :: ·) hasked, .cons [_] warning hnotes⟩

end Query

/-! ## Renderings are queries -/

/-- The query does what the rendering does for all tables and all sections, with the names and
newlines of the context. As it cannot know the table, what it asks for is what the rendering looks up. -/
def Query.Serves {α : Type} (q : Query α) (cx : Context) (x : Context → Noted α) : Prop :=
  ∀ table sectionName, x { cx with table, sectionName } = q.run { cx with table, sectionName }

/-- The rendering knows the table by its answers alone. -/
def Queried {α : Type} (cx : Context) (x : Context → Noted α) : Prop := ∃ q : Query α, q.Serves cx x

namespace Queried

variable {cx : Context} {α β : Type}

theorem pure {g : Context → α}
    (h : ∀ table sectionName, g { cx with table, sectionName } = g cx := by exact fun _ _ => rfl) :
    Queried cx fun c => (Pure.pure (g c) : Noted α) :=
  ⟨.done (g cx), fun table sectionName => congrArg Pure.pure (h table sectionName)⟩

theorem note (d : Diagnostic) : Queried cx fun _ => Noted.note d :=
  ⟨.note d (.done ()), fun _ _ => rfl⟩

theorem snip {name : String} {facts : Context → Substitutions}
    (h : ∀ table sectionName, facts { cx with table, sectionName } = facts cx := by
      exact fun _ _ => rfl) :
    Queried cx fun c => c.snip name (facts c) := by
  refine ⟨.ask name (facts cx) .done, fun table sectionName => ?_⟩
  simp only [h]
  ext1 <;> simp [Query.run]

theorem bind {x : Context → Noted α} {f : Context → α → Noted β} (hx : Queried cx x)
    (hf : ∀ a, Queried cx fun c => f c a) : Queried cx fun c => x c >>= f c := by
  obtain ⟨q, hq⟩ := hx
  choose p hp using hf
  refine ⟨q.bind p, fun table sectionName => ?_⟩
  have hrest (a : α) := hp a table sectionName
  simp only [Query.run_bind, hq table sectionName, ← hrest]

theorem traverse {f : Context → α → Noted β} {as : List α} (h : ∀ a, Queried cx fun c => f c a) :
    Queried cx fun c => Noted.traverse (f c) as := by
  induction as with
  | nil => exact .pure
  | cons a as ih => exact .bind (h a) fun _ => .bind ih fun _ => .pure

theorem concat {f : Context → α → Noted String} {as : List α} (h : ∀ a, Queried cx fun c => f c a) :
    Queried cx fun c => Noted.concat (f c) as :=
  .bind (.traverse h) fun _ => .pure

end Queried

variable {cx : Context}

/-! ### Types and fields -/

mutual

theorem queried_spell : ∀ t : Ty, Queried cx (spell · t)
  | .scalar _ | .named _ _ | .sealed | .string | .handle => by
    simp only [spell]
    exact .pure
  | .vec base | .array base _ | .ref base => by
    simp only [spell]
    exact .bind (queried_spell base) fun _ => .pure
  | .enum _ fields => by
    simp only [spell]
    exact .bind (queried_parameters false fields) fun _ => .pure
  | .union fields | .struct fields => by
    simp only [spell]
    exact .bind (queried_members fields) fun _ => .pure

theorem queried_typeFacts : ∀ t : Ty, Queried cx (typeFacts · t)
  | .scalar _ | .union _ | .struct _ | .sealed | .string | .handle => by
    simp only [typeFacts]
    exact .pure
  | .vec base | .array base _ | .ref base | .enum base _ => by
    simp only [typeFacts]
    exact .bind (queried_spell base) fun _ => .pure
  | .named _ base => by
    simp only [typeFacts]
    exact .bind (queried_typeFacts base) fun _ => .pure

theorem queried_parameters (omitNames : Bool) :
    ∀ fields : List Field, Queried cx (parameters · omitNames fields)
  | [] => by
    simp only [parameters]
    exact .pure
  | f :: fs => by
    simp only [parameters]
    exact .bind (queried_parameter omitNames f) fun _ =>
      .bind (queried_parameters omitNames fs) fun _ => .pure

theorem queried_parameter (omitNames : Bool) : ∀ f : Field, Queried cx (parameter · omitNames f)
  | ⟨name, some t, value, annot⟩ => by
    simp only [parameter]
    refine .bind (queried_typeFacts t) fun facts => .bind (.concat fun _ => .snip) fun text => ?_
    split
    · exact .bind (queried_spell t) fun _ => .pure
    · exact .pure
  | ⟨name, none, value, annot⟩ => by
    simp only [parameter]
    exact .pure

theorem queried_members : ∀ fields : List Field, Queried cx (members · fields)
  | [] => by
    simp only [members]
    exact .pure
  | f :: fs => by
    simp only [members]
    exact .bind (queried_member f) fun _ => .bind (queried_members fs) fun _ => .pure

theorem queried_member : ∀ f : Field, Queried cx (member · f)
  | ⟨name, some t, value, annot⟩ => by
    simp only [member]
    refine .bind (queried_typeFacts t) fun facts => .bind (.concat fun _ => .snip) fun text => ?_
    split
    · exact .bind (queried_spell t) fun _ => .pure
    · exact .pure
  | ⟨name, none, value, annot⟩ => by
    simp only [member]
    exact .pure

end

theorem queried_fieldFacts (f : Field) : Queried cx (fieldFacts · f) := by
  simp only [fieldFacts]
  split
  · exact .bind (queried_typeFacts _) fun _ => .pure
  · exact .pure

theorem queried_commaList (omitNames : Bool) (fields : List Field) :
    Queried cx (commaList · omitNames fields) :=
  .bind (queried_parameters omitNames fields) fun _ => .pure

theorem queried_semiBlock (fields : List Field) : Queried cx (semiBlock · fields) :=
  .bind (queried_members fields) fun _ => .pure

theorem queried_nameList (snippet : Option String) (fields : List Field) :
    Queried cx (nameList · snippet fields) := by
  refine .bind (.traverse fun f => ?_) fun _ => .pure
  split
  · exact .bind .snip fun _ => .pure
  · exact .pure

theorem queried_byType (stem : String) (fields : List Field) : Queried cx (byType · stem fields) :=
  .concat fun p => .bind (queried_fieldFacts p.1) fun _ => .snip

theorem queried_bySuffix (stem : String) (fields : List Field) :
    Queried cx (bySuffix · stem fields) :=
  .concat fun p => .bind (queried_fieldFacts p.1) fun _ => .concat fun _ => .snip

theorem queried_samples (f : Field) (t : Ty) : Queried cx (samples · f t) := by
  simp only [samples]
  split
  · exact .pure
  · refine .concat fun value => ?_
    cases value with
    | ok literal => exact .snip
    | error e => exact .bind (.note _) fun _ => .pure

theorem queried_suiteArgs (label : String) (fields : List Field) :
    Queried cx (suiteArgs · label fields) :=
  .concat fun p => .bind (queried_spell p.2) fun _ =>
    .bind (queried_samples p.1 p.2) fun _ => .snip

/-! ### Functions and declarations -/

theorem queried_callbackParam (f : Function) : Queried cx (callbackParam · f) := by
  simp only [callbackParam]
  split
  · exact .bind .snip fun _ => .pure
  · exact .pure

theorem queried_paramsAndCallback (f : Function) : Queried cx (paramsAndCallback · f) :=
  .bind (queried_commaList false f.params) fun _ => .bind (queried_callbackParam f) fun _ => .pure

theorem queried_addAll (parts : CallParts) (facts : List CallFact) :
    Queried cx (parts.addAll · facts) := by
  induction facts generalizing parts with
  | nil => exact .pure
  | cons fact facts ih =>
    refine .bind ?_ fun _ => ih _
    cases fact <;> exact .bind .snip fun _ => .pure

theorem queried_renderCallFlow (flow : CallFlow) : Queried cx (renderCallFlow · flow) := by
  refine .bind (queried_addAll {} flow.facts) fun parts => ?_
  split
  · exact .pure
  · exact .snip

theorem queried_noteErrors (es : List AnnotError) : Queried cx fun _ => noteErrors es := by
  induction es with
  | nil => exact .pure
  | cons e es ih => exact .bind (.note _) fun _ => ih

theorem queried_callbackInvocation (f : Function) : Queried cx (callbackInvocation · f) := by
  simp only [callbackInvocation]
  split
  · exact .bind (queried_nameList none f.generates) fun _ => .snip
  · exact .pure

theorem queried_functionFacts (f : Function) : Queried cx (functionFacts · f) :=
  .bind (queried_commaList false f.params) fun _ =>
  .bind (queried_callbackParam f) fun _ =>
  .bind (queried_callbackInvocation f) fun _ =>
  .bind (queried_suiteArgs _ f.generates) fun _ =>
  .bind (queried_suiteArgs _ f.params) fun _ =>
  .bind (queried_noteErrors _) fun _ =>
  .bind (queried_commaList false f.generates) fun _ =>
  .bind (queried_nameList none f.params) fun _ =>
  .bind (queried_nameList _ f.generates) fun _ =>
  .bind (queried_bySuffix _ f.generates) fun _ =>
  .bind (queried_bySuffix _ f.generates) fun _ =>
  .bind (queried_bySuffix _ f.params) fun _ =>
  .bind (queried_bySuffix _ f.params) fun _ =>
  .bind (queried_semiBlock f.params) fun _ =>
  .bind (queried_semiBlock f.generates) fun _ =>
  .bind (queried_renderCallFlow _) fun _ => .pure

theorem queried_declare (d : Declaration) : Queried cx (declare · d) := by
  cases d with
  | const name value => exact .snip
  | typedef name base => exact .bind (queried_spell base) fun _ => .pure
  | struct name fields | union name fields => exact .bind (queried_semiBlock fields) fun _ => .pure
  | enum name storage fields =>
    exact .bind (queried_spell storage) fun _ => .bind (queried_commaList false fields) fun _ => .pure
  | imported name => exact .pure
  | function f => exact .bind (queried_paramsAndCallback f) fun _ => .pure

theorem queried_declarationFacts (d : Declaration) : Queried cx (declarationFacts · d) := by
  cases d with
  | const name value => exact .pure
  | typedef name base => exact .bind (queried_typeFacts base) fun _ => .pure
  | struct name fields | union name fields =>
    exact .bind (queried_semiBlock fields) fun _ => .bind (queried_byType _ fields) fun _ => .pure
  | enum name storage fields =>
    exact .bind (queried_commaList false fields) fun _ => .bind (queried_spell storage) fun _ =>
      .bind (queried_nameList _ fields) fun _ => .pure
  | imported name => exact .pure
  | function f => exact queried_functionFacts f

/-! ## Missing and empty sections -/

/-- The rendering gives the same for the section of the context, which its table lacks, as over a
table where that section is empty. What it notes are the notes for the empty section, in order, with
one warning more for each snippet that it asks for. -/
structure AsIfEmpty {α : Type} (cx : Context) (table : Snippet.Table) (x : Context → Noted α) :
    Prop where
  value : (x cx).value = (x { cx with table }).value
  queried : Queried cx x
  notes (q : Query α) (h : q.Serves cx x) : q.asked cx = q.asked { cx with table } ∧
    Interleaving [(x { cx with table }).notes,
      (q.asked cx).map fun _ => missingSection cx.sectionName] (x cx).notes

theorem Queried.asIfEmpty {α : Type} {x : Context → Noted α} (hx : Queried cx x)
    (hmissing : cx.table.section? cx.sectionName = none) {table : Snippet.Table}
    (hempty : table.section? cx.sectionName = some .empty) : AsIfEmpty cx table x := by
  have hwarned (name : String) (facts : Substitutions) :
      cx.snip name facts = ⟨"", [missingSection cx.sectionName]⟩ := by
    simp only [Context.snip, hmissing]
  have hsilent (name : String) (facts : Substitutions) :
      { cx with table }.snip name facts = Pure.pure "" := by
    simp only [Context.snip, hempty, OrderedMap.get?_empty]
  have hruns {q : Query α} (hq : q.Serves cx x) :
      x cx = q.run cx ∧ x { cx with table } = q.run { cx with table } :=
    ⟨hq cx.table cx.sectionName, hq table cx.sectionName⟩
  refine ⟨?_, hx, fun q hq => ?_⟩
  · obtain ⟨q, hq⟩ := hx
    obtain ⟨hcx, hother⟩ := hruns hq
    rw [hcx, hother]
    exact (q.run_missing hwarned hsilent).1
  · obtain ⟨hcx, hother⟩ := hruns hq
    rw [hcx, hother]
    exact (q.run_missing hwarned hsilent).2

/-- Whatever is rendered for a section that does not exist is as if the section was empty, apart from
the warnings. -/
theorem missing_as_empty (hmissing : cx.table.section? cx.sectionName = none)
    {table : Snippet.Table} (hempty : table.section? cx.sectionName = some .empty) :
    (∀ d : Declaration, AsIfEmpty cx table (declare · d) ∧ AsIfEmpty cx table (declarationFacts · d)) ∧
    (∀ t : Ty, AsIfEmpty cx table (spell · t) ∧ AsIfEmpty cx table (typeFacts · t)) ∧
    (∀ f : Field, AsIfEmpty cx table (fieldFacts · f)) ∧
    (∀ fields : List Field,
      (∀ omitNames, AsIfEmpty cx table (commaList · omitNames fields)) ∧
      (∀ snippet, AsIfEmpty cx table (nameList · snippet fields)) ∧
      AsIfEmpty cx table (semiBlock · fields) ∧
      (∀ stem, AsIfEmpty cx table (byType · stem fields)) ∧
      (∀ stem, AsIfEmpty cx table (bySuffix · stem fields)) ∧
      ∀ label, AsIfEmpty cx table (suiteArgs · label fields)) ∧
    (∀ f : Function, AsIfEmpty cx table (functionFacts · f) ∧
      AsIfEmpty cx table (paramsAndCallback · f)) ∧
    ∀ flow : CallFlow, AsIfEmpty cx table (renderCallFlow · flow) := by
  have hasIf {α : Type} {x : Context → Noted α} (hx : Queried cx x) : AsIfEmpty cx table x :=
    hx.asIfEmpty hmissing hempty
  refine ⟨fun d => ⟨hasIf (queried_declare d), hasIf (queried_declarationFacts d)⟩,
    fun t => ⟨hasIf (queried_spell t), hasIf (queried_typeFacts t)⟩,
    fun f => hasIf (queried_fieldFacts f), fun fields => ?_,
    fun f => ⟨hasIf (queried_functionFacts f), hasIf (queried_paramsAndCallback f)⟩,
    fun flow => hasIf (queried_renderCallFlow flow)⟩
  exact ⟨fun omitNames => hasIf (queried_commaList omitNames fields),
    fun snippet => hasIf (queried_nameList snippet fields), hasIf (queried_semiBlock fields),
    fun stem => hasIf (queried_byType stem fields), fun stem => hasIf (queried_bySuffix stem fields),
    fun label => hasIf (queried_suiteArgs label fields)⟩

/-- A field with two sample values, of which the first lacks its literal. -/
theorem missing_as_empty_with_error :
    let cx : Context := { table := .empty, sectionName := "s" }
    let table : Snippet.Table := ⟨.insert .empty "s" .empty⟩
    let annot : Idl.Annot := (Idl.Annot.mk "a" 7 [] .empty).addEntry "normal" [none, some (.number "1")]
    let field : Field := { name := "x", type := some (.scalar .int8), annot := some annot }
    (cx.table.section? cx.sectionName = none ∧ table.section? cx.sectionName = some .empty) ∧
      AsIfEmpty cx table (suiteArgs · "arg" [field]) ∧
      (suiteArgs cx "arg" [field]).notes = [(AnnotError.missingValue "normal" 7).diagnostic,
        missingSection "s", missingSection "s"] := by
  intro cx table annot field
  have hmissing : cx.table.section? cx.sectionName = none := rfl
  have hempty : table.section? cx.sectionName = some .empty := rfl
  have hfields := (missing_as_empty hmissing hempty).2.2.2.1 [field]
  exact ⟨⟨hmissing, hempty⟩, hfields.2.2.2.2.2 "arg", rfl⟩

end IdlStencil.Render
