import IdlStencil.Emission

/-!
# Rendering is parametric

A family of contexts is rendered at once, one context an index. `Parametric` is a property of
families of texts and families of notes that is closed under everything a rendering does besides
asking the section for a snippet. If the contexts keep it when they are asked (`Parametric.Keeps`),
every rendering has it: of types and fields, by one induction on types, and from there of lists of
fields, functions, declarations and units.

The snippets a rendering may ask for are named by `Asked`.
-/

namespace IdlStencil.Render

open Template (Substitutions)
open Idl (Ty Field Function Declaration)

/-! ## Snippets that are asked for -/

/-- The names of snippets that do not depend on a type or declaration. -/
def fixedSnippets : List String :=
  ["file", "component_type_enum", "import_line", "callback_decl_line", "first_call_enum",
    "namespace_open_line", "namespace_close_line", "callback_param", "callback_invocation",
    "return_param_decl", "enum_quoted_name", "vts_args", "vts_values", "vts_callflow", "anno_entry",
    "anno_exit", "anno_calls"]

/-- The beginnings of names that go on with a suffix or the kind of a type. -/
def typeStems : List String :=
  ["param_decl_", "field_decl_", "param_write_", "param_read_", "struct_field_", "union_field_"]

/-- The beginnings of names that go on with the kind of a declaration. -/
def declarationStems : List String := ["declare_", "code_for_"]

/-- The name of a snippet that a rendering may ask for. -/
inductive Asked : String → Prop where
  | fixed {name : String} (h : name ∈ fixedSnippets) : Asked name
  | suffix {stem : String} (h : stem ∈ typeStems) (t : Ty) : Asked (stem ++ t.suffix)
  | kindSuffix {stem : String} (h : stem ∈ typeStems) (t : Ty) : Asked (stem ++ t.kindSuffix)
  | kind {stem : String} (h : stem ∈ typeStems) (t : Ty) : Asked (stem ++ t.kind)
  | declaration {stem : String} (h : stem ∈ declarationStems) (d : Declaration) :
      Asked (stem ++ d.kind)

/-! ## Families -/

/-- A property of families of texts and of notes that renderings cannot break. -/
structure Parametric (ι : Type) where
  Text : (ι → String) → Prop
  Notes : (ι → List Diagnostic) → Prop
  const (s : String) : Text fun _ => s
  append {f g : ι → String} (hf : Text f) (hg : Text g) : Text fun i => f i ++ g i
  flatten {f : ι → String} (hf : Text f) : Text fun i => flatten (f i)
  /-- Texts are empty for all indices or for none. -/
  empty_or {f : ι → String} (hf : Text f) : (∀ i, f i = "") ∨ ∀ i, f i ≠ ""
  silent : Notes fun _ => []
  notes_append {m n : ι → List Diagnostic} (hm : Notes m) (hn : Notes n) : Notes fun i => m i ++ n i

/-- Two renderings note the same. -/
def SameNotes (notes : Bool → List Diagnostic) : Prop := notes true = notes false

theorem SameNotes.silent : SameNotes fun _ => [] := rfl

theorem SameNotes.append {m n : Bool → List Diagnostic} (hm : SameNotes m) (hn : SameNotes n) :
    SameNotes fun i => m i ++ n i := by
  simp only [SameNotes] at hm hn ⊢
  rw [hm, hn]

namespace Parametric

variable {ι : Type}

/-- Lists of one length for every index, with a property of each place. -/
inductive Each {α : Type} (V : (ι → α) → Prop) : (ι → List α) → Prop where
  | nil : Each V fun _ => []
  | cons {f : ι → α} {fs : ι → List α} (hf : V f) (hfs : Each V fs) : Each V fun i => f i :: fs i

variable (R : Parametric ι)

/-- Facts with the same keys for every index. -/
inductive Facts : (ι → Substitutions) → Prop where
  | nil : Facts fun _ => []
  | cons (key : String) {f : ι → String} {s : ι → Substitutions} (hf : R.Text f) (hs : Facts s) :
      Facts fun i => (key, f i) :: s i

/-- The values have a property, and the notes are as they should be. -/
structure Made {α : Type} (V : (ι → α) → Prop) (x : ι → Noted α) : Prop where
  value : V fun i => (x i).value
  notes : R.Notes fun i => (x i).notes

variable {R}

theorem Facts.append {s t : ι → Substitutions} (hs : R.Facts s) (ht : R.Facts t) :
    R.Facts fun i => s i ++ t i := by
  induction hs with
  | nil => exact ht
  | cons key hf _ ih => exact .cons key hf ih

/-- A key is found at the same place for every index. -/
theorem Facts.get {s : ι → Substitutions} (hs : R.Facts s) (key : String) :
    R.Text fun i => ((s i).get? key).getD "" := by
  induction hs with
  | nil => exact R.const ""
  | cons key' hf _ ih =>
    by_cases h : key = key'
    · simpa [Substitutions.get?, h] using hf
    · have h' : (key == key') = false := by simpa using h
      simpa [Substitutions.get?, List.lookup_cons, h'] using ih

theorem Facts.keys {s : ι → Substitutions} (hs : R.Facts s) : ∃ keys, ∀ i, (s i).keys = keys := by
  induction hs with
  | nil => exact ⟨[], fun _ => rfl⟩
  | cons key _ _ ih =>
    obtain ⟨keys, hkeys⟩ := ih
    exact ⟨key :: keys, fun i => congrArg (key :: ·) (hkeys i)⟩

/-- What is replaced depends on the keys alone, and a replacement is not looked at again. -/
theorem replace (keys : List (List Char)) {value : ι → List Char → List Char}
    (hvalue : ∀ key, R.Text fun i => String.ofList (value i key)) (skip : Nat) (text : List Char) :
    R.Text fun i => String.ofList (Template.replace keys (value i) skip text) := by
  induction text generalizing skip with
  | nil => simpa [Template.replace] using R.const ""
  | cons c cs ih =>
    cases skip with
    | succ skip => simpa [Template.replace] using ih skip
    | zero =>
      simp only [Template.replace]
      split
      · simpa [String.ofList_append] using R.append (hvalue _) (ih _)
      · simpa [String.ofList_cons] using R.append (R.const (String.singleton c)) (ih 0)

theorem Facts.fill {s : ι → Substitutions} (hs : R.Facts s) (template : String) :
    R.Text fun i => Template.fill template (s i) := by
  obtain ⟨keys, hkeys⟩ := hs.keys
  simp only [Template.fill, Template.candidates, hkeys]
  exact replace _ (fun key => by simpa using hs.get (String.ofList key)) 0 template.toList

theorem Each.join {fs : ι → List String} (h : Each R.Text fs) : R.Text fun i => String.join (fs i) := by
  induction h with
  | nil => exact R.const _
  | cons hf _ ih => simpa using R.append hf ih

theorem Each.intercalate {fs : ι → List String} (separator : String) (h : Each R.Text fs) :
    R.Text fun i => separator.intercalate (fs i) := by
  induction h with
  | nil => exact R.const _
  | cons hf hfs ih =>
    cases hfs with
    | nil => simpa using hf
    | cons => simpa using R.append (R.append hf (R.const separator)) ih

namespace Made

variable {α β : Type} {V : (ι → α) → Prop} {W : (ι → β) → Prop}

theorem pure {g : ι → α} (h : V g) : R.Made V fun i => (pure (g i) : Noted α) := ⟨h, R.silent⟩

theorem bind {x : ι → Noted α} {f : ι → α → Noted β} (hx : R.Notes fun i => (x i).notes)
    (hf : R.Made W fun i => f i (x i).value) : R.Made W fun i => x i >>= f i :=
  ⟨hf.value, R.notes_append hx hf.notes⟩

theorem traverse {f : ι → α → Noted β} {as : List α} (h : ∀ a ∈ as, R.Made W fun i => f i a) :
    R.Made (Each W) fun i => Noted.traverse (f i) as := by
  induction as with
  | nil => exact .pure .nil
  | cons a as ih =>
    have ha := h a List.mem_cons_self
    have has := ih fun b hb => h b (List.mem_cons_of_mem _ hb)
    exact .bind ha.notes (.bind has.notes (.pure (.cons ha.value has.value)))

theorem concat {f : ι → α → Noted String} {as : List α}
    (h : ∀ a ∈ as, R.Made R.Text fun i => f i a) :
    R.Made R.Text fun i => Noted.concat (f i) as :=
  .bind (traverse h).notes (.pure (traverse h).value.join)

theorem intercalated {f : ι → α → Noted String} {as : List α} (separator : String)
    (h : ∀ a ∈ as, R.Made R.Text fun i => f i a) :
    R.Made R.Text fun i => Noted.traverse (f i) as >>= fun texts =>
      Pure.pure (separator.intercalate texts) :=
  .bind (traverse h).notes (.pure ((traverse h).value.intercalate separator))

end Made

/-- The contexts keep the property when they are asked for a snippet. -/
structure Keeps (R : Parametric ι) (cx : ι → Context) : Prop where
  package : R.Text fun i => (cx i).package
  interface : R.Text fun i => (cx i).interface
  special {f : ι → String} (hf : R.Text f) : R.Text fun i => special (cx i).multiline (f i)
  snip {name : String} {subs : ι → Substitutions} (hname : Asked name) (hsubs : R.Facts subs) :
    R.Made R.Text fun i => (cx i).snip name (subs i)

/-! ## Types and fields -/

namespace Keeps

variable {cx : ι → Context}

theorem ownFacts (K : R.Keeps cx) (f : Field) : R.Facts fun i => Render.ownFacts (cx i) f :=
  .cons _ (R.const _) <| .cons _ K.package <| .cons _ (R.const _) .nil

/-- Several snippets filled with the same facts. -/
theorem snips (K : R.Keeps cx) {names : List String} {subs : ι → Substitutions}
    (hnames : ∀ name ∈ names, Asked name) (hsubs : R.Facts subs) :
    R.Made R.Text fun i => Noted.concat ((cx i).snip · (subs i)) names :=
  .concat fun name hname => K.snip (hnames name hname) hsubs

theorem asked_suffixSnippets {stem : String} (hstem : stem ∈ typeStems) (t : Ty) :
    ∀ name ∈ suffixSnippets stem t, Asked name := by
  intro name hname
  simp only [suffixSnippets, List.mem_cons, List.not_mem_nil, or_false] at hname
  rcases hname with rfl | rfl
  · exact .suffix hstem t
  · exact .kindSuffix hstem t

theorem asked_parameterSnippets (t : Ty) : ∀ name ∈ parameterSnippets t, Asked name := by
  intro name hname
  rw [parameterSnippets, List.mem_eraseDups, List.mem_append, List.mem_singleton] at hname
  rcases hname with hname | rfl
  · exact asked_suffixSnippets (by decide) t name hname
  · exact .kind (by decide) t

theorem asked_memberSnippets (t : Ty) : ∀ name ∈ memberSnippets t, Asked name :=
  asked_suffixSnippets (by decide) t

/-- The choice between a plain form and a special one is the same for every index. -/
theorem choose {text : ι → String} (htext : R.Text text) {x y : ι → Noted String}
    (hx : R.Made R.Text x) (hy : R.Made R.Text y) :
    R.Made R.Text fun i => if (text i).isEmpty then x i else y i := by
  rcases R.empty_or htext with h | h
  · simpa [h] using hx
  · simpa [String.isEmpty_iff, h] using hy

mutual

theorem spell (K : R.Keeps cx) : ∀ t : Ty, R.Made R.Text fun i => Render.spell (cx i) t
  | .scalar _ | .named _ _ | .sealed | .string | .handle => by
    simp only [Render.spell]
    exact .pure (R.const _)
  | .vec base | .ref base => by
    simp only [Render.spell]
    exact .bind (K.spell base).notes
      (.pure (R.append (R.append (R.const _) (K.spell base).value) (R.const _)))
  | .array base dimension => by
    simp only [Render.spell]
    exact .bind (K.spell base).notes (.pure
      (R.append (R.append (R.append (K.spell base).value (R.const _)) (R.const _)) (R.const _)))
  | .enum _ fields => by
    simp only [Render.spell]
    have h := K.parameters false fields
    exact .bind h.notes
      (.pure (R.append (R.append (R.const _) (h.value.intercalate _)) (R.const _)))
  | .union fields | .struct fields => by
    simp only [Render.spell]
    have h := K.members fields
    exact .bind h.notes (.pure (R.append (R.append (R.const _) h.value.join) (R.const _)))

theorem typeFacts (K : R.Keeps cx) : ∀ t : Ty, R.Made R.Facts fun i => Render.typeFacts (cx i) t
  | .scalar _ => by
    simp only [Render.typeFacts]
    exact .pure (.cons _ (R.const _) <| .cons _ (R.const _) .nil)
  | .vec base => by
    simp only [Render.typeFacts]
    exact .bind (K.spell base).notes (.pure (.cons _ (R.const _) <| .cons _ (K.spell base).value .nil))
  | .array base _ => by
    simp only [Render.typeFacts]
    exact .bind (K.spell base).notes
      (.pure (.cons _ (R.const _) <| .cons _ (R.const _) <| .cons _ (K.spell base).value .nil))
  | .enum storage _ => by
    simp only [Render.typeFacts]
    exact .bind (K.spell storage).notes (.pure (.cons _ (K.spell storage).value .nil))
  | .named _ base => by
    simp only [Render.typeFacts]
    exact .bind (K.typeFacts base).notes (.pure (.cons _ (R.const _) (K.typeFacts base).value))
  | .ref base => by
    simp only [Render.typeFacts]
    exact .bind (K.spell base).notes (.pure (.cons _ (K.spell base).value .nil))
  | .union _ | .struct _ | .sealed | .string | .handle => by
    simp only [Render.typeFacts]
    exact .pure .nil

theorem parameters (K : R.Keeps cx) (omitNames : Bool) :
    ∀ fields : List Field, R.Made (Each R.Text) fun i => Render.parameters (cx i) omitNames fields
  | [] => by
    simp only [Render.parameters]
    exact .pure .nil
  | f :: fs => by
    simp only [Render.parameters]
    have hf := K.parameter omitNames f
    have hfs := K.parameters omitNames fs
    exact .bind hf.notes (.bind hfs.notes (.pure (.cons hf.value hfs.value)))

theorem parameter (K : R.Keeps cx) (omitNames : Bool) :
    ∀ f : Field, R.Made R.Text fun i => Render.parameter (cx i) omitNames f
  | ⟨name, some t, value, annot⟩ => by
    simp only [Render.parameter]
    have hfacts := (K.ownFacts ⟨name, some t, value, annot⟩).append (K.typeFacts t).value
    have hsnips := K.snips (asked_parameterSnippets t) hfacts
    have hplain := K.spell t
    refine .bind (K.typeFacts t).notes (.bind hsnips.notes (choose hsnips.value ?_ ?_))
    · exact .bind hplain.notes (.pure (R.append (R.append hplain.value (R.const _)) (R.const _)))
    · exact .pure (K.special hsnips.value)
  | ⟨name, none, value, annot⟩ => by
    simp only [Render.parameter]
    exact .pure (R.const _)

theorem members (K : R.Keeps cx) :
    ∀ fields : List Field, R.Made (Each R.Text) fun i => Render.members (cx i) fields
  | [] => by
    simp only [Render.members]
    exact .pure .nil
  | f :: fs => by
    simp only [Render.members]
    have hf := K.member f
    have hfs := K.members fs
    exact .bind hf.notes (.bind hfs.notes (.pure (.cons hf.value hfs.value)))

theorem member (K : R.Keeps cx) : ∀ f : Field, R.Made R.Text fun i => Render.member (cx i) f
  | ⟨name, some t, value, annot⟩ => by
    simp only [Render.member]
    have hfacts := (K.ownFacts ⟨name, some t, value, annot⟩).append (K.typeFacts t).value
    have hsnips := K.snips (asked_memberSnippets t) hfacts
    have hplain := K.spell t
    refine .bind (K.typeFacts t).notes (.bind hsnips.notes (choose hsnips.value ?_ ?_))
    · exact .bind hplain.notes (.pure (R.append (R.append (R.append
        (R.append hplain.value (R.const _)) (R.const _)) (R.const _)) (R.const _)))
    · exact .pure (R.append (R.flatten hsnips.value) (R.const _))
  | ⟨name, none, value, annot⟩ => by
    simp only [Render.member]
    exact .pure (R.const _)

end

/-! ## Lists of fields -/

theorem fieldFacts (K : R.Keeps cx) (f : Field) : R.Made R.Facts fun i => Render.fieldFacts (cx i) f := by
  obtain ⟨name, type, value, annot⟩ := f
  cases type with
  | none => exact .pure (K.ownFacts _)
  | some t => exact .bind (K.typeFacts t).notes (.pure ((K.ownFacts _).append (K.typeFacts t).value))

theorem commaList (K : R.Keeps cx) (omitNames : Bool) (fields : List Field) :
    R.Made R.Text fun i => Render.commaList (cx i) omitNames fields :=
  .bind (K.parameters omitNames fields).notes
    (.pure ((K.parameters omitNames fields).value.intercalate _))

theorem semiBlock (K : R.Keeps cx) (fields : List Field) :
    R.Made R.Text fun i => Render.semiBlock (cx i) fields :=
  .bind (K.members fields).notes (.pure (K.members fields).value.join)

theorem nameList (K : R.Keeps cx) {snippet : Option String} (hsnippet : ∀ name ∈ snippet, Asked name)
    (fields : List Field) : R.Made R.Text fun i => Render.nameList (cx i) snippet fields := by
  refine .intercalated _ fun f _ => ?_
  cases snippet with
  | none => exact .pure (R.const _)
  | some name =>
    have h := K.snip (hsnippet name rfl) (.cons "param_name" (R.const f.name) .nil)
    exact .bind h.notes (.pure (R.flatten h.value))

theorem byType (K : R.Keeps cx) {stem : String} (hstem : stem ∈ typeStems) (fields : List Field) :
    R.Made R.Text fun i => Render.byType (cx i) stem fields :=
  .concat fun (f, t) _ => .bind (K.fieldFacts f).notes (K.snip (.kind hstem t) (K.fieldFacts f).value)

theorem bySuffix (K : R.Keeps cx) {stem : String} (hstem : stem ∈ typeStems) (fields : List Field) :
    R.Made R.Text fun i => Render.bySuffix (cx i) stem fields :=
  .concat fun (f, t) _ => .bind (K.fieldFacts f).notes
    (K.snips (asked_suffixSnippets hstem t) (K.fieldFacts f).value)

/-! ## Functions -/

theorem callbackParam (K : R.Keeps cx) (f : Function) :
    R.Made R.Text fun i => Render.callbackParam (cx i) f := by
  simp only [Render.callbackParam]
  split
  · have h := K.snip (.fixed (by decide : "callback_param" ∈ fixedSnippets))
      (.cons "function_name" (R.const f.name) <| .cons "package_name" K.package .nil)
    exact .bind h.notes (.pure (R.flatten h.value))
  · exact .pure (R.const _)

theorem joinParams {f g : ι → String} (hf : R.Text f) (hg : R.Text g) :
    R.Text fun i => Render.joinParams (f i) (g i) := by
  rcases R.empty_or hf with h | h
  · simpa [Render.joinParams, h] using hg
  · rcases R.empty_or hg with h' | h'
    · simpa [Render.joinParams, h'] using hf
    · simpa [Render.joinParams, String.isEmpty_iff, h, h'] using
        R.append (R.append hf (R.const ", ")) hg

theorem callbackInvocation (K : R.Keeps cx) (f : Function) :
    R.Made R.Text fun i => Render.callbackInvocation (cx i) f := by
  simp only [Render.callbackInvocation]
  split
  · have h : R.Made R.Text fun i => Render.nameList (cx i) none f.generates :=
      K.nameList (by simp) f.generates
    exact .bind h.notes (K.snip (.fixed (by decide)) (.cons _ h.value .nil))
  · exact .pure (R.const _)

theorem callEdge (K : R.Keeps cx) (label target : String) :
    R.Made R.Text fun i => Render.callEdge (cx i) label target :=
  K.snip (.fixed (by decide)) (.cons _ (R.const _) <| .cons _ (R.const _) .nil)

/-- The parts of a call flow are texts. -/
structure Parts (R : Parametric ι) (parts : ι → CallParts) : Prop where
  entry : R.Text fun i => (parts i).entry
  exit : R.Text fun i => (parts i).exit
  calls : R.Text fun i => (parts i).calls

theorem addPart (K : R.Keeps cx) {parts : ι → CallParts} (hparts : Parts R parts) (fact : CallFact) :
    R.Made (Parts R) fun i => (parts i).add (cx i) fact := by
  cases fact with
  | entry =>
    have h := K.snip (.fixed (by decide : "anno_entry" ∈ fixedSnippets)) .nil
    exact .bind h.notes (.pure ⟨h.value, hparts.exit, hparts.calls⟩)
  | exit =>
    have h := K.snip (.fixed (by decide : "anno_exit" ∈ fixedSnippets)) .nil
    exact .bind h.notes (.pure ⟨hparts.entry, h.value, hparts.calls⟩)
  | next target =>
    have h := K.callEdge "next" target
    exact .bind h.notes (.pure ⟨hparts.entry, hparts.exit, R.append hparts.calls h.value⟩)
  | prev target =>
    have h := K.callEdge "prev" target
    exact .bind h.notes (.pure ⟨hparts.entry, hparts.exit, R.append hparts.calls h.value⟩)

theorem addParts (K : R.Keeps cx) {parts : ι → CallParts} (hparts : Parts R parts)
    (facts : List CallFact) : R.Made (Parts R) fun i => (parts i).addAll (cx i) facts := by
  induction facts generalizing parts with
  | nil => exact .pure hparts
  | cons fact facts ih =>
    have h := K.addPart hparts fact
    exact .bind h.notes (ih h.value)

theorem isEmpty_append (s t : String) : (s ++ t).isEmpty = (s.isEmpty && t.isEmpty) := by
  rw [Bool.eq_iff_iff]
  simp [String.isEmpty_iff]

theorem renderCallFlow (K : R.Keeps cx) (flow : CallFlow) :
    R.Made R.Text fun i => Render.renderCallFlow (cx i) flow := by
  have hempty : Parts R fun _ : ι => ({} : CallParts) := ⟨R.const _, R.const _, R.const _⟩
  have hparts := K.addParts hempty flow.facts
  obtain ⟨hentry, hexit, hcalls⟩ := hparts.value
  refine .bind hparts.notes ?_
  have hall := R.append (R.append hentry hexit) hcalls
  have h := choose hall (.pure (R.const "")) (K.snip (.fixed (by decide : "vts_callflow" ∈ fixedSnippets))
    (.cons "anno_entry" hentry <| .cons "anno_exit" hexit <| .cons "anno_calls" hcalls .nil))
  simpa only [isEmpty_append] using h

theorem samples (K : R.Keeps cx) (hnote : ∀ e : AnnotError, R.Notes fun _ => [e.diagnostic])
    (f : Field) (t : Ty) : R.Made R.Text fun i => Render.samples (cx i) f t := by
  simp only [Render.samples]
  cases f.annot with
  | none => exact .pure (R.const _)
  | some a =>
    refine .concat fun value _ => ?_
    cases value with
    | ok literal => exact K.snip (.fixed (by decide)) (.cons _ (R.const _) <| .cons _ (R.const _) .nil)
    | error e => exact .bind (hnote e) (.pure (R.const _))

theorem suiteArgs (K : R.Keeps cx) (hnote : ∀ e : AnnotError, R.Notes fun _ => [e.diagnostic])
    (label : String) (fields : List Field) :
    R.Made R.Text fun i => Render.suiteArgs (cx i) label fields := by
  refine .concat fun (f, t) _ => ?_
  have hspell := K.spell t
  have hsamples := K.samples hnote f t
  refine .bind hspell.notes (.bind hsamples.notes (K.snip (.fixed (by decide)) ?_))
  exact .cons _ (R.const _) <| .cons _ hspell.value <| .cons _ (R.const _) <| .cons _ hsamples.value .nil

theorem noteErrors (hnote : ∀ e : AnnotError, R.Notes fun _ => [e.diagnostic]) (es : List AnnotError) :
    R.Notes fun _ : ι => (Render.noteErrors es).notes := by
  induction es with
  | nil => exact R.silent
  | cons e es ih => exact R.notes_append (hnote e) ih

theorem functionFacts (K : R.Keeps cx) (hnote : ∀ e : AnnotError, R.Notes fun _ => [e.diagnostic])
    (f : Function) : R.Made R.Facts fun i => Render.functionFacts (cx i) f := by
  have hparams := K.commaList false f.params
  have hcallback := K.callbackParam f
  have hinvocation := K.callbackInvocation f
  have hresults := K.suiteArgs hnote "return_type_hidl" f.generates
  have harguments := K.suiteArgs hnote "arg" f.params
  have hreturns := K.commaList false f.generates
  have hstubs : R.Made R.Text fun i => Render.nameList (cx i) none f.params := K.nameList (by simp) _
  have hreturnStubs : R.Made R.Text fun i => Render.nameList (cx i) (some "return_param_decl") f.generates :=
    K.nameList (by rintro _ ⟨⟩; exact .fixed (by decide)) _
  have hwriteReturns := K.bySuffix (by decide : "param_write_" ∈ typeStems) f.generates
  have hreadReturns := K.bySuffix (by decide : "param_read_" ∈ typeStems) f.generates
  have hwrites := K.bySuffix (by decide : "param_write_" ∈ typeStems) f.params
  have hreads := K.bySuffix (by decide : "param_read_" ∈ typeStems) f.params
  have hdecls := K.semiBlock f.params
  have hvariables := K.semiBlock f.generates
  have hflow := K.renderCallFlow (CallFlow.parse f.annotations)
  have hfacts := (Facts.nil (R := R)).cons "vts_callflow" hflow.value
    |>.cons "vts_args" (R.append hresults.value harguments.value)
    |>.cons "generates_variables" hvariables.value |>.cons "callback_invocation" hinvocation.value
    |>.cons "param_decls" hdecls.value |>.cons "func_name_as_enum" (R.const (dispatchToken f.name))
    |>.cons "param_read_snips" hreads.value |>.cons "param_write_snips" hwrites.value
    |>.cons "param_read_ret_snips" hreadReturns.value
    |>.cons "param_write_ret_snips" hwriteReturns.value
    |>.cons "return_params_stubs" hreturnStubs.value |>.cons "function_params_stubs" hstubs.value
    |>.cons "return_param_list" hreturns.value |>.cons "call_param_list" hparams.value
    |>.cons "params_and_callback" (joinParams hparams.value hcallback.value)
    |>.cons "package_name" K.interface |>.cons "function_name" (R.const f.name)
  exact .bind hparams.notes <| .bind hcallback.notes <| .bind hinvocation.notes <|
    .bind hresults.notes <| .bind harguments.notes <| .bind (noteErrors hnote _) <|
    .bind hreturns.notes <| .bind hstubs.notes <| .bind hreturnStubs.notes <|
    .bind hwriteReturns.notes <| .bind hreadReturns.notes <| .bind hwrites.notes <|
    .bind hreads.notes <| .bind hdecls.notes <| .bind hvariables.notes <| .bind hflow.notes <|
    .pure hfacts

/-! ## Declarations and units -/

/-- What functions note is left to the caller: no other declaration notes anything of its own. -/
theorem declarationFacts (K : R.Keeps cx) (d : Declaration)
    (hfunction : ∀ f, d = .function f → R.Made R.Facts fun i => Render.functionFacts (cx i) f) :
    R.Made R.Facts fun i => Render.declarationFacts (cx i) d := by
  cases d with
  | const name value =>
    exact .pure (.cons _ (R.const _) <| .cons _ (R.const _) <| .cons _ (R.const _) .nil)
  | typedef name base =>
    have h := K.typeFacts base
    exact .bind h.notes (.pure (.cons _ (R.const _) h.value))
  | struct name fields =>
    have hfields := K.semiBlock fields
    have hsnips := K.byType (by decide : "struct_field_" ∈ typeStems) fields
    exact .bind hfields.notes <| .bind hsnips.notes <|
      .pure (.cons _ hfields.value <| .cons _ (R.const _) <| .cons _ hsnips.value .nil)
  | enum name storage fields =>
    have hfields := K.commaList false fields
    have hstorage := K.spell storage
    have hnames : R.Made R.Text fun i => Render.nameList (cx i) (some "enum_quoted_name") fields :=
      K.nameList (by rintro _ ⟨⟩; exact .fixed (by decide)) _
    exact .bind hfields.notes <| .bind hstorage.notes <| .bind hnames.notes <|
      .pure (.cons _ hfields.value <| .cons _ (R.const _) <| .cons _ hstorage.value <|
        .cons _ hnames.value .nil)
  | union name fields =>
    have hfields := K.semiBlock fields
    have hsnips := K.byType (by decide : "union_field_" ∈ typeStems) fields
    exact .bind hfields.notes <| .bind hsnips.notes <|
      .pure (.cons _ hfields.value <| .cons _ (R.const _) <| .cons _ hsnips.value .nil)
  | imported name => exact .pure (.cons _ (R.const _) .nil)
  | function f => exact hfunction f rfl

theorem importsSection (K : R.Keeps cx) (imports : List (List String)) :
    R.Made R.Text fun i => Emission.importsSection (cx i) imports :=
  .concat fun _ _ => K.snip (.fixed (by decide)) (.cons _ (R.const _) .nil)

/-- What the declarations add to a file is made of texts. -/
structure Added (R : Parametric ι) (texts : ι → Emission.DeclarationTexts) : Prop where
  declarations : R.Text fun i => (texts i).declarations
  code : R.Text fun i => (texts i).code
  callbacks : R.Text fun i => (texts i).callbacks

theorem Added.add {texts : ι → Emission.DeclarationTexts} (h : Added R texts)
    {declaration code callback : ι → String} (hdeclaration : R.Text declaration)
    (hcode : R.Text code) (hcallback : R.Text callback) :
    Added R fun i => ⟨(texts i).declarations ++ declaration i, (texts i).code ++ code i,
      (texts i).callbacks ++ callback i⟩ :=
  ⟨R.append h.declarations hdeclaration, R.append h.code hcode, R.append h.callbacks hcallback⟩

theorem declarationTexts (K : R.Keeps cx) {texts : ι → Emission.DeclarationTexts}
    (htexts : Added R texts) (ds : List Declaration) {facts : ι → List Substitutions}
    (hfacts : Each R.Facts facts) :
    R.Made (Added R) fun i => Emission.declarationTexts (cx i) (texts i) (ds.zip (facts i)) := by
  induction ds generalizing texts facts with
  | nil => exact .pure htexts
  | cons d ds ih =>
    cases hfacts with
    | nil => exact .pure htexts
    | @cons f fs hf hfs =>
      have hdeclare := K.snip (.declaration (by decide : "declare_" ∈ declarationStems) d) hf
      have hcode := K.snip (.declaration (by decide : "code_for_" ∈ declarationStems) d) hf
      have hrest {callback : ι → String} (h : R.Text callback) :=
        ih (htexts.add hdeclare.value hcode.value h) hfs
      refine .bind hdeclare.notes (.bind hcode.notes ?_)
      by_cases hfunction : d.function?.isSome = true
      · have hcallback := K.snip (.fixed (by decide : "callback_decl_line" ∈ fixedSnippets)) hf
        simp only [hfunction, if_true]
        exact .bind hcallback.notes (hrest hcallback.value)
      · simp only [hfunction]
        exact .bind R.silent (hrest (R.const ""))

theorem callList (K : R.Keeps cx) (functions : List Function) :
    R.Made R.Text fun i => Emission.callList (cx i) functions := by
  cases functions with
  | nil => exact .pure (R.const _)
  | cons f fs =>
    have h := K.snip (.fixed (by decide : "first_call_enum" ∈ fixedSnippets))
      (.cons "call_enum_name" (R.const (dispatchToken f.name)) .nil)
    exact .bind h.notes (.pure (R.append (R.append h.value (R.const _)) (R.const _)))

theorem namespaceLines (K : R.Keeps cx) (names : List String) :
    R.Made (fun lines => (R.Text fun i => (lines i).1) ∧ R.Text fun i => (lines i).2)
      fun i => Emission.namespaceLines (cx i) names := by
  induction names with
  | nil => exact .pure ⟨R.const _, R.const _⟩
  | cons name names ih =>
    have hopen := K.snip (.fixed (by decide : "namespace_open_line" ∈ fixedSnippets))
      (.cons "namespace_name" (R.const name) .nil)
    have hclose := K.snip (.fixed (by decide : "namespace_close_line" ∈ fixedSnippets))
      (.cons "namespace_name" (R.const name) .nil)
    exact .bind hopen.notes <| .bind hclose.notes <| .bind ih.notes <|
      .pure ⟨R.append hopen.value ih.value.1, R.append ih.value.2 hclose.value⟩

theorem componentType (K : R.Keeps cx) (hnote : ∀ e : AnnotError, R.Notes fun _ => [e.diagnostic])
    (annotations : List Idl.Annot) :
    R.Made R.Text fun i => Emission.componentType (cx i) annotations := by
  simp only [Emission.componentType]
  split
  · exact K.snip (.fixed (by decide)) (.cons _ (R.const _) .nil)
  · exact .pure (R.const _)
  · exact .bind (hnote _) (.pure (R.const _))

theorem unitFacts (K : R.Keeps cx) (hnote : ∀ e : AnnotError, R.Notes fun _ => [e.diagnostic])
    (u : Idl.PackageUnit) (annotations : List Idl.Annot) :
    R.Made R.Facts fun i =>
      Emission.unitFacts (cx i) { u with package := (cx i).package } annotations := by
  have hcomponent := K.componentType hnote annotations
  have himports := K.importsSection u.imports
  have hfacts := Made.traverse fun d (_ : d ∈ u.declarations) =>
    K.declarationFacts d fun f _ => K.functionFacts hnote f
  have hempty : Added R fun _ : ι => ({} : Emission.DeclarationTexts) :=
    ⟨R.const _, R.const _, R.const _⟩
  have htexts := K.declarationTexts hempty u.declarations hfacts.value
  have hlines := K.namespaceLines u.namespacePath
  have hcalls := K.callList u.functions
  have hwriter := K.bySuffix (by decide : "param_write_" ∈ typeStems) u.vars
  have hreader := K.bySuffix (by decide : "param_read_" ∈ typeStems) u.vars
  have hvars := K.semiBlock u.vars
  have hlist := (Facts.nil (R := R)).cons "vars_decl" hvars.value
    |>.cons "vars_reader" hreader.value |>.cons "vars_writer" hwriter.value
    |>.cons "namespace_underscores" (R.const ("_".intercalate u.namespacePath))
    |>.cons "namespace_dots" (R.const (".".intercalate u.namespacePath))
    |>.cons "namespace_slashes" (R.const ("/".intercalate u.namespacePath))
    |>.cons "namespace_close_section" hlines.value.2
    |>.cons "namespace_open_section" hlines.value.1
    |>.cons "callback_decls" htexts.value.callbacks |>.cons "call_enum_list" hcalls.value
    |>.cons "code_snips" htexts.value.code |>.cons "declarations" htexts.value.declarations
    |>.cons "package_name" K.package |>.cons "component_type_enum" hcomponent.value
    |>.cons "imports_section" himports.value
    |>.cons "version_minor_string" (R.const u.version.minorText)
    |>.cons "version_major_string" (R.const u.version.majorText)
    |>.cons "version_string" (R.const u.version.text) |>.cons "header_guard" K.package
  exact .bind hcomponent.notes <| .bind himports.notes <| .bind hfacts.notes <|
    .bind htexts.notes <| .bind hlines.notes <| .bind hcalls.notes <| .bind hwriter.notes <|
    .bind hreader.notes <| .bind hvars.notes <| .pure hlist

end Keeps
end Parametric
end IdlStencil.Render
