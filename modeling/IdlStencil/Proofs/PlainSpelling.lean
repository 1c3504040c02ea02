import IdlStencil.Proofs.SectionIsolation

/-!
# Plain spelling

A field with a type is written through the snippets for its type, and plainly where these yield
nothing. In a section that exists this can be said field by field (`Context.item`): what the section
has under the names for the type is filled with the facts about the field, and the type is only
spelled if nothing comes of it.

Where the section's snippets for parameters and members have no text (`Context.Plain`), the facts do
not matter at any depth, and what is left is a printer that knows the type alone (`Idl.Ty.plain`). So
all such sections spell a type alike, whatever else they have and whatever the package, the interface
and the newlines of parameters (`plain_spelling`).
-/

namespace IdlStencil.Noted

theorem pure_bind {α β : Type} (a : α) (f : α → Noted β) : (pure a : Noted α) >>= f = f a := rfl

theorem eq_pure {α : Type} {x : Noted α} (h : x.notes = []) : x = pure x.value :=
  ext rfl h

end IdlStencil.Noted

namespace IdlStencil.Idl

/-- The initializer of a field with a value: an equals sign and the literal as it is written. -/
def plainValue : Option Literal → String
  | none => ""
  | some (.string s) => " = " ++ ("\"" ++ s ++ "\"")
  | some (.number s) => " = " ++ s
  | some (.ident s) => " = " ++ s

theorem Field.initText_eq (f : Field) : f.initText = plainValue f.value := by
  obtain ⟨name, type, value, annot⟩ := f
  rcases value with _ | (_ | _ | _) <;> rfl

mutual

/-- The spelling of a type without snippets. -/
def Ty.plain : Ty → String
  | .scalar s => s.name
  | .vec base => "hidl_vec<" ++ base.plain ++ ">"
  | .array base dimension => base.plain ++ "[" ++ dimension ++ "]"
  | .enum _ fields => "enum \x7b" ++ ", ".intercalate (plainFields fields) ++ "\x7d"
  | .union fields => "union \x7b\n" ++ String.join ((plainFields fields).map (· ++ ";\n")) ++ "\x7d"
  | .struct fields => "struct \x7b\n" ++ String.join ((plainFields fields).map (· ++ ";\n")) ++ "\x7d"
  | .named name _ => name
  | .ref base => "hidl_ref<" ++ base.plain ++ ">"
  | .sealed => "opaque"
  | .string => "hidl_string"
  | .handle => "native_handle"

def plainFields : List Field → List String
  | [] => []
  | f :: fs => f.plain :: plainFields fs

/-- The type, where there is one, the name and the initializer. -/
def Field.plain : Field → String
  | ⟨name, some t, value, _⟩ => t.plain ++ " " ++ name ++ plainValue value
  | ⟨name, none, value, _⟩ => name ++ plainValue value

end

theorem plainFields_eq_map (fields : List Field) : plainFields fields = fields.map Field.plain := by
  induction fields with
  | nil => rfl
  | cons f fs ih => rw [plainFields, ih, List.map_cons]

end IdlStencil.Idl

namespace IdlStencil.Render

open Template (Substitutions)
open Idl (Ty Field plainValue plainFields plainFields_eq_map)

/-! ## Items -/

/-- The templates that the section has under some names, filled with the same facts. -/
def Context.filled (cx : Context) (names : List String) (facts : Substitutions) : String :=
  String.join ((names.filterMap (cx.table.get? cx.sectionName)).map (Template.fill · facts))

/-- A field as one item of a list: its special form, on one line unless newlines are kept, or its
plain form where there is no special one. -/
def Context.item (cx : Context) (names : Ty → List String) (keep : Bool) (f : Field) : String :=
  match f.type with
  | none => f.name ++ plainValue f.value
  | some t =>
    let text := cx.filled (names t) (fieldFacts cx f).value
    if text = "" then (spell cx t).value ++ " " ++ f.name ++ plainValue f.value
    else if keep then text else flatten text

variable {cx : Context}

theorem Context.Known.snips_eq (h : cx.Known) (names : List String) (facts : Substitutions) :
    Noted.concat (cx.snip · facts) names = pure (cx.filled names facts) := by
  have htexts : Noted.traverse (cx.snip · facts) names =
      pure (names.map fun name =>
        ((cx.table.get? cx.sectionName name).map (Template.fill · facts)).getD "") := by
    induction names with
    | nil => rfl
    | cons name names ih =>
      rw [Noted.traverse, h.snip_eq, ih]
      rfl
  rw [Noted.concat, htexts, Noted.pure_bind, Context.filled]
  -- a name without a template adds the empty text on the one side and nothing on the other
  congr 1
  clear htexts
  induction names with
  | nil => rfl
  | cons name names ih =>
    cases hname : cx.table.get? cx.sectionName name with
    | none => simpa [hname] using ih
    | some template => simpa [hname] using ih

theorem Context.Known.spell_silent (h : cx.Known) (t : Ty) : spell cx t = pure (spell cx t).value :=
  Noted.eq_pure (h.keeps.spell t).notes

theorem Context.Known.typeFacts_silent (h : cx.Known) (t : Ty) :
    typeFacts cx t = pure (typeFacts cx t).value :=
  Noted.eq_pure (h.keeps.typeFacts t).notes

theorem Context.Known.parameter_eq_item (h : cx.Known) (f : Field) :
    parameter cx false f = pure (cx.item parameterSnippets cx.multiline f) := by
  obtain ⟨name, type, value, annot⟩ := f
  cases type with
  | none =>
    rw [parameter, Field.initText_eq]
    rfl
  | some t =>
    rw [parameter, h.typeFacts_silent t, h.spell_silent t]
    simp only [Noted.pure_bind, h.snips_eq, Context.item, fieldFacts, Noted.value_bind,
      Noted.value_pure, String.isEmpty_iff, special, Field.initText_eq]
    split
    · next htext => simp [htext, String.append_assoc]
    · next htext => simp [htext]

theorem Context.Known.member_eq_item (h : cx.Known) (f : Field) :
    member cx f = pure (cx.item memberSnippets false f ++ ";\n") := by
  obtain ⟨name, type, value, annot⟩ := f
  cases type with
  | none =>
    rw [member, Field.initText_eq]
    rfl
  | some t =>
    rw [member, h.typeFacts_silent t, h.spell_silent t]
    simp only [Noted.pure_bind, h.snips_eq, Context.item, fieldFacts, Noted.value_bind,
      Noted.value_pure, String.isEmpty_iff, special, Field.initText_eq]
    split
    · next htext => simp [htext]
    · next htext => simp [htext]

theorem Context.Known.parameters_eq_items (h : cx.Known) (fields : List Field) :
    parameters cx false fields = pure (fields.map (cx.item parameterSnippets cx.multiline)) := by
  induction fields with
  | nil => rfl
  | cons f fs ih => rw [parameters, h.parameter_eq_item, ih]; rfl

theorem Context.Known.members_eq_items (h : cx.Known) (fields : List Field) :
    members cx fields = pure ((fields.map (cx.item memberSnippets false)).map (· ++ ";\n")) := by
  induction fields with
  | nil => rfl
  | cons f fs ih => rw [members, h.member_eq_item, ih]; rfl

/-! ## Sections without special forms -/

/-- The snippets of the section for parameters and members, if it has any, have no text. -/
def Context.Plain (cx : Context) : Prop :=
  ∀ stem ∈ ["param_decl_", "field_decl_"], ∀ rest template,
    cx.table.get? cx.sectionName (stem ++ rest) = some template → template = ""

theorem filled_eq_empty {names : List String}
    (h : ∀ name ∈ names, ∀ template, cx.table.get? cx.sectionName name = some template → template = "")
    (facts : Substitutions) : cx.filled names facts = "" := by
  have hfill : Template.fill "" facts = "" := rfl
  induction names with
  | nil => rfl
  | cons name names ih =>
    obtain ⟨hname, hnames⟩ := List.forall_mem_cons.mp h
    cases hget : cx.table.get? cx.sectionName name with
    | none => simpa [Context.filled, hget] using ih hnames
    | some template =>
      obtain rfl := hname template hget
      simpa [Context.filled, hget, hfill] using ih hnames

theorem Context.Plain.filled_suffixSnippets (h : cx.Plain) {stem : String}
    (hstem : stem ∈ ["param_decl_", "field_decl_"]) (t : Ty) :
    ∀ name ∈ suffixSnippets stem t, ∀ template,
      cx.table.get? cx.sectionName name = some template → template = "" := by
  intro name hname
  simp only [suffixSnippets, List.mem_cons, List.not_mem_nil, or_false] at hname
  rcases hname with rfl | rfl
  · exact h stem hstem _
  · exact h stem hstem _

theorem Context.Plain.filled_parameterSnippets (h : cx.Plain) (t : Ty) (facts : Substitutions) :
    cx.filled (parameterSnippets t) facts = "" := by
  refine filled_eq_empty (fun name hname => ?_) facts
  rw [parameterSnippets, List.mem_eraseDups, List.mem_append, List.mem_singleton] at hname
  rcases hname with hname | rfl
  · exact h.filled_suffixSnippets (by simp) t name hname
  · exact h _ (by simp) _

theorem Context.Plain.filled_memberSnippets (h : cx.Plain) (t : Ty) (facts : Substitutions) :
    cx.filled (memberSnippets t) facts = "" :=
  filled_eq_empty (h.filled_suffixSnippets (by simp) t) facts

mutual

theorem Context.Plain.spell_value (hplain : cx.Plain) (hknown : cx.Known) :
    ∀ t : Ty, (spell cx t).value = t.plain
  | .scalar _ | .named _ _ | .sealed | .string | .handle => by
    rw [spell, Ty.plain]
    rfl
  | .vec base | .array base _ | .ref base => by
    have hbase := hplain.spell_value hknown base
    simp only [spell, Ty.plain, Noted.value_bind, Noted.value_pure, hbase]
  | .enum _ fields => by
    have hitems := hplain.items_value hknown fields
    simp only [spell, Ty.plain, hknown.parameters_eq_items, Noted.pure_bind, Noted.value_pure,
      hitems _ _ hplain.filled_parameterSnippets]
  | .union fields | .struct fields => by
    have hitems := hplain.items_value hknown fields
    simp only [spell, Ty.plain, hknown.members_eq_items, Noted.pure_bind, Noted.value_pure,
      hitems _ _ hplain.filled_memberSnippets]

/-- Without special forms it does not matter which names they would have. -/
theorem Context.Plain.items_value (hplain : cx.Plain) (hknown : cx.Known) :
    ∀ (fields : List Field) (names : Ty → List String) (keep : Bool),
      (∀ t facts, cx.filled (names t) facts = "") →
      fields.map (cx.item names keep) = plainFields fields
  | [], _, _, _ => rfl
  | ⟨name, some t, value, annot⟩ :: fs, names, keep, hnames => by
    have ht := hplain.spell_value hknown t
    have hfs := hplain.items_value hknown fs names keep hnames
    simp only [List.map_cons, plainFields, Field.plain, Context.item, hnames, if_true, ht, hfs]
  | ⟨name, none, value, annot⟩ :: fs, names, keep, hnames => by
    have hfs := hplain.items_value hknown fs names keep hnames
    simp only [List.map_cons, plainFields, Field.plain, Context.item, hfs]

end

/-- In a section that exists every item of a list of fields is the special form or the plain one. If
no special form has any text, types and lists of fields are what the plain printer makes of them, and
nothing is noted. -/
theorem plain_spelling (hknown : cx.Known) :
    (cx.Plain → (∀ t, spell cx t = pure t.plain) ∧
      (∀ fields, commaList cx false fields = pure (", ".intercalate (fields.map Field.plain))) ∧
      ∀ fields, semiBlock cx fields =
        pure (String.join ((fields.map Field.plain).map (· ++ ";\n")))) ∧
    (∀ fields, commaList cx false fields =
      pure (", ".intercalate (fields.map (cx.item parameterSnippets cx.multiline)))) ∧
    ∀ fields, semiBlock cx fields =
      pure (String.join ((fields.map (cx.item memberSnippets false)).map (· ++ ";\n"))) := by
  have hcomma (fields : List Field) : commaList cx false fields =
      pure (", ".intercalate (fields.map (cx.item parameterSnippets cx.multiline))) := by
    rw [commaList, hknown.parameters_eq_items, Noted.pure_bind]
  have hsemi (fields : List Field) : semiBlock cx fields =
      pure (String.join ((fields.map (cx.item memberSnippets false)).map (· ++ ";\n"))) := by
    rw [semiBlock, hknown.members_eq_items, Noted.pure_bind]
  refine ⟨fun hplain => ⟨fun t => ?_, fun fields => ?_, fun fields => ?_⟩, hcomma, hsemi⟩
  · rw [hknown.spell_silent, hplain.spell_value hknown]
  · rw [hcomma, hplain.items_value hknown fields _ _ hplain.filled_parameterSnippets,
      plainFields_eq_map]
  · rw [hsemi, hplain.items_value hknown fields _ _ hplain.filled_memberSnippets,
      plainFields_eq_map]

/-- A section with an empty snippet for parameters and one for something else. -/
theorem plain_spelling_of_nested :
    let cx : Context :=
      { table := (Snippet.Table.empty.insert "s" "param_decl_scalar" "").insert "s" "vts_args" "text",
        sectionName := "s", multiline := true }
    let inner : Field := { name := "x", type := some (.scalar .int8), value := some (.number "1") }
    let t : Ty := .vec (.struct [{ name := "e", type := some (.enum (.scalar .int8) [inner]) }])
    (cx.Known ∧ cx.Plain) ∧
      (spell cx t).value = "hidl_vec<struct \x7b\nenum \x7bint8_t x = 1\x7d e;\n\x7d>" := by
  intro cx inner t
  have hknown : cx.table.section? cx.sectionName ≠ none := by decide
  have hplain : cx.Plain := by
    intro stem hstem rest template hget
    have hother : stem ++ rest ≠ "vts_args" := by
      intro h
      have hhead := congrArg (fun s => s.toList.head?) h
      simp only [List.mem_cons, List.not_mem_nil, or_false] at hstem
      rcases hstem with rfl | rfl <;> simp at hhead
    simp only [cx, Snippet.Table.get?_insert, hother, and_false, if_false] at hget
    split at hget
    · exact (Option.some.inj hget).symm
    · cases hget
  refine ⟨⟨hknown, hplain⟩, ?_⟩
  rw [((plain_spelling hknown).1 hplain).1]
  decide

end IdlStencil.Render
