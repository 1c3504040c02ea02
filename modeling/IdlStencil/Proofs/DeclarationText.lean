import IdlStencil.Proofs.PassNotes

/-!
# The text of a declaration

A declaration is spelled in one way and described by facts in another. Both go through the printers for
types and lists of fields. Of the two only the facts look at annotations and note what is wrong with
them: in a section that exists the spelling is silent, since nothing is noted by the printers at any depth
(`notes_declare`). Still both agree. What a function, struct, union or enum is spelled with stands among
the facts about it, so that the text can be put together from them alone (`declared_in_silence`).
-/

namespace IdlStencil.Render

open Template (Substitutions)
open Idl (Field Function Declaration Annot)

/-! ## Silence -/

variable {cx : Context}

theorem notes_paramsAndCallback (h : cx.Known) (f : Function) :
    (paramsAndCallback cx f).notes = [] := by
  simp only [paramsAndCallback, Noted.notes_bind, Noted.notes_pure, h.notes_commaList,
    h.notes_callbackParam, List.append_nil]

theorem notes_declare (h : cx.Known) (d : Declaration) : (declare cx d).notes = [] := by
  cases d with
  | const name value => exact h.notes_snip _ _
  | typedef name base => simp [declare, h.notes_spell]
  | struct name fields | union name fields => simp [declare, h.notes_semiBlock]
  | enum name storage fields => simp [declare, h.notes_spell, h.notes_commaList]
  | imported name => rfl
  | function f => simp [declare, notes_paramsAndCallback h]

/-! ## Texts from facts -/

/-- The text of a struct or union, from its name and fields among the facts. -/
def compoundFrom (kind : String) (facts : Substitutions) : Option String := do
  let name ← facts.get? (kind ++ "_name")
  let fields ← facts.get? (kind ++ "_fields")
  return kind ++ " " ++ name ++ " \x7b\n" ++ fields ++ "\x7d;\n"

/-- The text of an enum, from its name, base type and fields among the facts. -/
def enumFrom (facts : Substitutions) : Option String := do
  let name ← facts.get? "enum_name"
  let base ← facts.get? "enum_base_type"
  let fields ← facts.get? "enum_fields"
  return "enum " ++ name ++ " : " ++ base ++ " \x7b" ++ fields ++ "\x7d;\n"

/-- The text of a function with a name, from its parameters among the facts. -/
def functionFrom (name : String) (facts : Substitutions) : Option String := do
  let params ← facts.get? "params_and_callback"
  return name ++ "(" ++ params ++ ")"

/-- In a section that exists the spelling of a declaration notes nothing, whatever is wrong with
annotations, and what it consists of stands among the facts about a function, struct, union or enum. -/
theorem declared_in_silence (h : cx.Known) :
    (∀ d, (declare cx d).notes = []) ∧
    (∀ f : Function, functionFrom f.name (functionFacts cx f).value =
      some (declare cx (.function f)).value) ∧
    (∀ name fields, compoundFrom "struct" (declarationFacts cx (.struct name fields)).value =
      some (declare cx (.struct name fields)).value) ∧
    (∀ name fields, compoundFrom "union" (declarationFacts cx (.union name fields)).value =
      some (declare cx (.union name fields)).value) ∧
    ∀ name storage fields, enumFrom (declarationFacts cx (.enum name storage fields)).value =
      some (declare cx (.enum name storage fields)).value := by
  refine ⟨notes_declare h, fun f => ?_, fun name fields => ?_, fun name fields => ?_,
    fun name storage fields => ?_⟩
  -- the facts differ in what they note, which is not part of their value
  all_goals rfl

/-- A function whose annotations, and those of a parameter, are malformed: the facts note two errors. -/
theorem declared_in_silence_of_malformed :
    let cx : Context :=
      { table := Snippet.Table.empty.insert "s" "callback_param" "function_name_cb\n_cb", sectionName := "s" }
    let sample : Annot := { name := "range", line := 3, entries := OrderedMap.empty.insert "normal" [none] }
    let inner : Field := { name := "y", type := some .string, annot := some sample }
    let f : Function :=
      { name := "f", params := [{ name := "x", type := some (.struct [inner]), annot := some sample }],
        generates := [{ name := "r", type := some (.scalar .int8) }],
        annotations := [{ name := "next_calls", line := 7 }] }
    (cx.Known ∧ (functionFacts cx f).notes.length = 2) ∧
      declare cx (.function f) = pure "f(struct \x7b\nhidl_string y;\n\x7d x, f_cb _cb)" := by
  intro cx sample inner f
  have hknown : cx.table.section? cx.sectionName ≠ none := by decide
  obtain ⟨hsilent, hfunction, -⟩ := declared_in_silence hknown
  have hnotes : (functionFacts cx f).notes.length = 2 := by
    rw [notes_functionFacts hknown]
    decide
  have htext : functionFrom f.name (functionFacts cx f).value =
      some "f(struct \x7b\nhidl_string y;\n\x7d x, f_cb _cb)" := by
    decide +kernel
  refine ⟨⟨hknown, hnotes⟩, ?_⟩
  ext1
  · exact Option.some.inj ((hfunction f).symm.trans htext)
  · exact hsilent (.function f)

end IdlStencil.Render
