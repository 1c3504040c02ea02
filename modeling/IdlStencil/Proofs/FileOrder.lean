import IdlStencil.Proofs.PassNotes

/-!
# The order of a file

A pass gathers the facts about a unit in one go. What the declarations, the imports and the names of
the namespace add to a file is gathered in their order, by rules that differ: declarations and imports
are put at the end, the first function is told from later ones in the list of calls, and the line that
closes a namespace is put in front. Here each fact is a function of the list it comes from, and the
rules are laws about splitting that list in two (`Emission.file_order`).
-/

namespace IdlStencil.Noted

variable {α β : Type}

theorem value_traverse (f : α → Noted β) (as : List α) :
    (traverse f as).value = as.map fun a => (f a).value := by
  induction as with
  | nil => rfl
  | cons a as ih => simp [traverse, ih]

theorem value_concat (f : α → Noted String) (as : List α) :
    (concat f as).value = String.join (as.map fun a => (f a).value) := by
  simp [concat, value_traverse]

end IdlStencil.Noted

namespace IdlStencil.Emission

open Render
open Template (Substitutions)
open Idl (PackageUnit Interface Declaration Function Annot)

/-- What the snippet `file` is filled with under a key. -/
def fileFact (cx : Context) (annotations : List Annot) (u : PackageUnit) (key : String) : String :=
  ((unitFacts cx u annotations).value.get? key).getD ""

variable {cx : Context} {annotations : List Annot}

/-! ## Declarations -/

/-- The snippet that a stem makes with the kind of a declaration, filled with its facts. -/
def declared (cx : Context) (stem : String) (d : Declaration) : String :=
  (cx.snip (stem ++ d.kind) (declarationFacts cx d).value).value

/-- The line for the callback of a function. No other declaration has one. -/
def callbackLine (cx : Context) : Declaration → String
  | .function f => (cx.snip "callback_decl_line" (functionFacts cx f).value).value
  | _ => ""

theorem value_declarationTexts (cx : Context) (texts : DeclarationTexts) (ds : List Declaration) :
    (declarationTexts cx texts (ds.zip (ds.map fun d => (declarationFacts cx d).value))).value =
      ⟨texts.declarations ++ String.join (ds.map (declared cx "declare_")),
        texts.code ++ String.join (ds.map (declared cx "code_for_")),
        texts.callbacks ++ String.join (ds.map (callbackLine cx))⟩ := by
  induction ds generalizing texts with
  | nil => simp [declarationTexts]
  | cons d ds ih =>
    simp only [List.map_cons, List.zip_cons_cons, declarationTexts, Noted.value_bind, String.join_cons]
    cases d with
    | function f =>
      simp only [Declaration.function?, Option.isSome_some, if_true, Noted.value_bind, ih,
        String.append_assoc]
      rfl
    | _ =>
      simp only [Declaration.function?, Option.isSome_none, Bool.false_eq_true, if_false,
        Noted.value_bind, Noted.value_pure, ih, String.append_assoc]
      rfl

/-- The facts about declarations are computed before any of them is used, and each is used for its own
declaration. -/
theorem fileFact_of_declarations (u : PackageUnit) :
    fileFact cx annotations u "declarations" =
        String.join (u.declarations.map (declared cx "declare_")) ∧
      fileFact cx annotations u "code_snips" =
        String.join (u.declarations.map (declared cx "code_for_")) ∧
      fileFact cx annotations u "callback_decls" =
        String.join (u.declarations.map (callbackLine cx)) := by
  have htexts := value_declarationTexts cx {} u.declarations
  rw [← Noted.value_traverse] at htexts
  simp only [String.empty_append] at htexts
  exact ⟨congrArg DeclarationTexts.declarations htexts, congrArg DeclarationTexts.code htexts,
    congrArg DeclarationTexts.callbacks htexts⟩

/-- The token of a function that is not the first one: its name with letters of ASCII in upper case. -/
def laterCall (f : Function) : String := "  " ++ String.ofList (f.name.toList.map Char.toUpper) ++ ", "

theorem value_callList_append {fs : List Function} (h : fs ≠ []) (gs : List Function) :
    (callList cx (fs ++ gs)).value = (callList cx fs).value ++ String.join (gs.map laterCall) := by
  cases fs with
  | nil => exact absurd rfl h
  | cons f fs =>
    have hcalls (gs : List Function) : (callList cx (f :: gs)).value =
        (cx.snip "first_call_enum" [("call_enum_name", dispatchToken f.name)]).value ++ "\n" ++
          String.join (gs.map laterCall) := rfl
    rw [List.cons_append, hcalls, hcalls, List.map_append, String.join_append,
      ← String.append_assoc]

/-- How the facts about the declarations of a file follow their order. -/
structure DeclarationOrder (cx : Context) (fact : List Declaration → String → String) : Prop where
  append (ds₁ ds₂ : List Declaration) :
    ∀ key ∈ ["declarations", "code_snips", "callback_decls"],
      fact (ds₁ ++ ds₂) key = fact ds₁ key ++ fact ds₂ key
  single (d : Declaration) :
    fact [d] "declarations" = (cx.snip ("declare_" ++ d.kind) (declarationFacts cx d).value).value ∧
      fact [d] "code_snips" = (cx.snip ("code_for_" ++ d.kind) (declarationFacts cx d).value).value
  single_function (f : Function) :
    fact [.function f] "callback_decls" =
        (cx.snip "callback_decl_line" (functionFacts cx f).value).value ∧
      fact [.function f] "call_enum_list" =
        (cx.snip "first_call_enum"
          [("call_enum_name", String.ofList (f.name.toList.map Char.toUpper))]).value ++ "\n"
  other {d : Declaration} (h : d.function? = none) (ds₁ ds₂ : List Declaration) :
    ∀ key ∈ ["callback_decls", "call_enum_list"], fact (ds₁ ++ d :: ds₂) key = fact (ds₁ ++ ds₂) key
  first_calls {ds₁ : List Declaration} (h : ∀ d ∈ ds₁, d.function? = none) (ds₂ : List Declaration) :
    fact (ds₁ ++ ds₂) "call_enum_list" = fact ds₂ "call_enum_list"
  later_calls {ds₁ : List Declaration} (h : ∃ d ∈ ds₁, d.function? ≠ none) (ds₂ : List Declaration) :
    fact (ds₁ ++ ds₂) "call_enum_list" =
      fact ds₁ "call_enum_list" ++ String.join ((ds₂.filterMap Declaration.function?).map laterCall)

theorem declarationOrder (u : PackageUnit) :
    DeclarationOrder cx fun ds => fileFact cx annotations { u with declarations := ds } := by
  have hfacts (ds : List Declaration) :=
    @fileFact_of_declarations cx annotations { u with declarations := ds }
  have hcalls (ds : List Declaration) :
      fileFact cx annotations { u with declarations := ds } "call_enum_list" =
        (callList cx (ds.filterMap Declaration.function?)).value := rfl
  simp only at hfacts
  constructor
  case append =>
    intro ds₁ ds₂ key hkey
    simp only [List.mem_cons, List.not_mem_nil, or_false] at hkey
    rcases hkey with rfl | rfl | rfl <;> simp [hfacts]
  case single =>
    intro d
    simp [hfacts, declared]
  case single_function =>
    intro f
    simp [hfacts, hcalls, callbackLine, Declaration.function?, callList, dispatchToken]
  case other =>
    intro d hd ds₁ ds₂ key hkey
    simp only [List.mem_cons, List.not_mem_nil, or_false] at hkey
    rcases hkey with rfl | rfl
    · have hline : callbackLine cx d = "" := by cases d <;> simp_all [callbackLine, Declaration.function?]
      simp [hfacts, hline]
    · simp [hcalls, hd]
  case first_calls =>
    intro ds₁ h ds₂
    simp [hcalls, List.filterMap_eq_nil_iff.mpr h]
  case later_calls =>
    intro ds₁ h ds₂
    obtain ⟨d, hd, hf⟩ := h
    have hne : ds₁.filterMap Declaration.function? ≠ [] :=
      fun hnil => hf (List.filterMap_eq_nil_iff.mp hnil d hd)
    rw [hcalls, hcalls, List.filterMap_append, value_callList_append hne]

/-! ## Imports -/

/-- How the imports of a file follow their order. -/
structure ImportOrder (cx : Context) (fact : List (List String) → String) : Prop where
  append (is₁ is₂ : List (List String)) : fact (is₁ ++ is₂) = fact is₁ ++ fact is₂
  single (path : List String) (name : String) :
    fact [path ++ [name]] = (cx.snip "import_line" [("import_name", name)]).value
  empty (is₁ is₂ : List (List String)) : fact (is₁ ++ [] :: is₂) = fact (is₁ ++ is₂)

theorem importOrder (u : PackageUnit) :
    ImportOrder cx fun imports => fileFact cx annotations { u with imports } "imports_section" := by
  have hfact (imports : List (List String)) :
      fileFact cx annotations { u with imports } "imports_section" =
        String.join ((imports.filterMap List.getLast?).map fun name =>
          (cx.snip "import_line" [("import_name", name)]).value) :=
    Noted.value_concat _ _
  constructor
  case append =>
    intro is₁ is₂
    simp [hfact]
  case single =>
    intro path name
    simp [hfact]
  case empty =>
    intro is₁ is₂
    simp [hfact, List.filterMap_cons]

/-! ## Namespaces -/

/-- The line for a name of the namespace. -/
def namespaceLine (cx : Context) (snippet name : String) : String :=
  (cx.snip snippet [("namespace_name", name)]).value

theorem value_namespaceLines (cx : Context) (names : List String) :
    (namespaceLines cx names).value =
      (String.join (names.map (namespaceLine cx "namespace_open_line")),
        String.join (names.reverse.map (namespaceLine cx "namespace_close_line"))) := by
  induction names with
  | nil => rfl
  | cons name names ih => simp [namespaceLines, ih, namespaceLine]

/-- How the namespace of a file follows its path: it is closed in the reverse of the order in which it
is opened. -/
structure NamespaceOrder (cx : Context) (opened closed : List String → String) : Prop where
  opened_append (path₁ path₂ : List String) : opened (path₁ ++ path₂) = opened path₁ ++ opened path₂
  closed_append (path₁ path₂ : List String) : closed (path₁ ++ path₂) = closed path₂ ++ closed path₁
  single (name : String) :
    opened [name] = (cx.snip "namespace_open_line" [("namespace_name", name)]).value ∧
      closed [name] = (cx.snip "namespace_close_line" [("namespace_name", name)]).value

theorem namespaceOrder (u : PackageUnit) :
    NamespaceOrder cx
      (fun path => fileFact cx annotations { u with namespacePath := path } "namespace_open_section")
      (fun path => fileFact cx annotations { u with namespacePath := path } "namespace_close_section") := by
  have hopened (path : List String) :
      fileFact cx annotations { u with namespacePath := path } "namespace_open_section" =
        String.join (path.map (namespaceLine cx "namespace_open_line")) :=
    congrArg Prod.fst (value_namespaceLines cx path)
  have hclosed (path : List String) :
      fileFact cx annotations { u with namespacePath := path } "namespace_close_section" =
        String.join (path.reverse.map (namespaceLine cx "namespace_close_line")) :=
    congrArg Prod.snd (value_namespaceLines cx path)
  constructor
  case opened_append =>
    intro path₁ path₂
    simp [hopened]
  case closed_append =>
    intro path₁ path₂
    simp [hclosed]
  case single =>
    intro name
    simp [hopened, hclosed, namespaceLine]

/-! ## Files -/

/-- With an interface and a section, the text of a unit is its snippet `file`, and the facts it is
filled with follow the order of the declarations, of the imports and of the namespace. -/
theorem file_order (e : Emission) (hsection : e.table.section? e.sectionName ≠ none) {u : PackageUnit}
    {interface : Interface} (hinterface : u.interface = some interface) :
    let cx := Context.of e.table e.sectionName u.package interface.name e.multiline
    let fact := fileFact cx interface.annotations
    (e.render u).value = some (cx.snip "file" (unitFacts cx u interface.annotations).value).value ∧
      DeclarationOrder cx (fun ds => fact { u with declarations := ds }) ∧
      ImportOrder cx (fun imports => fact { u with imports } "imports_section") ∧
      NamespaceOrder cx (fun path => fact { u with namespacePath := path } "namespace_open_section")
        (fun path => fact { u with namespacePath := path } "namespace_close_section") := by
  intro cx fact
  refine ⟨?_, declarationOrder u, importOrder u, namespaceOrder u⟩
  simp only [render, hinterface, hsection, Option.isNone_iff_eq_none, if_false, Noted.value_bind,
    Noted.value_pure, cx]

/-- A unit of two functions, the first of which comes behind an import. -/
theorem file_order_of_two_functions :
    let e : Emission := { table := Snippet.Table.empty.insert "s" "file" "call_enum_list", sectionName := "s" }
    let u : PackageUnit := { package := "p", version := ⟨1, 0⟩, interface := some { name := "I" } }
    let cx := Context.of e.table "s" "p" "I" none
    let ds₁ : List Declaration := [.imported "x", .function { name := "open" }]
    let ds₂ : List Declaration := [.const "c" (.number "1"), .function { name := "close" }]
    (e.table.section? e.sectionName ≠ none ∧ u.interface = some { name := "I" }) ∧
      fileFact cx [] { u with declarations := ds₁ ++ ds₂ } "call_enum_list" = "\n  CLOSE, " := by
  intro e u cx ds₁ ds₂
  have hsection : e.table.section? e.sectionName ≠ none := by decide
  have hinterface : u.interface = some { name := "I" } := rfl
  obtain ⟨-, hdeclarations, -, -⟩ := file_order e hsection hinterface
  have hfunction : ∃ d ∈ ds₁, d.function? ≠ none := ⟨.function { name := "open" }, by simp [ds₁], by
    simp [Declaration.function?]⟩
  exact ⟨⟨hsection, hinterface⟩, (hdeclarations.later_calls hfunction ds₂).trans (by decide)⟩

end IdlStencil.Emission
