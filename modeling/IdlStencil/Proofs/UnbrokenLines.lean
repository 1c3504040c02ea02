import IdlStencil.Render.FieldList

/-!
# Parameters and members stay on their lines

A template may be of any number of lines, and what it yields is put on one line in some places only:
a special form of a parameter while newlines are not kept, and a special form of a member always.
The plain forms spell a type, and the spelling of an enum goes back to parameters. As long as the
texts that are copied have no newlines, and no struct or union is spelled inline, no newline comes
into a list of parameters, and one behind each member (`fields_on_lines`).
-/

namespace IdlStencil.Render

open Idl (Ty Field Literal Scalar)

/-- A text without newlines. -/
def Unbroken (s : String) : Prop := '\n' ∉ s.toList

instance (s : String) : Decidable (Unbroken s) := inferInstanceAs (Decidable (¬ _))

mutual

/-- A type whose spelling copies no newline and has no struct or union in it. An alias hides what it
stands for, and the storage of an enum is not spelled. -/
inductive UnbrokenType : Ty → Prop where
  | scalar (s : Scalar) : UnbrokenType (.scalar s)
  | vec {base : Ty} (h : UnbrokenType base) : UnbrokenType (.vec base)
  | array {base : Ty} {dimension : String} (h : UnbrokenType base) (hd : Unbroken dimension) :
      UnbrokenType (.array base dimension)
  | enum {storage : Ty} {fields : List Field} (h : ∀ f ∈ fields, UnbrokenField f) :
      UnbrokenType (.enum storage fields)
  | named {name : String} {base : Ty} (h : Unbroken name) : UnbrokenType (.named name base)
  | ref {base : Ty} (h : UnbrokenType base) : UnbrokenType (.ref base)
  | sealed : UnbrokenType .sealed
  | string : UnbrokenType .string
  | handle : UnbrokenType .handle

/-- A field whose name, value and type have no newlines to copy. -/
inductive UnbrokenField : Field → Prop where
  | mk {f : Field} (hname : Unbroken f.name) (hvalue : ∀ v ∈ f.value, Unbroken v.text)
      (htype : ∀ t ∈ f.type, UnbrokenType t) : UnbrokenField f

end

/-! ## Texts -/

namespace Unbroken

variable {s t : String}

theorem append (hs : Unbroken s) (ht : Unbroken t) : Unbroken (s ++ t) := by
  rw [Unbroken, String.toList_append, List.mem_append]
  rintro (h | h)
  · exact hs h
  · exact ht h

theorem flatten (s : String) : Unbroken (flatten s) := by
  rw [Unbroken, Render.flatten, String.toList_ofList, List.mem_map]
  rintro ⟨c, -, hc⟩
  split at hc
  · cases hc
  · next hne => exact hne hc

theorem intercalate {separator : String} (hseparator : Unbroken separator) {texts : List String}
    (h : ∀ text ∈ texts, Unbroken text) : Unbroken (separator.intercalate texts) := by
  induction texts with
  | nil => simp [Unbroken]
  | cons text texts ih =>
    obtain ⟨htext, htexts⟩ := List.forall_mem_cons.mp h
    cases texts with
    | nil => simpa using htext
    | cons => simpa using (htext.append hseparator).append (ih htexts)

theorem scalarName (s : Scalar) : Unbroken s.name := by
  cases s <;> decide

theorem initText {f : Field} (h : ∀ v ∈ f.value, Unbroken v.text) : Unbroken f.initText := by
  unfold Field.initText
  split
  · next v hv => exact append (by decide) (h v hv)
  · decide

end Unbroken

/-! ## Types and parameters -/

mutual

/-- The spelling of a type asks for snippets where it spells the fields of an enum, and there alone. -/
theorem unbroken_spell {cx : Context} (hflat : cx.multiline = false) :
    ∀ t : Ty, UnbrokenType t → Unbroken (spell cx t).value
  | .scalar s, _ => by
    rw [spell]
    exact .scalarName s
  | .vec base, .vec h | .ref base, .ref h => by
    rw [spell]
    exact .append (.append (by decide) (unbroken_spell hflat base h)) (by decide)
  | .array base _, .array h hd => by
    rw [spell]
    exact .append (.append (.append (unbroken_spell hflat base h) (by decide)) hd) (by decide)
  | .enum _ fields, .enum h => by
    rw [spell]
    have hfields := unbroken_parameters hflat false fields h
    exact .append (.append (by decide) (.intercalate (by decide) hfields)) (by decide)
  | .named name _, .named h => by
    rw [spell]
    exact h
  | .sealed, _ | .string, _ | .handle, _ => by
    rw [spell]
    decide

theorem unbroken_parameters {cx : Context} (hflat : cx.multiline = false) (omitNames : Bool) :
    ∀ fields : List Field, (∀ f ∈ fields, UnbrokenField f) →
      ∀ text ∈ (parameters cx omitNames fields).value, Unbroken text
  | [], _ => by simp [parameters]
  | f :: fs, h => by
    obtain ⟨hf, hfs⟩ := List.forall_mem_cons.mp h
    rw [parameters]
    exact List.forall_mem_cons.mpr
      ⟨unbroken_parameter hflat omitNames f hf, unbroken_parameters hflat omitNames fs hfs⟩

theorem unbroken_parameter {cx : Context} (hflat : cx.multiline = false) (omitNames : Bool) :
    ∀ f : Field, UnbrokenField f → Unbroken (parameter cx omitNames f).value
  | ⟨name, some t, value, annot⟩, .mk hname hvalue htype => by
    simp only [parameter, Noted.value_bind]
    split
    · have hplain := unbroken_spell hflat t (htype t rfl)
      have hshown : Unbroken (if omitNames then "" else " " ++ name) := by
        split
        · decide
        · exact .append (by decide) hname
      exact .append (.append hplain hshown) (.initText hvalue)
    · simp only [special, hflat]
      exact .flatten _
  | ⟨name, none, value, annot⟩, .mk hname hvalue _ => by
    rw [parameter]
    refine .append ?_ (.initText hvalue)
    split
    · decide
    · exact hname

end

/-! ## Members -/

/-- A member is one line: what stands before the semicolon is put on a line or has no newlines. -/
theorem member_eq_line {cx : Context} (hflat : cx.multiline = false) {f : Field} (h : UnbrokenField f) :
    ∃ line, Unbroken line ∧ (member cx f).value = line ++ ";\n" := by
  obtain ⟨name, type, value, annot⟩ := f
  obtain ⟨hname, hvalue, htype⟩ := h
  cases type with
  | none =>
    rw [member]
    exact ⟨_, .append hname (.initText hvalue), rfl⟩
  | some t =>
    simp only [member, Noted.value_bind]
    split
    · have hplain := unbroken_spell hflat t (htype t rfl)
      exact ⟨_, .append (.append (.append hplain (by decide)) hname) (.initText hvalue), rfl⟩
    · exact ⟨_, .flatten _, rfl⟩

theorem members_eq_lines {cx : Context} (hflat : cx.multiline = false) {fields : List Field}
    (h : ∀ f ∈ fields, UnbrokenField f) :
    ∃ lines : List String, lines.length = fields.length ∧ (∀ line ∈ lines, Unbroken line) ∧
      (members cx fields).value = lines.map (· ++ ";\n") := by
  induction fields with
  | nil => exact ⟨[], rfl, by simp, by simp [members]⟩
  | cons f fs ih =>
    obtain ⟨hf, hfs⟩ := List.forall_mem_cons.mp h
    obtain ⟨line, hline, hmember⟩ := member_eq_line hflat hf
    obtain ⟨lines, hlength, hlines, hmembers⟩ := ih hfs
    refine ⟨line :: lines, by simp [hlength], List.forall_mem_cons.mpr ⟨hline, hlines⟩, ?_⟩
    simp [members, hmember, hmembers]

/-! ## Newlines -/

/-- The lines of members, one after another. -/
def memberLines (lines : List String) : String := String.join (lines.map (· ++ ";\n"))

theorem toList_memberLines_cons (line : String) (lines : List String) :
    (memberLines (line :: lines)).toList = line.toList ++ ';' :: '\n' :: (memberLines lines).toList := by
  simp [memberLines]

theorem count_newline_memberLines {lines : List String} (h : ∀ line ∈ lines, Unbroken line) :
    (memberLines lines).toList.count '\n' = lines.length := by
  induction lines with
  | nil => rfl
  | cons line lines ih =>
    obtain ⟨hline, hlines⟩ := List.forall_mem_cons.mp h
    have hcount : line.toList.count '\n' = 0 := List.count_eq_zero.mpr hline
    simp [toList_memberLines_cons, hcount, ih hlines]

/-- A newline of a text that begins with an unbroken line ends that line, or stands behind it. -/
theorem newline_cases {line rest before behind : List Char} (hline : '\n' ∉ line)
    (heq : line ++ ';' :: '\n' :: rest = before ++ '\n' :: behind) :
    before = line ++ [';'] ∨
      ∃ between, before = line ++ ';' :: '\n' :: between ∧ rest = between ++ '\n' :: behind := by
  rcases List.append_eq_append_iff.mp heq with ⟨more, rfl, htail⟩ | ⟨more, rfl, htail⟩
  · cases more with
    | nil => simp at htail
    | cons c more =>
      cases more with
      | nil =>
        obtain ⟨rfl, -⟩ := List.cons.inj htail
        left
        rfl
      | cons d more =>
        right
        simp only [List.cons_append, List.cons.injEq] at htail
        obtain ⟨rfl, rfl, hrest⟩ := htail
        exact ⟨more, rfl, hrest⟩
  · cases more with
    | nil => simp at htail
    | cons c more =>
      obtain ⟨rfl, -⟩ := List.cons.inj htail
      simp at hline

/-- Every newline of the text stands directly behind a semicolon. -/
def NewlinesEndMembers (text : String) : Prop :=
  ∀ before behind : List Char, text.toList = before ++ '\n' :: behind → before.getLast? = some ';'

theorem newlinesEndMembers_memberLines {lines : List String} (h : ∀ line ∈ lines, Unbroken line) :
    NewlinesEndMembers (memberLines lines) := by
  induction lines with
  | nil =>
    intro before behind heq
    simp [memberLines] at heq
  | cons line lines ih =>
    obtain ⟨hline, hlines⟩ := List.forall_mem_cons.mp h
    intro before behind heq
    rw [toList_memberLines_cons] at heq
    rcases newline_cases hline heq with rfl | ⟨between, rfl, hrest⟩
    · simp
    · have hlast := ih hlines between behind hrest
      simp [List.getLast?_append, List.getLast?_cons, hlast]

/-- Without newlines to copy and without inline structs and unions, parameters are one line, and
members are one line each, whatever the templates. -/
theorem fields_on_lines {cx : Context} (hflat : cx.multiline = false) {fields : List Field}
    (h : ∀ f ∈ fields, UnbrokenField f) :
    (∀ omitNames, '\n' ∉ (commaList cx omitNames fields).value.toList) ∧
    (semiBlock cx fields).value.toList.count '\n' = fields.length ∧
    NewlinesEndMembers (semiBlock cx fields).value := by
  obtain ⟨lines, hlength, hlines, hmembers⟩ := members_eq_lines hflat h
  have hblock : (semiBlock cx fields).value = memberLines lines := by
    simp [semiBlock, memberLines, hmembers]
  refine ⟨fun omitNames => ?_, ?_, ?_⟩
  · exact Unbroken.intercalate (by decide) (unbroken_parameters hflat omitNames fields h)
  · rw [hblock, count_newline_memberLines hlines, hlength]
  · rw [hblock]
    exact newlinesEndMembers_memberLines hlines

/-- Templates of two lines, an enum with a typed field that is stored in a struct, and an alias of a
struct. -/
theorem fields_on_lines_of_long_templates :
    let cx : Context :=
      { table := (Snippet.Table.empty.insert "s" "param_decl_scalar_all" "base_type_name\nparam_name").insert
          "s" "field_decl_enum_all" "enum_base_type\nparam_name", sectionName := "s" }
    let inner : Field := { name := "x", type := some (.scalar .int8), value := some (.number "1") }
    let fields : List Field :=
      [{ name := "a", type := some (.vec (.enum (.struct [inner]) [inner])) },
        { name := "b", type := some (.enum (.struct [inner]) [inner]) },
        { name := "c", type := some (.named "S" (.struct [inner])) }]
    (cx.multiline = false ∧ ∀ f ∈ fields, UnbrokenField f) ∧
      (∀ omitNames, '\n' ∉ (commaList cx omitNames fields).value.toList) ∧
      (semiBlock cx fields).value.toList.count '\n' = fields.length ∧
      NewlinesEndMembers (semiBlock cx fields).value := by
  intro cx inner fields
  have hinner : UnbrokenField inner := by
    refine .mk (by decide) ?_ ?_
    · rintro v ⟨⟩
      decide
    · rintro t ⟨⟩
      exact .scalar .int8
  have htyped {name : String} {t : Ty} (hname : Unbroken name) (ht : UnbrokenType t) :
      UnbrokenField { name, type := some t } := by
    refine .mk hname (by simp) ?_
    rintro t ⟨⟩
    exact ht
  have henum : UnbrokenType (.enum (.struct [inner]) [inner]) := .enum (by simpa using hinner)
  have hfields : ∀ f ∈ fields, UnbrokenField f := by
    simp only [fields, List.forall_mem_cons]
    exact ⟨htyped (by decide) (.vec henum), htyped (by decide) henum,
      htyped (by decide) (.named (by decide)), by simp⟩
  exact ⟨⟨rfl, hfields⟩, fields_on_lines rfl hfields⟩

end IdlStencil.Render
