import IdlStencil.Proofs.PassNotes

/-!
# What annotations say about the flow of calls

Four names matter, and of each only the first annotation with it (`FirstNamed`): two mark the function by
being there, and two state edges, one for each value with a literal, while a value without one is an
error. Markers come before edges and later calls before earlier ones, wherever the annotations stand
(`CallFlow.parse_exact`). So nothing else in the list is looked at, and no order between different names.
-/

namespace IdlStencil.Render

open Idl (Annot AnnotValue Literal annotNamed? hasAnnot)

/-! ## First annotations -/

/-- The annotation is the first one with a name. -/
def FirstNamed (annotations : List Annot) (name : String) (a : Annot) : Prop :=
  ∃ before after, annotations = before ++ a :: after ∧ a.name = name ∧ ∀ b ∈ before, b.name ≠ name

section

variable {annotations : List Annot} {name : String}

theorem annotNamed?_eq_some_iff {a : Annot} :
    annotNamed? annotations name = some a ↔ FirstNamed annotations name a := by
  simp only [annotNamed?, List.find?_eq_some_iff_append, FirstNamed]
  grind

theorem annotNamed?_eq_none_iff :
    annotNamed? annotations name = none ↔ ∀ a ∈ annotations, a.name ≠ name := by
  simp [annotNamed?]

theorem FirstNamed.unique {a b : Annot} (ha : FirstNamed annotations name a)
    (hb : FirstNamed annotations name b) : a = b := by
  rw [← annotNamed?_eq_some_iff] at ha hb
  exact Option.some.inj (ha.symm.trans hb)

theorem FirstNamed.not_absent {a : Annot} (ha : FirstNamed annotations name a) :
    ¬∀ b ∈ annotations, b.name ≠ name := by
  rw [← annotNamed?_eq_some_iff] at ha
  rw [← annotNamed?_eq_none_iff, ha]
  exact Option.some_ne_none a

theorem hasAnnot_iff : hasAnnot annotations name = true ↔ ∃ a ∈ annotations, a.name = name := by
  simp [hasAnnot, annotNamed?]

theorem annotNamed?_eq_head? : annotNamed? annotations name =
    (annotations.filter fun a => a.name = name).head? := by
  rw [annotNamed?, List.head?_filter]

/-- An annotation behind another one with its name is passed over, and so is one with another name. -/
theorem annotNamed?_without {before after : List Annot} {a : Annot}
    (h : a.name = name → ∃ b ∈ before, b.name = name) :
    annotNamed? (before ++ a :: after) name = annotNamed? (before ++ after) name := by
  rw [annotNamed?, annotNamed?, List.find?_append, List.find?_append]
  by_cases ha : a.name = name
  · have hbefore : (before.find? fun b => b.name = name).isSome := by simpa using h ha
    rw [Option.or_of_isSome hbefore, Option.or_of_isSome hbefore]
  · simp [ha]

end

/-! ## Edges -/

/-- The flow that the first annotation with a name states: nothing where there is none, an error where
it has no values, and else a fact for each literal, as it is written, and an error for each value without
one. -/
inductive StatesEdges (annotations : List Annot) (key : String) (edge : String → CallFact) :
    CallFlow → Prop where
  | absent (h : ∀ a ∈ annotations, a.name ≠ key) : StatesEdges annotations key edge ⟨[], []⟩
  | empty {a : Annot} (h : FirstNamed annotations key a) (hvalues : a.values = []) :
      StatesEdges annotations key edge ⟨[], [.emptyCallEdge key a.line]⟩
  | values {a : Annot} (h : FirstNamed annotations key a) (hvalues : a.values ≠ []) :
      StatesEdges annotations key edge
        ⟨(a.values.filterMap id).map fun
            | .string s => edge ("\"" ++ s ++ "\"")
            | .number s => edge s
            | .ident s => edge s,
          lacking a.values (.missingValue key a.line)⟩

/-- The annotations state one flow. -/
theorem StatesEdges.unique {annotations : List Annot} {key : String} {edge : String → CallFact}
    {flow flow' : CallFlow} (h : StatesEdges annotations key edge flow)
    (h' : StatesEdges annotations key edge flow') : flow = flow' := by
  cases h with
  | absent hnone =>
    cases h' with
    | absent => rfl
    | empty hfirst | values hfirst => exact absurd hnone hfirst.not_absent
  | empty hfirst hvalues =>
    cases h' with
    | absent hnone => exact absurd hnone hfirst.not_absent
    | empty hfirst' => rw [hfirst.unique hfirst']
    | values hfirst' hvalues' => exact absurd hvalues (hfirst.unique hfirst' ▸ hvalues')
  | values hfirst hvalues =>
    cases h' with
    | absent hnone => exact absurd hnone hfirst.not_absent
    | empty hfirst' hvalues' => exact absurd hvalues' (hfirst.unique hfirst' ▸ hvalues)
    | values hfirst' => rw [hfirst.unique hfirst']

namespace CallFlow

theorem facts_edgeValues (edge : String → CallFact) (key : String) (line : UInt32)
    (values : List AnnotValue) :
    (values.foldr (fun v flow => (edgeValue edge key line v).append flow) {}).facts =
      (values.filterMap id).map fun literal => edge literal.text := by
  induction values with
  | nil => rfl
  | cons v values ih => cases v <;> simpa [append, edgeValue] using ih

theorem statesEdges_edges (annotations : List Annot) (key : String) (edge : String → CallFact) :
    StatesEdges annotations key edge (edges annotations key edge) := by
  cases hnamed : annotNamed? annotations key with
  | none =>
    rw [edges, hnamed]
    exact .absent (annotNamed?_eq_none_iff.mp hnamed)
  | some a =>
    have hfirst := annotNamed?_eq_some_iff.mp hnamed
    by_cases hvalues : a.values = []
    · simp only [edges, hnamed, hvalues]
      exact .empty hfirst hvalues
    · have hfacts : (edges annotations key edge).facts =
          (a.values.filterMap id).map fun literal => edge literal.text := by
        simp only [edges, hnamed, List.isEmpty_iff, hvalues, if_false, facts_edgeValues]
      have herrors : (edges annotations key edge).errors = lacking a.values (.missingValue key a.line) := by
        simp only [errors_edges, edgeErrors, hnamed, hvalues, if_false]
      have hflow : edges annotations key edge =
        ⟨(edges annotations key edge).facts, (edges annotations key edge).errors⟩ := rfl
      have hwritten : (fun literal : Literal => edge literal.text) = fun
          | .string s => edge ("\"" ++ s ++ "\"")
          | .number s => edge s
          | .ident s => edge s := by
        funext literal
        cases literal <;> rfl
      rw [hflow, hfacts, herrors, hwritten]
      exact .values hfirst hvalues

/-! ## Markers -/

/-- The markers, of which each states one fact however often it stands. -/
def markers (annotations : List Annot) : List CallFact :=
  (if ∃ a ∈ annotations, a.name = "entry" then [.entry] else []) ++
    if ∃ a ∈ annotations, a.name = "exit" then [.exit] else []

theorem parse_eq (annotations : List Annot) :
    parse annotations =
      ⟨markers annotations ++ (edges annotations "next_calls" .next).facts ++
          (edges annotations "prev_calls" .prev).facts,
        (edges annotations "next_calls" .next).errors ++
          (edges annotations "prev_calls" .prev).errors⟩ := by
  have hmarker (name : String) (fact : CallFact) : marker annotations name fact =
      ⟨if ∃ a ∈ annotations, a.name = name then [fact] else [], []⟩ := by
    simp only [marker, hasAnnot_iff]
    split <;> rfl
  simp only [parse, hmarker, append, markers, List.nil_append, List.append_assoc]

/-! ## What is looked at -/

/-- The names that are looked for. -/
def names : List String := ["entry", "exit", "next_calls", "prev_calls"]

theorem parse_congr {annotations others : List Annot}
    (h : ∀ name ∈ names, annotNamed? annotations name = annotNamed? others name) :
    parse annotations = parse others := by
  have hmarker (name : String) (hname : name ∈ names) (fact : CallFact) :
      marker annotations name fact = marker others name fact := by
    rw [marker, marker, hasAnnot, hasAnnot, h name hname]
  have hedges (key : String) (hkey : key ∈ names) (edge : String → CallFact) :
      edges annotations key edge = edges others key edge := by
    rw [edges, edges, h key hkey]
  rw [parse, parse, hmarker "entry" (by simp [names]), hmarker "exit" (by simp [names]),
    hedges "next_calls" (by simp [names]), hedges "prev_calls" (by simp [names])]

end CallFlow

/-! ## Counting -/

/-- The annotation that an edge comes from. -/
def CallFact.key? : CallFact → Option String
  | .next _ => some "next_calls"
  | .prev _ => some "prev_calls"
  | .entry | .exit => none

/-- The annotation that an error is about. -/
def AnnotError.key : AnnotError → String
  | .emptyCallEdge key _ | .missingValue key _ | .componentType key _ => key

namespace CallFlow

/-- The facts and the errors that come from an annotation. -/
def countOf (flow : CallFlow) (key : String) : Nat :=
  flow.facts.countP (fun fact => fact.key? = some key) + flow.errors.countP (fun e => e.key = key)

theorem countOf_append (a b : CallFlow) (key : String) :
    (a.append b).countOf key = a.countOf key + b.countOf key := by
  simp only [countOf, append, List.countP_append]
  omega

theorem countOf_marker (annotations : List Annot) (name : String) (fact : CallFact)
    (hfact : fact.key? = none) (key : String) : (marker annotations name fact).countOf key = 0 := by
  unfold marker
  split <;> simp [countOf, hfact]

/-- Each value counts once, for the key of its annotation only. -/
theorem countOf_edgeValue {edge : String → CallFact} {key : String}
    (hedge : ∀ target, (edge target).key? = some key) (line : UInt32) (v : AnnotValue) (other : String) :
    (edgeValue edge key line v).countOf other = if key = other then 1 else 0 := by
  cases v <;> by_cases h : key = other <;> simp [edgeValue, countOf, hedge, AnnotError.key, h]

theorem countOf_edgeValues {edge : String → CallFact} {key : String}
    (hedge : ∀ target, (edge target).key? = some key) (line : UInt32) (values : List AnnotValue)
    (other : String) :
    (values.foldr (fun v flow => (edgeValue edge key line v).append flow) {}).countOf other =
      if key = other then values.length else 0 := by
  induction values with
  | nil => simp [countOf]
  | cons v values ih =>
    rw [List.foldr_cons, countOf_append, ih, countOf_edgeValue hedge]
    split <;> simp [Nat.add_comm]

theorem countOf_edges_self {annotations : List Annot} {edge : String → CallFact} {key : String} {a : Annot}
    (hedge : ∀ target, (edge target).key? = some key) (hfirst : FirstNamed annotations key a)
    (hvalues : a.values ≠ []) : (edges annotations key edge).countOf key = a.values.length := by
  simp only [edges, annotNamed?_eq_some_iff.mpr hfirst, List.isEmpty_iff, hvalues, if_false,
    countOf_edgeValues hedge, if_true]

theorem countOf_edges_other (annotations : List Annot) {edge : String → CallFact} {key other : String}
    (hedge : ∀ target, (edge target).key? = some key) (hother : key ≠ other) :
    (edges annotations key edge).countOf other = 0 := by
  unfold edges
  split
  · rfl
  · split
    · simp [countOf, AnnotError.key, hother]
    · rw [countOf_edgeValues hedge, if_neg hother]

/-- Each value of an edge annotation is a fact or an error. -/
theorem countOf_parse {annotations : List Annot} {key : String} (hkey : key ∈ ["next_calls", "prev_calls"])
    {a : Annot} (hfirst : FirstNamed annotations key a) (hvalues : a.values ≠ []) :
    (parse annotations).countOf key = a.values.length := by
  have hnext (target : String) : (CallFact.next target).key? = some "next_calls" := rfl
  have hprev (target : String) : (CallFact.prev target).key? = some "prev_calls" := rfl
  have hentry := countOf_marker annotations "entry" .entry rfl key
  have hexit := countOf_marker annotations "exit" .exit rfl key
  rw [parse, countOf_append, countOf_append, countOf_append, hentry, hexit, Nat.zero_add, Nat.zero_add]
  simp only [List.mem_cons, List.not_mem_nil, or_false] at hkey
  rcases hkey with rfl | rfl
  · rw [countOf_edges_self hnext hfirst hvalues, countOf_edges_other annotations hprev (by decide),
      Nat.add_zero]
  · rw [countOf_edges_self hprev hfirst hvalues, countOf_edges_other annotations hnext (by decide),
      Nat.zero_add]

/-- The flow has the markers, then what the first annotation states for each kind of edge, and nothing
else. With values, these are as many facts and errors as the annotation has values. Neither the order of
annotations with different names matters, nor an annotation that is not the first of a name that is
looked for. -/
theorem parse_exact (annotations : List Annot) :
    (∃ next prev, StatesEdges annotations "next_calls" .next next ∧
      StatesEdges annotations "prev_calls" .prev prev ∧
      parse annotations =
        ⟨markers annotations ++ next.facts ++ prev.facts, next.errors ++ prev.errors⟩) ∧
    (∀ key ∈ ["next_calls", "prev_calls"], ∀ a, FirstNamed annotations key a → a.values ≠ [] →
      (parse annotations).countOf key = a.values.length) ∧
    (∀ others : List Annot,
      (∀ name, (others.filter fun a => a.name = name) = annotations.filter fun a => a.name = name) →
        parse others = parse annotations) ∧
    ∀ before a after, annotations = before ++ a :: after →
      (a.name ∈ names → ∃ b ∈ before, b.name = a.name) → parse (before ++ after) = parse annotations := by
  refine ⟨⟨_, _, statesEdges_edges _ _ _, statesEdges_edges _ _ _, parse_eq annotations⟩,
    fun key hkey a => countOf_parse hkey, fun others h => parse_congr fun name _ => ?_, ?_⟩
  · rw [annotNamed?_eq_head?, h name, ← annotNamed?_eq_head?]
  · rintro before a after rfl hpassed
    refine parse_congr fun name hname => (annotNamed?_without fun ha => ?_).symm
    subst ha
    exact hpassed hname

/-- Edges behind a marker and before others, with literals of each kind, values without one, and two
annotations that come second. -/
theorem parse_exact_of_mixed :
    let prev : Annot :=
      { name := "prev_calls", line := 2, values := [some (.ident "g"), none, some (.string "h")] }
    let next : Annot :=
      { name := "next_calls", line := 4, values := [some (.string "a b"), some (.number "1"), none] }
    let annotations : List Annot :=
      [prev, { name := "exit" }, { name := "doc", values := [none] }, next, { name := "exit", line := 9 },
        { name := "next_calls", line := 9 }]
    (FirstNamed annotations "next_calls" next ∧ next.values ≠ []) ∧
      parse annotations =
        ⟨[.exit, .next "\"a b\"", .next "1", .prev "g", .prev "\"h\""],
          [.missingValue "next_calls" 4, .missingValue "prev_calls" 2]⟩ ∧
      (parse annotations).countOf "next_calls" = 3 := by
  intro prev next annotations
  have hnext : FirstNamed annotations "next_calls" next := annotNamed?_eq_some_iff.mp rfl
  have hprev : FirstNamed annotations "prev_calls" prev := annotNamed?_eq_some_iff.mp rfl
  have hvalues : next.values ≠ [] := List.cons_ne_nil _ _
  obtain ⟨⟨nexts, prevs, hnexts, hprevs, hparse⟩, hcount, -, -⟩ := parse_exact annotations
  obtain rfl := hnexts.unique (.values hnext hvalues)
  obtain rfl := hprevs.unique (.values hprev (List.cons_ne_nil _ _))
  exact ⟨⟨hnext, hvalues⟩, hparse, hcount "next_calls" List.mem_cons_self next hnext hvalues⟩

end CallFlow

end IdlStencil.Render
