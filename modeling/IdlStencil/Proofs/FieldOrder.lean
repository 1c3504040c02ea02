import Mathlib.Logic.Equiv.Defs
import IdlStencil.Proofs.FileOrder

/-!
# Lists of fields follow their order

There are six renderings of a list of fields. Some of them pass over fields without a type, some put
commas between what they render, and all of them may note something on the way. What they have in common
is that a field is rendered alone, whatever stands around it (`Itemwise`): the rendering of a list is
the renderings of its fields in their order, joined, and so are the notes. It follows how a rendering of
two lists together comes from those of each, and that fields in another order have the same items in that
order (`fields_in_order`).
-/

namespace IdlStencil.Noted

variable {α β : Type}

/-- What is passed over is as good as an empty text. -/
theorem concat_filterMap (f : β → Noted String) (p : α → Option β) (as : List α) :
    concat f (as.filterMap p) = concat (fun a => concat f (p a).toList) as := by
  ext1
  · simp only [value_concat]
    induction as with
    | nil => rfl
    | cons a as ih => cases hp : p a <;> simp [hp, ih]
  · simp only [notes_concat]
    induction as with
    | nil => rfl
    | cons a as ih => cases hp : p a <;> simp [hp, ih]

end IdlStencil.Noted

namespace IdlStencil.Render

open Idl (Ty Field)

/-! ## Items -/

/-- Every field is rendered alone, and the items are joined in the order of the fields. -/
def Itemwise (join : List String → String) (render : List Field → Noted String) : Prop :=
  ∀ fields, render fields = do return join (← Noted.traverse (fun f => render [f]) fields)

section

variable {join : List String → String} {render : List Field → Noted String}

/-- It does not matter what the item of a field is called. -/
theorem itemwise_of_item (hjoin : ∀ text, join [text] = text) (item : Field → Noted String)
    (h : ∀ fields, render fields = do return join (← Noted.traverse item fields)) :
    Itemwise join render := by
  have hitem : (fun f => render [f]) = item := by
    funext f
    rw [h]
    ext1
    · exact hjoin _
    · simp [Noted.traverse]
  intro fields
  rw [hitem]
  exact h fields

theorem Itemwise.value (h : Itemwise join render) (fields : List Field) :
    (render fields).value = join (fields.map fun f => (render [f]).value) := by
  rw [h fields, Noted.value_bind, Noted.value_traverse, Noted.value_pure]

theorem Itemwise.notes (h : Itemwise join render) (fields : List Field) :
    (render fields).notes = fields.flatMap fun f => (render [f]).notes := by
  rw [h fields, Noted.notes_bind, Noted.notes_traverse, Noted.notes_pure, List.append_nil]

end

/-! ## The six renderings -/

section

variable (cx : Context)

theorem parameters_eq_traverse (omitNames : Bool) (fields : List Field) :
    parameters cx omitNames fields = Noted.traverse (parameter cx omitNames) fields := by
  induction fields with
  | nil => rw [parameters, Noted.traverse]
  | cons f fs ih => rw [parameters, Noted.traverse, ih]

theorem members_eq_traverse (fields : List Field) :
    members cx fields = Noted.traverse (member cx) fields := by
  induction fields with
  | nil => rw [members, Noted.traverse]
  | cons f fs ih => rw [members, Noted.traverse, ih]

theorem itemwise_commaList (omitNames : Bool) :
    Itemwise ", ".intercalate (commaList cx omitNames) := by
  refine itemwise_of_item (fun _ => String.intercalate_singleton) (parameter cx omitNames) fun fields => ?_
  rw [commaList, parameters_eq_traverse]

theorem itemwise_nameList (snippet : Option String) :
    Itemwise ", ".intercalate (nameList cx snippet) :=
  itemwise_of_item (fun _ => String.intercalate_singleton) _ fun _ => rfl

theorem itemwise_semiBlock : Itemwise String.join (semiBlock cx) := by
  refine itemwise_of_item (by simp) (member cx) fun fields => ?_
  rw [semiBlock, members_eq_traverse]

/-- Renderings that pass over fields without a type. -/
theorem itemwise_typed (item : Field × Ty → Noted String) :
    Itemwise String.join fun fields => Noted.concat item (typed fields) :=
  itemwise_of_item (by simp) _ fun fields => Noted.concat_filterMap item _ fields

end

/-! ## Order -/

/-- A rendering of lists of fields that follows their order. -/
structure InOrder (join : List String → String) (render : List Field → Noted String) : Prop where
  notes_append (xs ys : List Field) :
    (render (xs ++ ys)).notes = (render xs).notes ++ (render ys).notes
  /-- Fields in another order have the same items, in that order. -/
  permuted {n : Nat} (fields : Fin n → Field) (σ : Equiv.Perm (Fin n)) :
    let items i := (render [fields i]).value
    (render (List.ofFn fields)).value = join (List.ofFn items) ∧
      (render (List.ofFn (fields ∘ σ))).value = join (List.ofFn (items ∘ σ))

/-- A rendering that puts nothing between the items. -/
structure Concatenates (render : List Field → Noted String) : Prop
    extends InOrder String.join render where
  append (xs ys : List Field) : (render (xs ++ ys)).value = (render xs).value ++ (render ys).value

/-- A rendering that puts a comma between any two items, whether or not they have a text. -/
structure Separates (render : List Field → Noted String) : Prop
    extends InOrder ", ".intercalate render where
  append (xs ys : List Field) :
    (render (xs ++ ys)).value =
      match xs, ys with
      | [], _ => (render ys).value
      | _ :: _, [] => (render xs).value
      | _ :: _, _ :: _ => (render xs).value ++ ", " ++ (render ys).value

section

variable {join : List String → String} {render : List Field → Noted String}

theorem Itemwise.inOrder (h : Itemwise join render) : InOrder join render where
  notes_append xs ys := by rw [h.notes, List.flatMap_append, ← h.notes, ← h.notes]
  permuted fields σ := by
    intro items
    exact ⟨by rw [h.value, List.map_ofFn]; rfl, by rw [h.value, List.map_ofFn]; rfl⟩

theorem Itemwise.concatenates (h : Itemwise String.join render) : Concatenates render where
  toInOrder := h.inOrder
  append xs ys := by rw [h.value, List.map_append, String.join_append, ← h.value, ← h.value]

theorem Itemwise.separates (h : Itemwise ", ".intercalate render) : Separates render where
  toInOrder := h.inOrder
  append xs ys := by
    cases xs with
    | nil => rfl
    | cons x xs =>
      cases ys with
      | nil => rw [List.append_nil]
      | cons y ys =>
        rw [h.value, List.map_append, String.intercalate_append_of_ne_nil (by simp) (by simp),
          ← h.value, ← h.value]

end

/-- All renderings of lists of fields go through them in order, in every context. -/
theorem fields_in_order (cx : Context) :
    Concatenates (semiBlock cx) ∧
    (∀ stem, Concatenates (byType cx stem)) ∧
    (∀ stem, Concatenates (bySuffix cx stem)) ∧
    (∀ label, Concatenates (suiteArgs cx label)) ∧
    (∀ omitNames, Separates (commaList cx omitNames)) ∧
    ∀ snippet, Separates (nameList cx snippet) :=
  ⟨(itemwise_semiBlock cx).concatenates, fun _ => (itemwise_typed _).concatenates,
    fun _ => (itemwise_typed _).concatenates, fun _ => (itemwise_typed _).concatenates,
    fun omitNames => (itemwise_commaList cx omitNames).separates,
    fun snippet => (itemwise_nameList cx snippet).separates⟩

end IdlStencil.Render
