/-!
# Interleavings

Sequences of steps that run at once, where nothing is known about the scheduler: at any time some
sequence that is not done takes its next step. Every sequence keeps its own order, and no step is
lost or done twice (`Interleaving.perm`). What is seen of only some steps is interleaved as well
(`Interleaving.filterMap`), and running the sequences one after another is one of the ways to
interleave them (`Interleaving.flatten`).
-/

namespace IdlStencil

/-- A list takes its elements from the heads of others, until these are empty. -/
inductive Interleaving {α : Type} : List (List α) → List α → Prop
  | nil {ls : List (List α)} (h : ∀ l ∈ ls, l = []) : Interleaving ls []
  | cons (before : List (List α)) {after : List (List α)} {rest out : List α} (a : α)
      (h : Interleaving (before ++ rest :: after) out) :
      Interleaving (before ++ (a :: rest) :: after) (a :: out)

namespace Interleaving

variable {α β : Type} {ls : List (List α)} {out : List α}

theorem perm (h : Interleaving ls out) : out.Perm ls.flatten := by
  induction h with
  | nil h => rw [List.flatten_eq_nil_iff.mpr h]
  | cons before a _ ih =>
    simp only [List.flatten_append, List.flatten_cons, List.cons_append] at ih ⊢
    exact (ih.cons a).trans List.perm_middle.symm

theorem filterMap (f : α → Option β) (h : Interleaving ls out) :
    Interleaving (ls.map (List.filterMap f)) (out.filterMap f) := by
  induction h with
  | nil h =>
    refine .nil fun l hl => ?_
    obtain ⟨source, hsource, rfl⟩ := List.mem_map.mp hl
    rw [h source hsource, List.filterMap_nil]
  | cons before a _ ih =>
    rw [List.map_append, List.map_cons] at ih ⊢
    cases ha : f a with
    | none => rwa [List.filterMap_cons_none ha, List.filterMap_cons_none ha]
    | some b =>
      rw [List.filterMap_cons_some ha, List.filterMap_cons_some ha]
      exact .cons _ b ih

/-- A sequence without steps takes no part. -/
theorem skip (h : Interleaving ls out) : Interleaving ([] :: ls) out := by
  induction h with
  | nil h => exact .nil (List.forall_mem_cons.mpr ⟨rfl, h⟩)
  | cons before a _ ih => exact .cons ([] :: before) a ih

theorem flatten (ls : List (List α)) : Interleaving ls ls.flatten := by
  induction ls with
  | nil => exact .nil (by simp)
  | cons l ls ih =>
    induction l with
    | nil => exact ih.skip
    | cons a l ihl => exact .cons [] a ihl

end Interleaving
end IdlStencil
