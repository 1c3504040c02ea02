import IdlStencil.Template.Substitutions
import IdlStencil.Text.Find

/-!
Filling a template. Keys are literal text. The template is walked once from left to right: where a
key stands it is replaced and the walk goes on behind it, so a replacement is never looked at again.
Where several keys stand the first of the candidates is taken, and since longer candidates come
first a key inside another key does not split it.
-/

namespace IdlStencil.Template

open Text (byteLength occursIn)

/-- Longer keys come first, keys of one length in the order of their characters. -/
def keyBefore (a b : List Char) : Bool :=
  byteLength b < byteLength a || (byteLength a = byteLength b && !decide (b < a))

/-- The keys that can stand in the template, each once, longer ones first. -/
def candidates (template : List Char) (subs : Substitutions) : List (List Char) :=
  ((subs.keys.map String.toList).filter fun key => !key.isEmpty && occursIn key template)
    |>.mergeSort keyBefore |>.eraseReps

/-- Replaces the first of the keys that stands at each place. The first `skip` characters belong to
a key that was replaced before. -/
def replace (keys : List (List Char)) (value : List Char → List Char) :
    (skip : Nat) → List Char → List Char
  | _, [] => []
  | skip + 1, _ :: cs => replace keys value skip cs
  | 0, c :: cs =>
    match keys.find? fun key => key.isPrefixOf (c :: cs) with
    | some key => value key ++ replace keys value (key.length - 1) cs
    | none => c :: replace keys value 0 cs

/-- The template with every key replaced by its first replacement. -/
def fill (template : String) (subs : Substitutions) : String :=
  let text := template.toList
  String.ofList (replace (candidates text subs)
    (fun key => ((subs.get? (String.ofList key)).getD "").toList) 0 text)

end IdlStencil.Template
