import Mathlib.Data.List.MinMax
import IdlStencil.Template.Fill

/-!
# Filling is a scan for the longest key

The filler drops the keys that stand nowhere in the template, orders the others once, longer ones
first, and then takes the first that stands at each place. `scan` knows no such list: at each place
it asks all entries for the longest key that stands there. The two agree (`fill_eq_scan`) since two
keys that stand at one place are prefixes of one text, hence one of the other, and are told apart by
their length alone (`LongestAt.unique`).
-/

namespace IdlStencil.Text

theorem occursIn_iff {pattern text : List Char} : occursIn pattern text = true ↔ pattern <:+: text := by
  induction text with
  | nil => cases pattern <;> simp [occursIn, find?]
  | cons c cs ih =>
    by_cases h : pattern <+: c :: cs
    · simp [occursIn, find?, List.isPrefixOf_iff_prefix, h, h.isInfix]
    · simp only [occursIn, find?, List.isPrefixOf_iff_prefix, h, if_false, Option.isSome_map,
        List.infix_cons_iff, false_or]
      exact ih

theorem byteLength_lt_of_length_lt {a b text : List Char} (ha : a <+: text) (hb : b <+: text)
    (h : a.length < b.length) : byteLength a < byteLength b := by
  obtain ⟨rest, rfl⟩ := List.prefix_of_prefix_length_le ha hb (Nat.le_of_lt h)
  cases rest with
  | nil => simp at h
  | cons c cs =>
    have := c.utf8Size_pos
    simp
    omega

end IdlStencil.Text

namespace IdlStencil.Template

open Text (byteLength occursIn)

/-! ## The scanner -/

/-- The longest of the non-empty keys that the text begins with. -/
def longestKey? (subs : Substitutions) (text : List Char) : Option String :=
  ((subs.map Prod.fst).filter fun key => key ≠ "" ∧ key.toList <+: text).argmax String.length

/-- The value of the first entry with a key. -/
def firstValue (subs : Substitutions) (key : String) : String :=
  match subs.find? fun entry => entry.1 = key with
  | some entry => entry.2
  | none => ""

theorem length_pos_of_longestKey? {subs : Substitutions} {text : List Char} {key : String}
    (h : longestKey? subs text = some key) : 0 < key.length := by
  have hmem := List.argmax_mem h
  simp only [List.mem_filter, decide_eq_true_eq] at hmem
  exact Nat.pos_of_ne_zero fun h0 => hmem.2.1 (String.length_eq_zero_iff.mp h0)

/-- Walks the text from left to right. Where a key stands, the value of the longest one is put out
and the walk goes on behind the key; any other character is copied. -/
def scan (subs : Substitutions) : List Char → List Char
  | [] => []
  | c :: cs =>
    match _ : longestKey? subs (c :: cs) with
    | some key => (firstValue subs key).toList ++ scan subs ((c :: cs).drop key.length)
    | none => c :: scan subs cs
termination_by text => text.length
decreasing_by
  · next h =>
    have := length_pos_of_longestKey? h
    simp
    omega
  · simp

theorem firstValue_eq_get? (subs : Substitutions) (key : String) :
    firstValue subs key = (subs.get? key).getD "" := by
  induction subs with
  | nil => rfl
  | cons entry subs ih =>
    obtain ⟨k, v⟩ := entry
    by_cases h : k = key
    · simp [firstValue, Substitutions.get?, h]
    · have h' : (key == k) = false := beq_false_of_ne fun e => h e.symm
      simpa [firstValue, Substitutions.get?, List.lookup_cons, h, h'] using ih

/-! ## The longest key at a place -/

/-- The key is the longest of those that stand at the start of the text. -/
structure LongestAt (subs : Substitutions) (text key : List Char) : Prop where
  listed : String.ofList key ∈ subs.keys
  ne_nil : key ≠ []
  stands : key <+: text
  longest : ∀ other ∈ subs.keys, other.toList <+: text → other.toList.length ≤ key.length

theorem LongestAt.unique {subs : Substitutions} {text key key' : List Char}
    (h : LongestAt subs text key) (h' : LongestAt subs text key') : key = key' := by
  have hle := h'.longest _ h.listed (by simpa using h.stands)
  have hge := h.longest _ h'.listed (by simpa using h'.stands)
  simp only [String.toList_ofList] at hle hge
  exact (List.prefix_of_prefix_length_le h.stands h'.stands hle).eq_of_length
    (Nat.le_antisymm hle hge)

theorem longestKey?_some {subs : Substitutions} {text : List Char} {key : String}
    (h : longestKey? subs text = some key) : LongestAt subs text key.toList := by
  have hmem := List.argmax_mem h
  simp only [List.mem_filter, decide_eq_true_eq] at hmem
  refine ⟨by rw [String.ofList_toList]; exact hmem.1, by simpa using hmem.2.1, hmem.2.2,
    fun other ho hp => ?_⟩
  by_cases he : other = ""
  · simp [he]
  · rw [String.length_toList, String.length_toList]
    exact List.le_of_mem_argmax (List.mem_filter.mpr ⟨ho, by simpa using ⟨he, hp⟩⟩) h

theorem longestKey?_none {subs : Substitutions} {text : List Char}
    (h : longestKey? subs text = none) {key : List Char} : ¬ LongestAt subs text key := by
  intro hk
  have := List.argmax_eq_none.mp h
  simp only [List.filter_eq_nil_iff, decide_eq_true_eq] at this
  refine this _ hk.listed ⟨fun he => hk.ne_nil ?_, by simpa using hk.stands⟩
  simpa using congrArg String.toList he

/-! ## The candidates -/

theorem keyBefore_trans (a b c : List Char) (hab : keyBefore a b = true)
    (hbc : keyBefore b c = true) : keyBefore a c = true := by
  simp only [keyBefore, Bool.or_eq_true, Bool.and_eq_true, decide_eq_true_eq, Bool.not_eq_true',
    decide_eq_false_iff_not, List.not_lt] at hab hbc ⊢
  rcases hab with hab | ⟨hab, lab⟩ <;> rcases hbc with hbc | ⟨hbc, lbc⟩
  · exact .inl (by omega)
  · exact .inl (by omega)
  · exact .inl (by omega)
  · exact .inr ⟨hab.trans hbc, List.le_trans lab lbc⟩

theorem keyBefore_total (a b : List Char) : (keyBefore a b || keyBefore b a) = true := by
  simp only [keyBefore, Bool.or_eq_true, Bool.and_eq_true, decide_eq_true_eq, Bool.not_eq_true',
    decide_eq_false_iff_not, List.not_lt]
  rcases Nat.lt_trichotomy (byteLength a) (byteLength b) with h | h | h
  · exact .inr (.inl h)
  · exact (List.le_total a b).imp (fun l => .inr ⟨h, l⟩) (fun l => .inr ⟨h.symm, l⟩)
  · exact .inl (.inl h)

theorem byteLength_le_of_keyBefore {a b : List Char} (h : keyBefore a b = true) :
    byteLength b ≤ byteLength a := by
  simp only [keyBefore, Bool.or_eq_true, Bool.and_eq_true, decide_eq_true_eq] at h
  omega

private theorem eraseRepsBy_loop (key : List Char) (keys acc : List (List Char)) :
    ∃ rest, List.eraseRepsBy.loop (· == ·) key keys acc = acc.reverse ++ rest ∧
      rest.Sublist (key :: keys) ∧ ∀ k, k ∈ rest ↔ k ∈ key :: keys := by
  induction keys generalizing key acc with
  | nil => exact ⟨[key], by simp [List.eraseRepsBy.loop], .refl _, fun _ => .rfl⟩
  | cons next keys ih =>
    by_cases h : key = next
    · subst h
      obtain ⟨rest, he, hs, hm⟩ := ih key acc
      refine ⟨rest, by simpa [List.eraseRepsBy.loop] using he, hs.cons _, fun k => ?_⟩
      simp [hm]
    · obtain ⟨rest, he, hs, hm⟩ := ih next (key :: acc)
      refine ⟨key :: rest, ?_, hs.cons_cons _, fun k => by simp [hm]⟩
      have hb : (key == next) = false := beq_false_of_ne h
      simpa [List.eraseRepsBy.loop, hb] using he

theorem eraseReps_sublist (keys : List (List Char)) : keys.eraseReps.Sublist keys := by
  cases keys with
  | nil => exact .slnil
  | cons key keys =>
    obtain ⟨rest, he, hs, _⟩ := eraseRepsBy_loop key keys []
    simpa [List.eraseReps, List.eraseRepsBy, he] using hs

theorem mem_eraseReps {key : List Char} {keys : List (List Char)} :
    key ∈ keys.eraseReps ↔ key ∈ keys := by
  cases keys with
  | nil => rfl
  | cons first keys =>
    obtain ⟨rest, he, _, hm⟩ := eraseRepsBy_loop first keys []
    simpa [List.eraseReps, List.eraseRepsBy, he] using hm key

theorem mem_candidates {template key : List Char} {subs : Substitutions} :
    key ∈ candidates template subs ↔
      String.ofList key ∈ subs.keys ∧ key ≠ [] ∧ key <:+: template := by
  simp only [candidates, mem_eraseReps, List.mem_mergeSort, List.mem_filter, List.mem_map,
    Bool.and_eq_true, Bool.not_eq_true', List.isEmpty_eq_false_iff, Text.occursIn_iff]
  refine and_congr_left fun _ => ⟨?_, fun h => ⟨_, h, by simp⟩⟩
  rintro ⟨s, hs, rfl⟩
  simpa using hs

theorem pairwise_candidates (template : List Char) (subs : Substitutions) :
    (candidates template subs).Pairwise fun a b => byteLength b ≤ byteLength a := by
  refine List.Pairwise.sublist (eraseReps_sublist _) ?_
  exact (List.pairwise_mergeSort keyBefore_trans keyBefore_total _).imp byteLength_le_of_keyBefore

/-! ## One step and the whole walk -/

/-- The first candidate that stands at a place of the template is the longest key there. -/
theorem LongestAt.of_find? {template text key : List Char} {subs : Substitutions}
    (h : text <:+ template)
    (hkey : (candidates template subs).find? (fun key => key.isPrefixOf text) = some key) :
    LongestAt subs text key := by
  obtain ⟨hp, before, behind, hsplit, hbefore⟩ := List.find?_eq_some_iff_append.mp hkey
  have hp := List.isPrefixOf_iff_prefix.mp hp
  obtain ⟨hlisted, hne, _⟩ := mem_candidates.mp (List.mem_of_find?_eq_some hkey)
  refine ⟨hlisted, hne, hp, fun other ho hop => ?_⟩
  by_contra hlt
  -- A longer key at this place is a candidate too. It is not before `key`, which was found first,
  -- and not behind it, where nothing is longer.
  have hcand : other.toList ∈ candidates template subs :=
    mem_candidates.mpr ⟨by simpa using ho, fun e => by simp [e] at hlt,
      hop.isInfix.trans h.isInfix⟩
  rw [hsplit, List.mem_append, List.mem_cons] at hcand
  rcases hcand with hm | hm | hm
  · simpa [List.isPrefixOf_iff_prefix.mpr hop] using hbefore _ hm
  · exact hlt (by rw [hm])
  · have hsorted := pairwise_candidates template subs
    rw [hsplit] at hsorted
    have hle := List.rel_of_pairwise_cons (List.pairwise_append.mp hsorted).2.1 hm
    have := Text.byteLength_lt_of_length_lt hp hop (by omega)
    omega

theorem find?_candidates {template text : List Char} (subs : Substitutions) (h : text <:+ template) :
    (candidates template subs).find? (fun key => key.isPrefixOf text) =
      (longestKey? subs text).map String.toList := by
  cases hl : longestKey? subs text with
  | some key =>
    have hlong := longestKey?_some hl
    cases hf : (candidates template subs).find? fun key => key.isPrefixOf text with
    | some key' => simp [(LongestAt.of_find? h hf).unique hlong]
    | none =>
      have hcand := mem_candidates.mpr
        ⟨hlong.listed, hlong.ne_nil, hlong.stands.isInfix.trans h.isInfix⟩
      exact absurd (List.isPrefixOf_iff_prefix.mpr hlong.stands) (List.find?_eq_none.mp hf _ hcand)
  | none =>
    cases hf : (candidates template subs).find? fun key => key.isPrefixOf text with
    | some key' => exact absurd (LongestAt.of_find? h hf) (longestKey?_none hl)
    | none => rfl

theorem replace_eq_scan {template text : List Char} (subs : Substitutions) (skip : Nat)
    (h : text <:+ template) :
    replace (candidates template subs) (fun key => ((subs.get? (String.ofList key)).getD "").toList)
      skip text = scan subs (text.drop skip) := by
  induction text generalizing skip with
  | nil => simp [replace, scan]
  | cons c cs ih =>
    have hcs : cs <:+ template := (List.suffix_cons c cs).trans h
    cases skip with
    | succ skip => simpa [replace] using ih skip hcs
    | zero =>
      rw [replace, find?_candidates subs h, List.drop_zero, scan]
      cases hl : longestKey? subs (c :: cs) with
      | none => simpa using ih 0 hcs
      | some key =>
        obtain ⟨n, hn⟩ : ∃ n, key.length = n + 1 :=
          Nat.exists_eq_succ_of_ne_zero (Nat.ne_of_gt (length_pos_of_longestKey? hl))
        simp [hn, ih _ hcs, firstValue_eq_get?, String.length_toList]

theorem toList_fill (template : String) (subs : Substitutions) :
    (fill template subs).toList = scan subs template.toList := by
  rw [fill, String.toList_ofList, replace_eq_scan subs 0 (List.suffix_refl _), List.drop_zero]

/-- The filler puts out what the scanner does: at each place the value of the longest key, never
looked at again. -/
theorem fill_eq_scan (template : String) (subs : Substitutions) :
    fill template subs = String.ofList (scan subs template.toList) := by
  rw [← toList_fill, String.ofList_toList]

/-- The longer of two keys that begin alike is taken, of two entries with one key the first, the
empty key stands nowhere, and a key in a value is not replaced. -/
theorem fill_eq_scan_of_alike :
    let subs : Substitutions :=
      [("name", "type_name"), ("", "?"), ("name_list", "[name]"), ("type_name", "T"), ("name", "N")]
    fill "name_list: name type_names" subs =
        String.ofList (scan subs "name_list: name type_names".toList) ∧
      fill "name_list: name type_names" subs = "[name]: type_name Ts" := by
  intro subs
  refine ⟨fill_eq_scan _ _, ?_⟩
  rw [fill_eq_scan]
  decide +kernel

end IdlStencil.Template
