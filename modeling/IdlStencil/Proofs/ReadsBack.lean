import IdlStencil.Json.Record
import IdlStencil.Proofs.CompactText

/-!
# Readers that give back what was written

`ReadsBack levels read v a` says that the reader takes the document of `v` for `a`: from the stream
exactly when there is room for the depth of `v`, the text being malformed otherwise, and always when
the document is held. Readers of types are stacks of finitely many levels, so both are asked only
below `levels`; a variant uses one level up (`ReadsBack.beside`) and every other way of putting
readers together none.

A record reads back when its members spell its slots in order, each slot being written or left out
for its default (`Spelled`).
-/

namespace IdlStencil.Json

/-! ## Depth -/

mutual

/-- How deep arrays and objects nest in a value. -/
def Value.depth : Value → Nat
  | .array items => itemsDepth items + 1
  | .object members => membersDepth members + 1
  | _ => 0

def itemsDepth : List Value → Nat
  | [] => 0
  | v :: vs => max v.depth (itemsDepth vs)

def membersDepth : List (String × Value) → Nat
  | [] => 0
  | (_, v) :: ms => max v.depth (membersDepth ms)

end

/-- Every number inside has a value. -/
inductive Valued : Value → Prop where
  | null : Valued .null
  | bool (b : Bool) : Valued (.bool b)
  | number {n : Int} (h : (spelledInt n).value?.isSome) : Valued (.number n)
  | string (s : String) : Valued (.string s)
  | array {items : List Value} (h : ∀ v ∈ items, Valued v) : Valued (.array items)
  | object {members : List (String × Value)} (h : ∀ m ∈ members, Valued m.2) :
      Valued (.object members)

private theorem holdableItems_docs {room : Nat} {items : List Value}
    (h : ∀ v ∈ items, v.doc.holdable room = decide (v.depth ≤ room)) :
    holdableItems room (itemDocs items) = decide (itemsDepth items ≤ room) := by
  induction items with
  | nil => simp [itemDocs, holdableItems, itemsDepth]
  | cons v vs ih =>
    rw [itemDocs, holdableItems, h v List.mem_cons_self, ih fun w hw => h w (List.mem_cons_of_mem _ hw)]
    simp only [itemsDepth, Nat.max_le, Bool.decide_and]

private theorem holdableMembers_docs {room : Nat} {members : List (String × Value)}
    (h : ∀ m ∈ members, m.2.doc.holdable room = decide (m.2.depth ≤ room)) :
    holdableMembers room (memberDocs members) = decide (membersDepth members ≤ room) := by
  induction members with
  | nil => simp [memberDocs, holdableMembers, membersDepth]
  | cons m ms ih =>
    obtain ⟨key, v⟩ := m
    rw [memberDocs, holdableMembers, h _ List.mem_cons_self,
      ih fun w hw => h w (List.mem_cons_of_mem _ hw)]
    simp only [membersDepth, Nat.max_le, Bool.decide_and, Option.isSome_some, Bool.true_and]

/-- A value can be held exactly where there is room for its depth. -/
theorem Valued.holdable_doc {v : Value} (h : Valued v) (room : Nat) :
    v.doc.holdable room = decide (v.depth ≤ room) := by
  induction h generalizing room with
  | null | bool | string => simp [Value.doc, Doc.holdable, Value.depth]
  | number h => simpa [Value.doc, Doc.holdable, Value.depth] using h
  | array _ ih =>
    cases room with
    | zero => simp [Value.doc, Doc.holdable, Value.depth]
    | succ room =>
      simp [Value.doc, Doc.holdable, Value.depth, holdableItems_docs fun v hv => ih v hv room]
  | object _ ih =>
    cases room with
    | zero => simp [Value.doc, Doc.holdable, Value.depth]
    | succ room =>
      simp [Value.doc, Doc.holdable, Value.depth, holdableMembers_docs fun m hm => ih m hm room]

/-! ## Results that need room -/

section Within

variable {α β : Type} {room depth depth' : Nat} {a : α} {b : β}

/-- The result of reading something of a depth from a stream. -/
def within (room depth : Nat) (a : α) : Except Fault α :=
  if depth ≤ room then .ok a else .error .malformed

@[simp] theorem within_zero : within room 0 a = .ok a := if_pos (Nat.zero_le _)

@[simp] theorem ok_bind (f : α → Except Fault β) : (Except.ok a >>= f) = f a := rfl

theorem map_within (f : α → β) : (within room depth a).map f = within room depth (f a) := by
  unfold within
  split <;> rfl

theorem within_bind {f : α → Except Fault β} (h : f a = within room depth' b) :
    (within room depth a >>= f) = within room (max depth depth') b := by
  by_cases hd : depth ≤ room
  · rw [within, if_pos hd]
    refine h.trans ?_
    simp only [within, Nat.max_le, hd, true_and]
  · rw [within, if_neg hd, within, if_neg fun hm => hd (Nat.max_le.mp hm).1]
    rfl

theorem within_bind_ok {f : α → Except Fault β} (h : depth ≤ room → f a = .ok b) :
    (within room depth a >>= f) = within room depth b := by
  unfold within
  split
  · next hd => exact h hd
  · rfl

/-- Whatever is inside an array or object needs one less. -/
theorem enter_bind {f : Source → Except Fault α}
    (h : ∀ r < room, f (.stream r) = within r depth a) :
    ((Source.stream room).enter >>= f) = within room (depth + 1) a := by
  cases room with
  | zero => rfl
  | succ r =>
    refine (h r (Nat.lt_succ_self r)).trans ?_
    simp [within]

theorem hold_doc {v : Value} (h : Valued v) :
    (Source.stream room).hold v.doc = within room v.depth () := by
  simp [Source.hold, h.holdable_doc, within]

end Within

/-- Inserting the next entry of a map into the map of the entries before it. -/
theorem OrderedMap.entries_insert_of_full {α : Type} {m full : OrderedMap α} {e : String × α}
    {es : List (String × α)} (h : full.entries = m.entries ++ e :: es) :
    (m.insert e.1 e.2).entries = m.entries ++ [e] := by
  have hd := full.distinct
  rw [h, List.map_append, List.map_cons, List.nodup_append] at hd
  exact insertPair_of_not_mem fun hm => hd.2.2 _ hm _ List.mem_cons_self rfl

/-! ## Reading back -/

/-- The reader takes the document of the value for `a`. -/
structure ReadsBack {α : Type} (levels : Nat) (read : Reader α) (v : Value) (a : α) : Prop where
  stream : ∀ room < levels, read (.stream room) v.doc = within room v.depth a
  held : v.depth < levels → read .held v.doc = .ok a

namespace ReadsBack

variable {α β : Type} {levels : Nat} {read : Reader α} {v : Value} {a : α}

theorem mono {levels' : Nat} (h : ReadsBack levels' read v a) (hle : levels ≤ levels') :
    ReadsBack levels read v a where
  stream room hr := h.stream room (by omega)
  held hd := h.held (by omega)

theorem map (h : ReadsBack levels read v a) (f : α → β) :
    ReadsBack levels (fun source d => (read source d).map f) v (f a) where
  stream room hr := by rw [h.stream room hr, map_within]
  held hd := by rw [h.held hd]; rfl

theorem text (expected s : String) : ReadsBack levels (Reader.text expected) (.string s) s where
  stream _ _ := by simp [Value.doc, Reader.text, Value.depth]
  held _ := by simp [Value.doc, Reader.text]

theorem string (s : String) : ReadsBack levels Reader.string (.string s) s := text _ s

/-! ### Options and lists -/

theorem none : ReadsBack levels (Reader.optional read) .null .none where
  stream _ _ := by simp [Value.doc, Reader.optional, Value.depth]
  held _ := rfl

theorem some (h : ReadsBack levels read v a) (hv : v ≠ .null) :
    ReadsBack levels (Reader.optional read) v (.some a) := by
  have heq : ∀ source, Reader.optional read source v.doc = (read source v.doc).map .some := by
    intro source
    cases v <;> first | rfl | exact absurd rfl hv
  refine ⟨fun room hr => ?_, fun hd => ?_⟩
  · rw [heq, h.stream room hr, map_within]
  · rw [heq, h.held hd]
    rfl

private theorem items_stream {write : α → Value} {as : List α} {room : Nat}
    (h : ∀ a ∈ as, ReadsBack levels read (write a) a) (hr : room < levels) :
    Reader.items read (.stream room) (itemDocs (as.map write)) =
      within room (itemsDepth (as.map write)) as := by
  induction as with
  | nil => simp [itemDocs, itemsDepth, Reader.items]
  | cons a as ih =>
    simp only [List.map_cons, itemDocs, itemsDepth, Reader.items]
    rw [(h a List.mem_cons_self).stream room hr]
    refine within_bind ?_
    rw [ih fun b hb => h b (List.mem_cons_of_mem _ hb)]
    exact map_within _

private theorem items_held {write : α → Value} {as : List α}
    (h : ∀ a ∈ as, ReadsBack levels read (write a) a) (hd : itemsDepth (as.map write) < levels) :
    Reader.items read .held (itemDocs (as.map write)) = .ok as := by
  induction as with
  | nil => rfl
  | cons a as ih =>
    simp only [List.map_cons, itemsDepth, Nat.max_lt] at hd
    simp only [List.map_cons, itemDocs, Reader.items]
    rw [(h a List.mem_cons_self).held hd.1, ih (fun b hb => h b (List.mem_cons_of_mem _ hb)) hd.2]
    rfl

theorem list {write : α → Value} {as : List α} (h : ∀ a ∈ as, ReadsBack levels read (write a) a) :
    ReadsBack levels (Reader.list read) (.array (as.map write)) as where
  stream room hr := by
    simp only [Value.doc, Reader.list, Value.depth]
    refine enter_bind fun r hlt => ?_
    rw [items_stream h (by omega)]
    exact within_bind_ok fun _ => rfl
  held hd := by
    have hitems := items_held h (Nat.lt_of_succ_lt hd)
    simp only [Value.doc, Reader.list, Source.enter, ok_bind, hitems]
    rfl

/-! ### Maps -/

private theorem members_stream {write : α → Value} {room : Nat} (es : List (String × α))
    (m full : OrderedMap α) (hfull : full.entries = m.entries ++ es)
    (h : ∀ e ∈ es, ReadsBack levels read (write e.2) e.2) (hr : room < levels) :
    Reader.members read (.stream room) (memberDocs (es.map fun e => (e.1, write e.2))) m =
      within room (membersDepth (es.map fun e => (e.1, write e.2))) full := by
  induction es generalizing m with
  | nil =>
    have : full = m := OrderedMap.ext (by simpa using hfull)
    simp [memberDocs, membersDepth, Reader.members, this]
  | cons e es ih =>
    simp only [List.map_cons, memberDocs, membersDepth, Reader.members]
    rw [(h e List.mem_cons_self).stream room hr]
    refine within_bind (ih _ ?_ fun e' he => h e' (List.mem_cons_of_mem _ he))
    rw [OrderedMap.entries_insert_of_full hfull, hfull, List.append_assoc]
    rfl

private theorem members_held {write : α → Value} (es : List (String × α))
    (m full : OrderedMap α) (hfull : full.entries = m.entries ++ es)
    (h : ∀ e ∈ es, ReadsBack levels read (write e.2) e.2)
    (hd : membersDepth (es.map fun e => (e.1, write e.2)) < levels) :
    Reader.members read .held (memberDocs (es.map fun e => (e.1, write e.2))) m = .ok full := by
  induction es generalizing m with
  | nil =>
    have : full = m := OrderedMap.ext (by simpa using hfull)
    simp [memberDocs, Reader.members, this]
  | cons e es ih =>
    simp only [List.map_cons, membersDepth, Nat.max_lt] at hd
    simp only [List.map_cons, memberDocs, Reader.members]
    rw [(h e List.mem_cons_self).held hd.1]
    refine ih _ ?_ (fun e' he => h e' (List.mem_cons_of_mem _ he)) hd.2
    rw [OrderedMap.entries_insert_of_full hfull, hfull, List.append_assoc]
    rfl

theorem orderedMap {write : α → Value} (m : OrderedMap α)
    (h : ∀ e ∈ m.entries, ReadsBack levels read (write e.2) e.2) :
    ReadsBack levels (Reader.map read) (.object (m.entries.map fun e => (e.1, write e.2))) m where
  stream room hr := by
    simp only [Value.doc, Reader.map, Value.depth]
    refine enter_bind fun r hlt => ?_
    rw [members_stream m.entries .empty m rfl h (by omega)]
    exact within_bind_ok fun _ => rfl
  held hd := by
    have hmembers := members_held m.entries .empty m rfl h (Nat.lt_of_succ_lt hd)
    simp only [Value.doc, Reader.map, Source.enter, ok_bind, hmembers]
    rfl

/-! ### Variants -/

variable {alternatives : List (String × Reader.Payload α)} {name : String}

theorem alone (hp : alternatives.lookup name = .some (.bare a)) :
    ReadsBack levels (Reader.variant alternatives) (.string name) a := by
  have heq : ∀ source, Reader.variant alternatives source (Value.string name).doc = .ok a := by
    intro source
    simp [Value.doc, Reader.variant, Reader.find, hp, Reader.Payload.alone]
  exact ⟨fun room _ => by simp [heq, Value.depth], fun _ => heq _⟩

/-- A variant with something next to its name. What it carries is read one level further down. -/
theorem beside {payload : Reader.Payload α} (hp : alternatives.lookup name = .some payload)
    (hb : ∀ source, payload.beside source v.doc = read source v.doc) (h : ReadsBack levels read v a) :
    ReadsBack (levels + 1) (Reader.variant alternatives) (.object [(name, v)]) a where
  stream room hr := by
    simp only [Value.doc, memberDocs, Reader.variant, Value.depth, membersDepth, Nat.max_zero]
    refine enter_bind fun r hlt => ?_
    simp only [Reader.find, hp, ok_bind, hb]
    rw [h.stream r (by omega)]
    exact within_bind_ok fun _ => rfl
  held hd := by
    simp only [Value.depth, membersDepth, Nat.max_zero] at hd
    simp only [Value.doc, memberDocs, Reader.variant, Reader.find, hp, ok_bind, hb]
    exact h.held (by omega)

end ReadsBack

/-! ## Records -/

def Slots.names {αs : List Type} : Slots αs → List String
  | .nil => []
  | .cons slot rest => slot.name :: rest.names

/-- The members spell a record: each slot in its turn is written, or left out for its default. -/
inductive Spelled (levels : Nat) :
    {αs : List Type} → Slots αs → List (String × Value) → Tuple αs → Prop where
  | nil : Spelled levels .nil [] ()
  | written {α : Type} {αs : List Type} {slot : Slot α} {rest : Slots αs} {v : Value} {a : α}
      {ms : List (String × Value)} {t : Tuple αs} (h : ReadsBack levels slot.read v a)
      (hrest : Spelled levels rest ms t) :
      Spelled levels (.cons slot rest) ((slot.name, v) :: ms) (a, t)
  | left {α : Type} {αs : List Type} {slot : Slot α} {rest : Slots αs} {a : α}
      {ms : List (String × Value)} {t : Tuple αs} (h : slot.absent = some a)
      (hrest : Spelled levels rest ms t) : Spelled levels (.cons slot rest) ms (a, t)

namespace Spelled

variable {αs : List Type} {levels : Nat} {slots : Slots αs} {ms : List (String × Value)} {t : Tuple αs}

theorem key_mem (h : Spelled levels slots ms t) : ∀ m ∈ ms, m.1 ∈ slots.names := by
  induction h with
  | nil => simp
  | written _ _ ih =>
    intro m hm
    rcases List.mem_cons.mp hm with rfl | hm
    · exact List.mem_cons_self
    · exact List.mem_cons_of_mem _ (ih m hm)
  | left _ _ ih => exact fun m hm => List.mem_cons_of_mem _ (ih m hm)

theorem key_ne (h : Spelled levels slots ms t) {name : String} (hname : name ∉ slots.names) :
    ∀ m ∈ ms, m.1 ≠ name := by
  rintro m hm rfl
  exact hname (h.key_mem m hm)

/-- Members with other keys leave the first slot as it is. -/
private theorem members_cons {α : Type} {slot : Slot α} {rest : Slots αs} {source : Source}
    (here : Option α) (hne : ∀ m ∈ ms, m.1 ≠ slot.name) (others : Partly αs) :
    (Slots.cons slot rest).members source (memberDocs ms) (here, others) =
      (rest.members source (memberDocs ms) others).map fun others => (here, others) := by
  induction ms generalizing others with
  | nil => rfl
  | cons m ms ih =>
    have ih := ih fun m' hm => hne m' (List.mem_cons_of_mem _ hm)
    have hm : ¬ slot.name = m.1 := fun he => hne m List.mem_cons_self he.symm
    simp only [memberDocs, Slots.members, Slots.put, if_neg hm]
    cases rest.put source m.1 m.2.doc others with
    | none =>
      simp only [Option.map_none]
      cases source.skip m.2.doc with
      | error => rfl
      | ok => exact ih others
    | some read =>
      simp only [Option.map_some]
      cases read with
      | error => rfl
      | ok others => exact ih others

private theorem members_written {α : Type} {slot : Slot α} {rest : Slots αs} {v : Value}
    {source : Source} (hne : ∀ m ∈ ms, m.1 ≠ slot.name) :
    (Slots.cons slot rest).members source (memberDocs ((slot.name, v) :: ms))
        (Slots.cons slot rest).start =
      slot.read source v.doc >>= fun a =>
        (rest.members source (memberDocs ms) rest.start).map fun others => (some a, others) := by
  simp only [memberDocs, Slots.members, Slots.start, Slots.put, if_true]
  cases slot.read source v.doc with
  | error => rfl
  | ok a => exact members_cons (some a) hne rest.start

/-- Reading the members in order completes the record. -/
theorem members (h : Spelled levels slots ms t) (hn : slots.names.Nodup) :
    ∃ partly, slots.finish partly = .ok t ∧
      (∀ room < levels, slots.members (.stream room) (memberDocs ms) slots.start =
        within room (membersDepth ms) partly) ∧
      (membersDepth ms < levels →
        slots.members .held (memberDocs ms) slots.start = .ok partly) := by
  induction h with
  | nil =>
    refine ⟨(), rfl, fun room _ => ?_, fun _ => rfl⟩
    simp [memberDocs, membersDepth, Slots.members, Slots.start]
  | @written _ _ slot rest v a ms t hv hrest ih =>
    obtain ⟨hnot, hn⟩ := List.nodup_cons.mp hn
    have hne := hrest.key_ne hnot
    obtain ⟨partly, hfinish, hstream, hheld⟩ := ih hn
    have hfinish : (Slots.cons slot rest).finish (some a, partly) = .ok (a, t) := by
      simp only [Slots.finish, hfinish]
      rfl
    refine ⟨(some a, partly), hfinish, fun room hr => ?_, fun hd => ?_⟩
    · rw [members_written hne, hv.stream room hr, membersDepth]
      refine within_bind ?_
      rw [hstream room hr, map_within]
    · rw [membersDepth, Nat.max_lt] at hd
      rw [members_written hne, hv.held hd.1, ok_bind, hheld hd.2]
      rfl
  | @left _ _ slot rest a ms t habsent hrest ih =>
    obtain ⟨hnot, hn⟩ := List.nodup_cons.mp hn
    have hne := hrest.key_ne hnot
    obtain ⟨partly, hfinish, hstream, hheld⟩ := ih hn
    have hfinish : (Slots.cons slot rest).finish (none, partly) = .ok (a, t) := by
      simp only [Slots.finish, hfinish, habsent]
      rfl
    refine ⟨(none, partly), hfinish, fun room hr => ?_, fun hd => ?_⟩
    · rw [Slots.start, members_cons none hne, hstream room hr, map_within]
    · rw [Slots.start, members_cons none hne, hheld hd]
      rfl

theorem readsBack (h : Spelled levels slots ms t) (hn : slots.names.Nodup) (label : String) :
    ReadsBack levels (Reader.record label slots) (.object ms) t := by
  obtain ⟨partly, hfinish, hstream, hheld⟩ := h.members hn
  refine ⟨fun room hr => ?_, fun hd => ?_⟩
  · simp only [Value.doc, Reader.record, Value.depth]
    refine enter_bind fun r hlt => ?_
    rw [hstream r (by omega)]
    exact within_bind_ok fun _ => hfinish
  · simp only [Value.doc, Reader.record, Source.enter, ok_bind, hheld (Nat.lt_of_succ_lt hd)]
    exact hfinish

end Spelled

/-! ## Numbers of 32 bits -/

theorem foldl_toDigits (n : Nat) :
    (Nat.toDigits 10 n).foldl (fun n c => n * 10 + (c.toNat - '0'.toNat)) 0 = n := by
  have h : Nat.ofDigitChars 10 (Nat.toDigits 10 n) 0 = n := Nat.ofDigitChars_ten_toDigits
  simpa [Nat.ofDigitChars, Nat.mul_comm] using h

theorem le_foldl_digits (ds : List Nat) (s : Nat) : s ≤ ds.foldl (fun n d => n * 10 + d) s := by
  induction ds generalizing s with
  | nil => exact Nat.le_refl s
  | cons d ds ih => exact Nat.le_trans (by omega) (ih (s * 10 + d))

theorem absorbWhole_of_lt {ds : List Nat} {s : Nat}
    (h : ds.foldl (fun n d => n * 10 + d) s < UInt64.size) :
    absorbWhole s ds = (ds.foldl (fun n d => n * 10 + d) s, 0) := by
  induction ds generalizing s with
  | nil => rfl
  | cons d ds ih =>
    have hd : s * 10 + d < UInt64.size := Nat.lt_of_le_of_lt (le_foldl_digits ds _) h
    simp only [absorbWhole, appendDigit?, if_pos hd]
    exact ih h

theorem value?_spelledInt {n : Nat} (h : n < UInt64.size) :
    (spelledInt n).value? = some (.natural n) := by
  have hfold : ((Nat.toDigits 10 n).map digitValue).foldl (fun n d => n * 10 + d) 0 = n := by
    rw [List.foldl_map]
    exact foldl_toDigits n
  have hwhole := absorbWhole_of_lt (hfold.symm ▸ h)
  rw [hfold] at hwhole
  have hneg : ¬ (n : Int) < 0 := by omega
  simp [spelledInt, Number.value?, hwhole, hneg]

theorem valued_number (n : UInt32) : Valued (.number n.toNat) := by
  refine .number ?_
  rw [value?_spelledInt (Nat.lt_trans n.toNat_lt (by decide))]
  rfl

theorem ReadsBack.natural32 {levels : Nat} (n : UInt32) :
    ReadsBack levels Reader.natural32 (.number n.toNat) n := by
  have heq : ∀ source, Reader.natural32 source (Value.number n.toNat).doc = .ok n := by
    intro source
    have hlt : n.toNat < UInt32.size := n.toNat_lt
    simp [Value.doc, Reader.natural32, value?_spelledInt (Nat.lt_trans n.toNat_lt (by decide)), hlt]
  exact ⟨fun room _ => by simp [heq, Value.depth], fun _ => heq _⟩

end IdlStencil.Json
