import IdlStencil.Proofs.ReadsBack

/-!
# What is read can be written within the room it was read in

`Fits spare read depth` bounds a measure of what a reader takes by the room that the document had:
the room of the stream, or the room in which the document was held. A field that was left out is
written all the same, so that the bound gives way to `spare` where there is hardly any room; one
level of arrays and objects takes one off the room and one off what is spare. The measure of
interest is the depth of the written form, but parts of a record are measured before it is known how
they are written.
-/

namespace IdlStencil.Json

variable {α β : Type} {room spare : Nat} {source inner : Source}

theorem bind_eq_ok {x : Except Fault α} {f : α → Except Fault β} {b : β} :
    (x >>= f) = .ok b ↔ ∃ a, x = .ok a ∧ f a = .ok b := by
  cases x <;> simp [bind, Except.bind]

theorem map_eq_ok {x : Except Fault α} {f : α → β} {b : β} :
    x.map f = .ok b ↔ ∃ a, x = .ok a ∧ f a = b := by
  cases x <;> simp [Except.map]

theorem refuse_ne_ok {d : Doc} {expected : String} {a : α} : refuse d expected ≠ .ok a := by
  unfold refuse
  split <;> simp

theorem mem_of_lookup_eq_some {entries : List (String × α)} {key : String} {a : α}
    (h : entries.lookup key = some a) : (key, a) ∈ entries := by
  obtain ⟨before, after, rfl, -⟩ := List.lookup_eq_some_iff.mp h
  simp

/-! ## Room -/

/-- The source gives the document with room for so many open arrays and objects. -/
inductive Source.Offers (room : Nat) (d : Doc) : Source → Prop where
  | stream : Offers room d (.stream room)
  | held (h : d.holdable room = true) : Offers room d .held

theorem holdableItems_iff {ds : List Doc} :
    holdableItems room ds = true ↔ ∀ d ∈ ds, d.holdable room = true := by
  induction ds with
  | nil => simp [holdableItems]
  | cons d ds ih => simp [holdableItems, ih]

theorem holdableMembers_iff {ms : List (Option String × Doc)} :
    holdableMembers room ms = true ↔ ∀ m ∈ ms, m.1.isSome = true ∧ m.2.holdable room = true := by
  induction ms with
  | nil => simp [holdableMembers]
  | cons m ms ih =>
    obtain ⟨key, d⟩ := m
    simp [holdableMembers, ih, and_assoc]

namespace Source.Offers

/-- What is inside an array or object has one less room. -/
theorem inside {d : Doc} (h : source.Offers room d) (parts : List Doc)
    (he : source.enter = .ok inner) (hzero : d.holdable 0 = false)
    (hparts : ∀ r, d.holdable (r + 1) = true → ∀ p ∈ parts, p.holdable r = true) :
    ∃ r, room = r + 1 ∧ ∀ p ∈ parts, inner.Offers r p := by
  cases h with
  | stream =>
    cases room with
    | zero => cases he
    | succ r =>
      cases he
      exact ⟨r, rfl, fun _ _ => .stream⟩
  | held h =>
    cases room with
    | zero => simp [hzero] at h
    | succ r =>
      cases he
      exact ⟨r, rfl, fun p hp => .held (hparts r h p hp)⟩

theorem array {ds : List Doc} {closed : Bool} (h : source.Offers room (.array ds closed))
    (he : source.enter = .ok inner) : ∃ r, room = r + 1 ∧ ∀ d ∈ ds, inner.Offers r d := by
  refine h.inside ds he (by simp [Doc.holdable]) fun r hr => ?_
  simp only [Doc.holdable, Bool.and_eq_true, holdableItems_iff] at hr
  exact hr.2

theorem object {ms : List (Option String × Doc)} {closed : Bool}
    (h : source.Offers room (.object ms closed)) (he : source.enter = .ok inner) :
    ∃ r, room = r + 1 ∧ ∀ m ∈ ms, inner.Offers r m.2 := by
  obtain ⟨r, rfl, hinner⟩ := h.inside (ms.map Prod.snd) he (by simp [Doc.holdable]) fun r hr => by
    simp only [Doc.holdable, Bool.and_eq_true, holdableMembers_iff] at hr
    exact List.forall_mem_map.mpr fun m hm => (hr.2 m hm).2
  exact ⟨r, rfl, List.forall_mem_map.mp hinner⟩

/-- What is held has the room in which it was offered. -/
theorem holdable {d : Doc} (h : source.Offers room d) (hh : source.hold d = .ok ()) :
    d.holdable room = true := by
  cases h with
  | stream =>
    simp only [Source.hold] at hh
    split at hh
    · assumption
    · cases hh
  | held h => exact h

end Source.Offers

/-! ## Readers -/

/-- What the reader takes measures no more than the room, or than what is spare. -/
structure Fits (spare : Nat) (read : Reader α) (depth : α → Nat) : Prop where
  depth_le {room : Nat} {source : Source} {d : Doc} {a : α} (ho : source.Offers room d)
    (hr : read source d = .ok a) : depth a ≤ max room spare

namespace Fits

variable {read : Reader α} {depth depth' : α → Nat}

theorem mono {spare' : Nat} (h : Fits spare' read depth) (hle : spare' ≤ spare) :
    Fits spare read depth := by
  refine ⟨fun ho hr => ?_⟩
  have := h.depth_le ho hr
  omega

theorem anti (h : Fits spare read depth') (hle : ∀ a, depth a ≤ depth' a) : Fits spare read depth :=
  ⟨fun {_ _ _ a} ho hr => Nat.le_trans (hle a) (h.depth_le ho hr)⟩

theorem of_le (h : ∀ a, depth a ≤ spare) : Fits spare read depth := by
  refine ⟨fun {_ _ _ a} _ _ => ?_⟩
  have := h a
  omega

theorem map {f : α → β} {depth : β → Nat} (h : Fits spare read fun a => depth (f a)) :
    Fits spare (fun source d => (read source d).map f) depth := by
  refine ⟨fun ho hr => ?_⟩
  obtain ⟨a, ha, rfl⟩ := map_eq_ok.mp hr
  exact h.depth_le ho ha

theorem optional {depth : Option α → Nat} (h : Fits spare read fun a => depth (some a))
    (hnone : depth none ≤ spare) : Fits spare (Reader.optional read) depth := by
  refine ⟨fun ho hr => ?_⟩
  unfold Reader.optional at hr
  split at hr
  · cases hr
    omega
  · exact h.map.depth_le ho hr

theorem itemsDepth_le {n : Nat} {vs : List Value} (h : ∀ v ∈ vs, v.depth ≤ n) : itemsDepth vs ≤ n := by
  induction vs with
  | nil => exact Nat.zero_le n
  | cons v vs ih =>
    obtain ⟨hv, hvs⟩ := List.forall_mem_cons.mp h
    exact Nat.max_le.mpr ⟨hv, ih hvs⟩

theorem membersDepth_le {n : Nat} {ms : List (String × Value)} (h : ∀ m ∈ ms, m.2.depth ≤ n) :
    membersDepth ms ≤ n := by
  induction ms with
  | nil => exact Nat.zero_le n
  | cons m ms ih =>
    obtain ⟨hm, hms⟩ := List.forall_mem_cons.mp h
    exact Nat.max_le.mpr ⟨hm, ih hms⟩

private theorem items_le (h : Fits spare read depth) {ds : List Doc} {as : List α}
    (ho : ∀ d ∈ ds, source.Offers room d) (hr : Reader.items read source ds = .ok as) :
    ∀ a ∈ as, depth a ≤ max room spare := by
  induction ds generalizing as with
  | nil =>
    cases hr
    simp
  | cons d ds ih =>
    obtain ⟨hd, hds⟩ := List.forall_mem_cons.mp ho
    obtain ⟨a, ha, hr⟩ := bind_eq_ok.mp hr
    obtain ⟨as', has, hr⟩ := bind_eq_ok.mp hr
    cases hr
    exact List.forall_mem_cons.mpr ⟨h.depth_le hd ha, ih hds has⟩

theorem list {write : α → Value} (h : Fits (spare - 1) read fun a => (write a).depth) :
    Fits spare (Reader.list read) fun as => (Value.array (as.map write)).depth := by
  refine ⟨fun {_ _ _ as} ho hr => ?_⟩
  unfold Reader.list at hr
  split at hr
  · obtain ⟨inner, he, hr⟩ := bind_eq_ok.mp hr
    obtain ⟨_, hitems, hr⟩ := bind_eq_ok.mp hr
    obtain ⟨_, -, hr⟩ := bind_eq_ok.mp hr
    cases hr
    obtain ⟨r, rfl, hinner⟩ := ho.array he
    have hle : itemsDepth (as.map write) ≤ max r (spare - 1) :=
      itemsDepth_le (List.forall_mem_map.mpr (items_le h hinner hitems))
    simp only [Value.depth]
    omega
  · exact absurd hr refuse_ne_ok

private theorem mem_insertPair {name : String} {value : α} {pairs : List (String × α)}
    {e : String × α} (h : e ∈ insertPair name value pairs) : e ∈ pairs ∨ e.2 = value := by
  induction pairs with
  | nil =>
    rw [insertPair, List.mem_singleton] at h
    exact .inr (by rw [h])
  | cons p pairs ih =>
    rw [insertPair] at h
    split at h
    · rcases List.mem_cons.mp h with rfl | h
      · exact .inr rfl
      · exact .inl (List.mem_cons_of_mem _ h)
    · rcases List.mem_cons.mp h with rfl | h
      · exact .inl List.mem_cons_self
      · exact (ih h).imp_left (List.mem_cons_of_mem _)

private theorem members_le (h : Fits spare read depth) {ms : List (Option String × Doc)}
    {m full : OrderedMap α} (ho : ∀ m ∈ ms, source.Offers room m.2)
    (hm : ∀ e ∈ m.entries, depth e.2 ≤ max room spare)
    (hr : Reader.members read source ms m = .ok full) :
    ∀ e ∈ full.entries, depth e.2 ≤ max room spare := by
  induction ms generalizing m with
  | nil =>
    cases hr
    exact hm
  | cons member ms ih =>
    obtain ⟨hd, hds⟩ := List.forall_mem_cons.mp ho
    obtain ⟨_ | key, d⟩ := member
    · cases hr
    · obtain ⟨a, ha, hr⟩ := bind_eq_ok.mp hr
      refine ih hds (fun e he => ?_) hr
      rcases mem_insertPair he with he | he
      · exact hm e he
      · exact he ▸ h.depth_le hd ha

theorem orderedMap {write : α → Value} (h : Fits (spare - 1) read fun a => (write a).depth) :
    Fits spare (Reader.map read) fun m =>
      (Value.object (m.entries.map fun e => (e.1, write e.2))).depth := by
  refine ⟨fun {_ _ _ m} ho hr => ?_⟩
  unfold Reader.map at hr
  split at hr
  · obtain ⟨inner, he, hr⟩ := bind_eq_ok.mp hr
    obtain ⟨_, hmembers, hr⟩ := bind_eq_ok.mp hr
    obtain ⟨_, -, hr⟩ := bind_eq_ok.mp hr
    cases hr
    obtain ⟨r, rfl, hinner⟩ := ho.object he
    have hentries := members_le h hinner (by simp [OrderedMap.empty]) hmembers
    have hle : membersDepth (m.entries.map fun e => (e.1, write e.2)) ≤ max r (spare - 1) :=
      membersDepth_le (List.forall_mem_map.mpr hentries)
    simp only [Value.depth]
    omega
  · exact absurd hr refuse_ne_ok

end Fits

/-! ## Variants -/

/-- What a variant carries is measured without the object around it. -/
def Reader.Payload.Fits (spare : Nat) (depth : α → Nat) : Reader.Payload α → Prop
  | .bare a => depth a ≤ spare
  | .value read | .record read => Json.Fits (spare - 1) read fun a => depth a - 1

theorem Reader.Payload.Fits.beside {payload : Reader.Payload α} {depth : α → Nat} {d : Doc} {a : α}
    (h : payload.Fits spare depth) (ho : source.Offers room d)
    (hr : payload.beside source d = .ok a) : depth a ≤ max (room + 1) spare := by
  cases payload with
  | bare b =>
    obtain ⟨_, -, rfl⟩ := map_eq_ok.mp hr
    have hb : depth b ≤ spare := h
    omega
  | value read =>
    have hle : depth a - 1 ≤ max room (spare - 1) := h.depth_le ho hr
    omega
  | record read =>
    have hread : read source d = .ok a := by
      simp only [Reader.Payload.beside] at hr
      split at hr
      · exact hr
      · exact hr
      · exact hr
      · exact absurd hr refuse_ne_ok
    have hle : depth a - 1 ≤ max room (spare - 1) := h.depth_le ho hread
    omega

theorem Fits.variant {alternatives : List (String × Reader.Payload α)} {depth : α → Nat}
    (h : ∀ p ∈ alternatives, p.2.Fits spare depth) : Fits spare (Reader.variant alternatives) depth := by
  have hfind {name : String} {payload : Reader.Payload α}
      (hf : Reader.find alternatives name = .ok payload) : payload.Fits spare depth := by
    unfold Reader.find at hf
    split at hf
    · next hp =>
      cases hf
      exact h _ (mem_of_lookup_eq_some hp)
    · cases hf
  refine ⟨fun {_ _ _ a} ho hr => ?_⟩
  unfold Reader.variant at hr
  split at hr
  · obtain ⟨payload, hp, hr⟩ := bind_eq_ok.mp hr
    cases payload with
    | bare b =>
      cases hr
      have hb : depth a ≤ spare := hfind hp
      omega
    | value | record => cases hr
  · obtain ⟨inner, he, hr⟩ := bind_eq_ok.mp hr
    obtain ⟨payload, hp, hr⟩ := bind_eq_ok.mp hr
    obtain ⟨_, hb, hr⟩ := bind_eq_ok.mp hr
    obtain ⟨_, -, hr⟩ := bind_eq_ok.mp hr
    cases hr
    obtain ⟨r, rfl, hinner⟩ := ho.object he
    exact (hfind hp).beside (hinner _ List.mem_cons_self) hb
  · cases hr
  · obtain ⟨payload, hp, hr⟩ := bind_eq_ok.mp hr
    obtain ⟨r, rfl, hinner⟩ := ho.object (rfl : Source.held.enter = .ok .held)
    exact (hfind hp).beside (hinner _ List.mem_cons_self) hr
  · cases hr
  · exact absurd hr refuse_ne_ok

/-! ## Records -/

/-- A measure for each field of a record. -/
@[reducible] def Depths : List Type → Type
  | [] => Unit
  | α :: αs => (α → Nat) × Depths αs

/-- The measure of a record: that of the field with the largest. -/
def Depths.tuple : {αs : List Type} → Depths αs → Tuple αs → Nat
  | [], _, _ => 0
  | _ :: _, (depth, depths), (a, t) => max (depth a) (depths.tuple t)

/-- The measure of a record as far as it was read. -/
def Depths.partly : {αs : List Type} → Depths αs → Partly αs → Nat
  | [], _, _ => 0
  | _ :: _, (depth, depths), (here, others) => max ((here.map depth).getD 0) (depths.partly others)

/-- Every field fits, read or left out. -/
inductive Slots.Fit (spare : Nat) : {αs : List Type} → Slots αs → Depths αs → Prop where
  | nil : Fit spare .nil ()
  | cons {α : Type} {αs : List Type} {slot : Slot α} {rest : Slots αs} {depth : α → Nat}
      {depths : Depths αs} (hread : Fits spare slot.read depth)
      (habsent : ∀ a ∈ slot.absent, depth a ≤ spare) (hrest : Fit spare rest depths) :
      Fit spare (.cons slot rest) (depth, depths)

namespace Slots.Fit

variable {αs : List Type} {slots rest : Slots αs} {depths : Depths αs} {name : String}
  {read : Reader α} {depth : α → Nat}

/-- A field that is not measured. -/
theorem unmeasured {slot : Slot α} (hrest : rest.Fit spare depths) :
    (Slots.cons slot rest).Fit spare (fun _ => 0, depths) :=
  .cons (.of_le fun _ => Nat.zero_le spare) (fun _ _ => Nat.zero_le spare) hrest

theorem required (h : Fits spare read depth) (hrest : rest.Fit spare depths) :
    (Slots.cons (Json.required name read) rest).Fit spare (depth, depths) :=
  .cons h (by simp [Json.required]) hrest

theorem defaulted {absent : α} (h : Fits spare read depth) (habsent : depth absent ≤ spare)
    (hrest : rest.Fit spare depths) :
    (Slots.cons (Json.defaulted name read absent) rest).Fit spare (depth, depths) :=
  .cons h (by simpa [Json.defaulted] using habsent) hrest

theorem partly_start (slots : Slots αs) (depths : Depths αs) : depths.partly slots.start = 0 := by
  induction slots with
  | nil => rfl
  | cons slot rest ih => simpa [Slots.start, Depths.partly] using ih depths.2

theorem put (h : slots.Fit spare depths) {d : Doc} {before after : Partly αs}
    (ho : source.Offers room d) (hb : depths.partly before ≤ max room spare)
    (hp : slots.put source name d before = some (.ok after)) :
    depths.partly after ≤ max room spare := by
  induction h with
  | nil => cases hp
  | @cons α αs slot rest depth depths hread habsent hrest ih =>
    obtain ⟨here, others⟩ := before
    rw [Depths.partly, Nat.max_le] at hb
    simp only [Slots.put] at hp
    split at hp
    · cases here with
      | some => cases hp
      | none =>
        obtain ⟨a, ha, rfl⟩ := map_eq_ok.mp (Option.some.inj hp)
        exact Nat.max_le.mpr ⟨hread.depth_le ho ha, hb.2⟩
    · obtain ⟨r, hput, hr⟩ := Option.map_eq_some_iff.mp hp
      obtain ⟨others', rfl, rfl⟩ := map_eq_ok.mp hr
      exact Nat.max_le.mpr ⟨hb.1, ih hb.2 hput⟩

theorem members (h : slots.Fit spare depths) {ms : List (Option String × Doc)}
    {before after : Partly αs} (ho : ∀ m ∈ ms, source.Offers room m.2)
    (hb : depths.partly before ≤ max room spare)
    (hr : slots.members source ms before = .ok after) : depths.partly after ≤ max room spare := by
  induction ms generalizing before with
  | nil =>
    cases hr
    exact hb
  | cons m ms ih =>
    obtain ⟨hm, hms⟩ := List.forall_mem_cons.mp ho
    obtain ⟨_ | key, d⟩ := m
    · cases hr
    · rw [Slots.members] at hr
      split at hr
      · next read hput =>
        obtain ⟨next, rfl, hr⟩ := bind_eq_ok.mp hr
        exact ih hms (h.put hm hb hput) hr
      · obtain ⟨_, -, hr⟩ := bind_eq_ok.mp hr
        exact ih hms hb hr

theorem finish (h : slots.Fit spare depths) {n : Nat} {partly : Partly αs} {t : Tuple αs}
    (hspare : spare ≤ n) (hp : depths.partly partly ≤ n) (hf : slots.finish partly = .ok t) :
    depths.tuple t ≤ n := by
  induction h with
  | nil => exact Nat.zero_le n
  | @cons α αs slot rest depth depths hread habsent hrest ih =>
    obtain ⟨here, others⟩ := partly
    rw [Depths.partly, Nat.max_le] at hp
    rw [Slots.finish] at hf
    split at hf
    · next a ha =>
      obtain ⟨t, ht, hf⟩ := bind_eq_ok.mp hf
      cases hf
      refine Nat.max_le.mpr ⟨?_, ih hp.2 ht⟩
      cases here with
      | some b =>
        cases ha
        exact hp.1
      | none => exact Nat.le_trans (habsent a ha) hspare
    · cases hf

theorem items (h : slots.Fit spare depths) {expected : String} {closed : Bool} {index : Nat}
    {ds left : List Doc} {t : Tuple αs} (ho : ∀ d ∈ ds, source.Offers room d)
    (hr : slots.items expected source closed index ds = .ok (t, left)) :
    depths.tuple t ≤ max room spare := by
  induction h generalizing ds index left with
  | nil => exact Nat.zero_le _
  | @cons α αs slot rest depth depths hread habsent hrest ih =>
    cases ds with
    | nil =>
      obtain ⟨_, -, hr⟩ := bind_eq_ok.mp hr
      split at hr
      · next a ha =>
        obtain ⟨⟨others, left'⟩, hothers, hr⟩ := bind_eq_ok.mp hr
        cases hr
        have := habsent a ha
        exact Nat.max_le.mpr ⟨by omega, ih ho hothers⟩
      · cases hr
    | cons d ds =>
      obtain ⟨hd, hds⟩ := List.forall_mem_cons.mp ho
      obtain ⟨a, ha, hr⟩ := bind_eq_ok.mp hr
      obtain ⟨⟨others, left'⟩, hothers, hr⟩ := bind_eq_ok.mp hr
      cases hr
      exact Nat.max_le.mpr ⟨hread.depth_le hd ha, ih hds hothers⟩

/-- A record as an object or an array measures one more than its fields. -/
theorem record (h : slots.Fit (spare - 1) depths) (label : String) {make : Tuple αs → β}
    {depth : β → Nat} (hmake : ∀ t, depth (make t) ≤ depths.tuple t + 1) :
    Fits spare (fun source d => (Reader.record label slots source d).map make) depth := by
  refine Fits.map ⟨fun {room _ _ t} ho hr => ?_⟩
  have hle : ∃ r, room = r + 1 ∧ depths.tuple t ≤ max r (spare - 1) := by
    unfold Reader.record at hr
    split at hr
    · obtain ⟨inner, he, hr⟩ := bind_eq_ok.mp hr
      obtain ⟨partly, hmembers, hr⟩ := bind_eq_ok.mp hr
      obtain ⟨_, -, hf⟩ := bind_eq_ok.mp hr
      obtain ⟨r, rfl, hinner⟩ := ho.object he
      have hpartly := h.members hinner (by simp [partly_start]) hmembers
      exact ⟨r, rfl, h.finish (Nat.le_max_right _ _) hpartly hf⟩
    · obtain ⟨inner, he, hr⟩ := bind_eq_ok.mp hr
      obtain ⟨⟨tuple, left⟩, hitems, hr⟩ := bind_eq_ok.mp hr
      obtain ⟨_, -, hr⟩ := bind_eq_ok.mp hr
      cases hr
      obtain ⟨r, rfl, hinner⟩ := ho.array he
      exact ⟨r, rfl, h.items hinner hitems⟩
    · exact absurd hr refuse_ne_ok
  obtain ⟨r, rfl, hle⟩ := hle
  calc
    depth (make t) ≤ depths.tuple t + 1 := hmake t
    _ ≤ max (r + 1) spare := by omega

end Slots.Fit
end IdlStencil.Json
