import Mathlib.Algebra.Group.Nat.Defs
import Mathlib.Data.List.ReduceOption
import Mathlib.Data.List.Nodup
import Mathlib.Data.List.Perm.Basic

/-!
# Slot tables

A fixed number of slots, each free or holding an entry that carries its own 32-bit id, and a
wrapping counter that issues the ids.

Every lookup stops at the first match, so the operations are total even when two entries carry one
id. With pairwise distinct ids (`Distinct`) updating is a `map` of the *entries*, taking is a
`filter`, and allocating is a `cons` up to permutation. Clients reason with these three equations
and with `get`, never with the slots themselves.
-/

namespace Rustee

open List

/-- An entry that carries its own id. -/
class Keyed (α : Type) where
  key : α → UInt32
  rekey : UInt32 → α → α
  key_rekey : ∀ i a, key (rekey i a) = i

/-- A table of slots with the counter that issues the next id. -/
structure SlotTable (α : Type) where
  slots : List (Option α)
  nextId : UInt32
deriving Repr, DecidableEq

namespace SlotTable

open Keyed

variable {α : Type}

/-! ### Operations -/

/-- An empty table of `cap` slots; ids start at 1. -/
def new (cap : Nat) : SlotTable α := ⟨replicate cap none, 1⟩

def entries (t : SlotTable α) : List α := t.slots.reduceOption

def bump (n : UInt32) : UInt32 := max (n + 1) 1

/-- Put `a` into the first free slot. -/
def fill (a : α) : List (Option α) → Option (List (Option α))
  | [] => none
  | none :: rest => some (some a :: rest)
  | some b :: rest => (fill a rest).map (some b :: ·)

/-- Apply `f` to every entry. -/
def mapEntries (f : α → α) (t : SlotTable α) : SlotTable α :=
  { t with slots := t.slots.map (.map f) }

variable [Keyed α]

/-- Issue the next id and store `a` under it. The counter advances even when
no slot is free. -/
def alloc (t : SlotTable α) (a : α) : Option UInt32 × SlotTable α :=
  match fill (rekey t.nextId a) t.slots with
  | some slots => (some t.nextId, ⟨slots, bump t.nextId⟩)
  | none => (none, { t with nextId := bump t.nextId })

/-- The first entry with id `i`. -/
def get (t : SlotTable α) (i : UInt32) : Option α :=
  t.entries.find? fun a => key a == i

/-- Apply `f` to the first slot whose entry has id `i`. -/
def updateSlots (i : UInt32) (f : α → α) : List (Option α) → List (Option α)
  | [] => []
  | none :: rest => none :: updateSlots i f rest
  | some b :: rest =>
    if key b = i then some (f b) :: rest else some b :: updateSlots i f rest

def update (t : SlotTable α) (i : UInt32) (f : α → α) : SlotTable α :=
  { t with slots := updateSlots i f t.slots }

/-- Empty the first slot whose entry has id `i`. -/
def clear (i : UInt32) : List (Option α) → Option α × List (Option α)
  | [] => (none, [])
  | none :: rest => ((clear i rest).1, none :: (clear i rest).2)
  | some b :: rest =>
    if key b = i then (some b, none :: rest)
    else ((clear i rest).1, some b :: (clear i rest).2)

def take (t : SlotTable α) (i : UInt32) : Option α × SlotTable α :=
  ((clear i t.slots).1, { t with slots := (clear i t.slots).2 })

/-! ### Distinct and fresh ids -/

def Distinct (t : SlotTable α) : Prop := (t.entries.map key).Nodup

/-- No entry carries the id `i`. -/
def Fresh (t : SlotTable α) (i : UInt32) : Prop := ∀ a ∈ t.entries, key a ≠ i

def HasRoom (t : SlotTable α) : Prop := none ∈ t.slots

instance (t : SlotTable α) (i : UInt32) : Decidable (t.Fresh i) := by
  unfold Fresh; infer_instance

instance [DecidableEq α] (t : SlotTable α) : Decidable t.HasRoom := by
  unfold HasRoom; infer_instance

theorem bump_ne_zero (n : UInt32) : bump n ≠ 0 := by
  unfold bump
  rw [UInt32.max_def]
  split
  · decide
  · rename_i h
    intro h0
    exact h (by rw [h0]; decide)

omit [Keyed α] in
@[simp] theorem entries_new (cap : Nat) : (new cap : SlotTable α).entries = [] := by
  simp [new, entries]

theorem distinct_new (cap : Nat) : (new cap : SlotTable α).Distinct := by
  simp [Distinct]

/-! ### Looking up -/

variable {t : SlotTable α} {i : UInt32} {a : α}

theorem get_some (h : t.get i = some a) : a ∈ t.entries ∧ key a = i := by
  refine ⟨mem_of_find?_eq_some h, ?_⟩
  have := find?_some h
  simpa using this

theorem get_eq_none : t.get i = none ↔ t.Fresh i := by
  simp [get, Fresh, find?_eq_none]

theorem Distinct.get_eq_some (hd : t.Distinct) : t.get i = some a ↔ a ∈ t.entries ∧ key a = i := by
  constructor
  · exact get_some
  · rintro ⟨ha, rfl⟩
    cases hg : t.get (key a) with
    | none => exact absurd rfl (get_eq_none.mp hg a ha)
    | some =>
      obtain ⟨hb, hkey⟩ := get_some hg
      rw [inj_on_of_nodup_map hd hb ha hkey]

/-! ### The slot of an entry -/

/-- The first entry with id `i` is `a`, between the slots `pre` and `post`. -/
structure Found (t : SlotTable α) (i : UInt32) (pre : List (Option α)) (a : α)
    (post : List (Option α)) : Prop where
  slots : t.slots = pre ++ some a :: post
  before : ∀ b ∈ pre.reduceOption, key b ≠ i
  hit : key a = i

theorem found_of_get (h : t.get i = some a) : ∃ pre post, Found t i pre a post := by
  obtain ⟨slots, n⟩ := t
  simp only [get, entries] at h
  induction slots with
  | nil => cases h
  | cons o rest ih =>
    cases o with
    | none =>
      obtain ⟨pre, post, hfound⟩ := ih h
      exact ⟨none :: pre, post, congrArg (none :: ·) hfound.slots, hfound.before, hfound.hit⟩
    | some b =>
      by_cases hb : key b = i
      · have hab : b = a := by simpa [hb] using h
        subst hab
        exact ⟨[], rest, rfl, by simp, hb⟩
      · obtain ⟨pre, post, hfound⟩ := ih (by simpa [hb] using h)
        refine ⟨some b :: pre, post, congrArg (some b :: ·) hfound.slots, ?_, hfound.hit⟩
        simpa [hb] using hfound.before

theorem search (t : SlotTable α) (i : UInt32) : t.Fresh i ∨ ∃ pre a post, Found t i pre a post := by
  cases hget : t.get i with
  | none => exact .inl (get_eq_none.mp hget)
  | some a =>
    obtain ⟨pre, post, hfound⟩ := found_of_get hget
    exact .inr ⟨pre, a, post, hfound⟩

variable {f : α → α} {pre post l : List (Option α)}

theorem updateSlots_append (h : ∀ b ∈ pre.reduceOption, key b ≠ i) :
    updateSlots i f (pre ++ l) = pre ++ updateSlots i f l := by
  induction pre with
  | nil => rfl
  | cons o rest ih =>
    cases o with
    | none => simp [updateSlots, ih h]
    | some =>
      simp only [reduceOption_cons_of_some, forall_mem_cons] at h
      simp [updateSlots, h.1, ih h.2]

theorem clear_append (h : ∀ b ∈ pre.reduceOption, key b ≠ i) :
    clear i (pre ++ l) = ((clear i l).1, pre ++ (clear i l).2) := by
  induction pre with
  | nil => rfl
  | cons o rest ih =>
    cases o with
    | none => simp [clear, ih h]
    | some =>
      simp only [reduceOption_cons_of_some, forall_mem_cons] at h
      simp [clear, h.1, ih h.2]

theorem update_of_fresh (h : t.Fresh i) (f : α → α) : t.update i f = t := by
  have := updateSlots_append (f := f) (l := []) h
  rw [append_nil, updateSlots, append_nil] at this
  rw [update, this]

theorem take_of_fresh (h : t.Fresh i) : t.take i = (none, t) := by
  have := clear_append (l := []) h
  rw [append_nil, clear, append_nil] at this
  rw [take, this]

namespace Found

variable (h : Found t i pre a post)
include h

theorem get : t.get i = some a := by
  have hnone : pre.reduceOption.find? (fun b => key b == i) = none := by
    simpa [find?_eq_none] using h.before
  rw [SlotTable.get, entries, h.slots, reduceOption_append, find?_append, hnone]
  simp [h.hit]

theorem entries_eq : t.entries = pre.reduceOption ++ a :: post.reduceOption := by
  rw [entries, h.slots, reduceOption_append, reduceOption_cons_of_some]

theorem update (f : α → α) : t.update i f = ⟨pre ++ some (f a) :: post, t.nextId⟩ := by
  rw [SlotTable.update, h.slots, updateSlots_append h.before, updateSlots, if_pos h.hit]

theorem take : t.take i = (some a, ⟨pre ++ none :: post, t.nextId⟩) := by
  rw [SlotTable.take, h.slots, clear_append h.before, clear, if_pos h.hit]

theorem updated (hf : ∀ a, key (f a) = key a) : Found (t.update i f) i pre (f a) post :=
  ⟨by rw [h.update], h.before, (hf a).trans h.hit⟩

theorem after (hd : t.Distinct) : ∀ b ∈ post.reduceOption, key b ≠ i := by
  intro b hb hkey
  rw [Distinct, h.entries_eq, map_append, map_cons] at hd
  have hnot := (nodup_cons.mp (nodup_append.mp hd).2.1).1
  exact hnot (mem_map.mpr ⟨b, hb, hkey.trans h.hit.symm⟩)

end Found

/-! ### Updating one entry -/

@[simp] theorem update_nextId (t : SlotTable α) (i : UInt32) (f : α → α) :
    (t.update i f).nextId = t.nextId := rfl

variable {β : Type}

/-- What an update leaves alone in the entry it finds, it leaves alone in every slot. -/
theorem map_slots_update {g : α → β} (h : t.get i = some a) (hf : g (f a) = g a) :
    (t.update i f).slots.map (Option.map g) = t.slots.map (Option.map g) := by
  obtain ⟨pre, post, hfound⟩ := found_of_get h
  rw [hfound.update, hfound.slots]
  simp [hf]

/-- What an update leaves alone in an entry, it leaves alone in the whole table. -/
theorem map_entries_update {g : α → β}
    (hf : ∀ a, g (f a) = g a) : (t.update i f).entries.map g = t.entries.map g := by
  rcases t.search i with hfresh | ⟨pre, a, post, h⟩
  · rw [update_of_fresh hfresh]
  · rw [h.entries_eq, h.update]
    simp [entries, reduceOption_append, hf]

theorem Distinct.update (hd : t.Distinct)
    (hf : ∀ a, key (f a) = key a) : (t.update i f).Distinct := by
  rw [Distinct, map_entries_update hf]
  exact hd

theorem get_update (hf : ∀ a, key (f a) = key a) (j : UInt32) :
    (t.update i f).get j = if j = i then (t.get i).map f else t.get j := by
  rcases t.search i with hfresh | ⟨pre, a, post, h⟩
  · rw [update_of_fresh hfresh]
    split
    · rename_i hj
      rw [hj, get_eq_none.mpr hfresh]
      rfl
    · rfl
  · split
    · rename_i hj
      rw [hj, (h.updated hf).get, h.get]
      rfl
    · rename_i hj
      have hne : (i == j) = false := beq_false_of_ne fun heq => hj heq.symm
      simp [get, (h.updated hf).entries_eq, h.entries_eq, find?_append, hf, h.hit, hne]

theorem get_update_self (hf : ∀ a, key (f a) = key a) (h : t.get i = some a) :
    (t.update i f).get i = some (f a) := by
  rw [get_update hf, if_pos rfl, h, Option.map_some]

variable {g : α → α}

theorem update_update (hf : ∀ a, key (f a) = key a) :
    (t.update i f).update i g = t.update i fun a => g (f a) := by
  rcases t.search i with hfresh | ⟨pre, a, post, h⟩
  · rw [update_of_fresh hfresh, update_of_fresh hfresh, update_of_fresh hfresh]
  · rw [(h.updated hf).update, h.update (fun a => g (f a)), update_nextId]

theorem update_congr (h : t.get i = some a) (hfg : f a = g a) : t.update i f = t.update i g := by
  obtain ⟨pre, post, hfound⟩ := found_of_get h
  rw [hfound.update, hfound.update, hfg]

theorem update_eq_self (h : t.get i = some a) (hf : f a = a) : t.update i f = t := by
  obtain ⟨pre, post, hfound⟩ := found_of_get h
  rw [hfound.update, hf, ← hfound.slots]

theorem Distinct.mem_update (hd : t.Distinct) (h : t.get i = some a) (b : α) :
    b ∈ (t.update i f).entries ↔ b = f a ∨ (b ∈ t.entries ∧ key b ≠ i) := by
  obtain ⟨pre, post, hfound⟩ := found_of_get h
  have hbefore := hfound.before b
  have hafter := hfound.after hd b
  have hhit := hfound.hit
  rw [hfound.entries_eq, hfound.update]
  simp only [entries, reduceOption_append, reduceOption_cons_of_some, mem_append, mem_cons]
  grind

variable {b : α}

theorem mem_update_of_ne (hf : ∀ a, key (f a) = key a) (hb : key b ≠ i) :
    b ∈ (t.update i f).entries ↔ b ∈ t.entries := by
  rcases t.search i with hfresh | ⟨pre, a, post, h⟩
  · rw [update_of_fresh hfresh]
  · have hnew : b ≠ f a := by
      rintro rfl
      exact hb ((hf a).trans h.hit)
    have hold : b ≠ a := by
      rintro rfl
      exact hb h.hit
    simp [(h.updated hf).entries_eq, h.entries_eq, hnew, hold]

/-- After an update every entry is an old one or the one that was updated. -/
theorem mem_of_mem_update
    (hb : b ∈ (t.update i f).entries) : b ∈ t.entries ∨ ∃ a, t.get i = some a ∧ b = f a := by
  rcases t.search i with hfresh | ⟨pre, a, post, h⟩
  · rw [update_of_fresh hfresh] at hb
    exact .inl hb
  · rw [h.update, entries, reduceOption_append, mem_append,
      reduceOption_cons_of_some, mem_cons] at hb
    rw [h.entries_eq, mem_append, mem_cons]
    rcases hb with hpre | rfl | hpost
    · exact .inl (.inl hpre)
    · exact .inr ⟨a, h.get, rfl⟩
    · exact .inl (.inr (.inr hpost))

/-! ### Allocating -/

omit [Keyed α] in
theorem fill_append (hpre : none ∉ pre) (a : α) :
    fill a (pre ++ l) = (fill a l).map (pre ++ ·) := by
  induction pre with
  | nil => simp
  | cons o rest ih =>
    cases o with
    | none => simp at hpre
    | some =>
      rw [cons_append, fill, ih (by simpa using hpre), Option.map_map]
      rfl

theorem alloc_eq (h : t.HasRoom) (a : α) : ∃ pre post, t.slots = pre ++ none :: post ∧
    t.alloc a = (some t.nextId, ⟨pre ++ some (rekey t.nextId a) :: post, bump t.nextId⟩) := by
  obtain ⟨pre, post, hslots, hpre⟩ := eq_append_cons_of_mem h
  refine ⟨pre, post, hslots, ?_⟩
  rw [alloc, hslots, fill_append hpre]
  rfl

theorem alloc_of_room (h : t.HasRoom) (a : α) :
    ∃ t', t.alloc a = (some t.nextId, t') ∧ t'.slots.length = t.slots.length ∧
      t'.nextId = bump t.nextId ∧ t'.entries.Perm (rekey t.nextId a :: t.entries) := by
  obtain ⟨pre, post, hslots, halloc⟩ := alloc_eq h a
  refine ⟨_, halloc, by simp [hslots], rfl, ?_⟩
  simp only [entries, hslots, reduceOption_append, reduceOption_cons_of_some,
    reduceOption_cons_of_none]
  exact perm_middle

theorem alloc_of_full (h : ¬ t.HasRoom) (a : α) :
    t.alloc a = (none, { t with nextId := bump t.nextId }) := by
  have hnone := fill_append (l := []) h (rekey t.nextId a)
  rw [append_nil] at hnone
  rw [alloc, hnone]
  rfl

theorem alloc_cases (t : SlotTable α) (a : α) :
    (t.HasRoom ∧ ∃ t', t.alloc a = (some t.nextId, t') ∧
      t'.slots.length = t.slots.length ∧ t'.nextId = bump t.nextId ∧
      t'.entries.Perm (rekey t.nextId a :: t.entries)) ∨
    (¬ t.HasRoom ∧ t.alloc a = (none, { t with nextId := bump t.nextId })) := by
  by_cases h : t.HasRoom
  · exact .inl ⟨h, alloc_of_room h a⟩
  · exact .inr ⟨h, alloc_of_full h a⟩

theorem mem_alloc (h : t.HasRoom) (a b : α) :
    b ∈ (t.alloc a).2.entries ↔ b = rekey t.nextId a ∨ b ∈ t.entries := by
  obtain ⟨t', halloc, -, -, hp⟩ := alloc_of_room h a
  rw [halloc, hp.mem_iff, mem_cons]

theorem found_alloc (h : t.HasRoom) (hfresh : t.Fresh t.nextId) (a : α) :
    ∃ pre post, t.slots = pre ++ none :: post ∧ (t.alloc a).2.nextId = bump t.nextId ∧
      Found (t.alloc a).2 t.nextId pre (rekey t.nextId a) post := by
  obtain ⟨pre, post, hslots, halloc⟩ := alloc_eq h a
  refine ⟨pre, post, hslots, by rw [halloc], ?_⟩
  rw [halloc]
  refine ⟨rfl, fun b hb => hfresh b ?_, key_rekey _ _⟩
  rw [entries, hslots, reduceOption_append]
  exact mem_append_left _ hb

theorem get_alloc (h : t.HasRoom) (hfresh : t.Fresh t.nextId) (a : α) :
    (t.alloc a).2.get t.nextId = some (rekey t.nextId a) := by
  obtain ⟨pre, post, -, -, hfound⟩ := found_alloc h hfresh a
  exact hfound.get

/-- Taking out an entry right after it was issued only leaves the counter moved. -/
theorem take_update_alloc (h : t.HasRoom) (hfresh : t.Fresh t.nextId) (a : α)
    (hf : ∀ a, key (f a) = key a) :
    (((t.alloc a).2.update t.nextId f).take t.nextId).2 = { t with nextId := bump t.nextId } := by
  obtain ⟨pre, post, hslots, hnext, hfound⟩ := found_alloc h hfresh a
  rw [(hfound.updated hf).take, update_nextId, hnext, hslots]

variable {t' : SlotTable α}

theorem Distinct.of_perm_cons (hd : t.Distinct)
    (hp : t'.entries.Perm (a :: t.entries)) (hfresh : t.Fresh (key a)) : t'.Distinct := by
  unfold Distinct
  rw [(hp.map key).nodup_iff, map_cons, nodup_cons]
  refine ⟨?_, hd⟩
  intro hmem
  obtain ⟨b, hb, hkey⟩ := mem_map.mp hmem
  exact hfresh b hb hkey

/-! ### Taking -/

theorem take_fst (t : SlotTable α) (i : UInt32) : (t.take i).1 = t.get i := by
  rcases t.search i with hfresh | ⟨pre, a, post, h⟩
  · rw [take_of_fresh hfresh, get_eq_none.mpr hfresh]
  · rw [h.take, h.get]

theorem take_perm (h : t.get i = some a) : t.entries.Perm (a :: (t.take i).2.entries) := by
  obtain ⟨pre, post, hfound⟩ := found_of_get h
  rw [hfound.entries_eq, hfound.take]
  simp only [entries, reduceOption_append, reduceOption_cons_of_none]
  exact perm_middle

theorem take_update (hf : ∀ a, key (f a) = key a) : ((t.update i f).take i).2 = (t.take i).2 := by
  rcases t.search i with hfresh | ⟨pre, a, post, h⟩
  · rw [update_of_fresh hfresh]
  · rw [(h.updated hf).take, h.take, update_nextId]

theorem Distinct.take (hd : t.Distinct) (i : UInt32) : (t.take i).2.Distinct := by
  rcases t.search i with hfresh | ⟨pre, a, post, h⟩
  · rw [take_of_fresh hfresh]
    exact hd
  · rw [Distinct, ((take_perm h.get).map key).nodup_iff, map_cons] at hd
    exact (nodup_cons.mp hd).2

theorem Distinct.mem_take (hd : t.Distinct) (i : UInt32) (b : α) :
    b ∈ (t.take i).2.entries ↔ b ∈ t.entries ∧ key b ≠ i := by
  rcases t.search i with hfresh | ⟨pre, a, post, h⟩
  · rw [take_of_fresh hfresh]
    exact ⟨fun hb => ⟨hb, hfresh b hb⟩, And.left⟩
  · have hbefore := h.before b
    have hafter := h.after hd b
    have hhit := h.hit
    rw [h.entries_eq, h.take]
    simp only [entries, reduceOption_append, reduceOption_cons_of_none, mem_append, mem_cons]
    grind

theorem mem_of_mem_take (hb : b ∈ (t.take i).2.entries) : b ∈ t.entries := by
  rcases t.search i with hfresh | ⟨pre, a, post, h⟩
  · rw [take_of_fresh hfresh] at hb
    exact hb
  · exact (take_perm h.get).mem_iff.mpr (mem_cons_of_mem _ hb)

theorem mem_take_of_ne (hb : key b ≠ i) : b ∈ (t.take i).2.entries ↔ b ∈ t.entries := by
  refine ⟨mem_of_mem_take, fun hmem => ?_⟩
  rcases t.search i with hfresh | ⟨pre, a, post, h⟩
  · rw [take_of_fresh hfresh]
    exact hmem
  · refine (mem_cons.mp ((take_perm h.get).mem_iff.mp hmem)).resolve_left ?_
    rintro rfl
    exact hb h.hit

/-! ### Mapping every entry -/

omit [Keyed α] in
theorem entries_mapEntries (f : α → α) (t : SlotTable α) :
    (t.mapEntries f).entries = t.entries.map f :=
  reduceOption_map

theorem map_key_mapEntries (hf : ∀ a, key (f a) = key a) :
    (t.mapEntries f).entries.map key = t.entries.map key := by
  rw [entries_mapEntries, map_map]
  exact map_congr_left fun a _ => hf a

theorem Distinct.mapEntries (hd : t.Distinct)
    (hf : ∀ a, key (f a) = key a) : (t.mapEntries f).Distinct := by
  rw [Distinct, map_key_mapEntries hf]
  exact hd

theorem map_get [Keyed β] {g : α → β} (hg : ∀ a, key (g a) = key a) (t : SlotTable α) (i : UInt32) :
    (t.get i).map g = (t.slots.map (.map g)).reduceOption.find? fun b => key b == i := by
  rw [reduceOption_map, find?_map]
  simp only [get, entries, Function.comp_def, hg]

/-! ### Well-formed tables -/

/-- A table of `cap` slots whose ids are distinct and not 0. -/
structure WellFormed (cap : Nat) (t : SlotTable α) : Prop where
  distinct : t.Distinct
  nonzero : ∀ a ∈ t.entries, key a ≠ 0
  next : t.nextId ≠ 0
  length : t.slots.length = cap

theorem wellFormed_new (cap : Nat) : (new cap : SlotTable α).WellFormed cap where
  distinct := distinct_new cap
  nonzero := by simp
  next := show (1 : UInt32) ≠ 0 by decide
  length := by simp [new]

variable {cap : Nat}

theorem WellFormed.skip (h : t.WellFormed cap) :
    WellFormed cap { t with nextId := bump t.nextId } :=
  ⟨h.distinct, h.nonzero, bump_ne_zero _, h.length⟩

theorem WellFormed.alloc (h : t.WellFormed cap)
    (hfresh : t.Fresh t.nextId) (a : α) : (t.alloc a).2.WellFormed cap := by
  rcases alloc_cases t a with ⟨-, t', halloc, hlength, hnext, hp⟩ | ⟨-, halloc⟩
  · rw [halloc]
    refine ⟨h.distinct.of_perm_cons hp (by rw [key_rekey]; exact hfresh), ?_, ?_, ?_⟩
    · intro b hb
      rcases mem_cons.mp (hp.mem_iff.mp hb) with rfl | hold
      · rw [key_rekey]
        exact h.next
      · exact h.nonzero b hold
    · rw [hnext]
      exact bump_ne_zero _
    · rw [hlength, h.length]
  · rw [halloc]
    exact h.skip

/-- A change that keeps the ids of the entries, or some of them, keeps the table well formed. -/
theorem WellFormed.rewrite (h : t.WellFormed cap) (hd : t'.Distinct)
    (hkeys : ∀ a ∈ t'.entries, ∃ b ∈ t.entries, key b = key a) (hnext : t'.nextId = t.nextId)
    (hlength : t'.slots.length = t.slots.length) : t'.WellFormed cap := by
  refine ⟨hd, fun a ha => ?_, hnext ▸ h.next, hlength.trans h.length⟩
  obtain ⟨b, hb, hkey⟩ := hkeys a ha
  rw [← hkey]
  exact h.nonzero b hb

theorem exists_key (h : t'.entries.map key = t.entries.map key) (hb : b ∈ t'.entries) :
    ∃ a ∈ t.entries, key a = key b :=
  mem_map.mp (h ▸ mem_map_of_mem hb)

theorem WellFormed.take (h : t.WellFormed cap) (i : UInt32) : (t.take i).2.WellFormed cap := by
  refine h.rewrite (h.distinct.take i) (fun a ha => ⟨a, mem_of_mem_take ha, rfl⟩) rfl ?_
  rcases t.search i with hfresh | ⟨pre, a, post, hfound⟩
  · rw [take_of_fresh hfresh]
  · simp [hfound.take, hfound.slots]

theorem WellFormed.update (h : t.WellFormed cap) (hf : ∀ a, key (f a) = key a) :
    (t.update i f).WellFormed cap := by
  refine h.rewrite (h.distinct.update hf) (fun _ => exists_key (map_entries_update hf)) rfl ?_
  rcases t.search i with hfresh | ⟨pre, a, post, hfound⟩
  · rw [update_of_fresh hfresh]
  · simp [hfound.update, hfound.slots]

theorem WellFormed.mapEntries (h : t.WellFormed cap)
    (hf : ∀ a, key (f a) = key a) : (t.mapEntries f).WellFormed cap :=
  h.rewrite (h.distinct.mapEntries hf) (fun _ => exists_key (map_key_mapEntries hf)) rfl
    (length_map _)

/-! ### The sequence of issued ids -/

/-- The number of ids a table has to issue: all of `u32` but 0. -/
def idCount : Nat := 2 ^ 32 - 1

/-- The id issued by allocation number `n`, counting from 0. -/
def nthId (n : Nat) : UInt32 := UInt32.ofNat (n % idCount + 1)

omit [Keyed α] in
theorem toNat_nthId (n : Nat) : (nthId n).toNat = n % idCount + 1 := by
  have h : n % idCount < idCount := Nat.mod_lt n (by decide)
  have hcount : idCount = 4294967295 := rfl
  rw [nthId, UInt32.toNat_ofNat']
  omega

theorem nthId_eq_iff {a b : Nat} : nthId a = nthId b ↔ a % idCount = b % idCount := by
  rw [← UInt32.toNat_inj, toNat_nthId, toNat_nthId]
  omega

theorem bump_nthId (n : Nat) : bump (nthId n) = nthId (n + 1) := by
  have h := toNat_nthId n
  have h' := toNat_nthId (n + 1)
  have hlt : n % idCount < idCount := Nat.mod_lt n (by decide)
  have hcount : idCount = 4294967295 := rfl
  have hadd : (nthId n + 1).toNat = (n % idCount + 1 + 1) % 2 ^ 32 := by
    rw [UInt32.toNat_add, h]
    rfl
  rw [← UInt32.toNat_inj, h', bump, UInt32.max_def]
  rw [hcount] at hlt hadd ⊢
  by_cases hwrap : n % 4294967295 + 1 = 4294967295
  · -- the counter wraps to 0 and skips it
    have hmod : (n + 1) % 4294967295 = 0 := by omega
    have hzero : nthId n + 1 = 0 := by
      rw [← UInt32.toNat_inj, hadd]
      simp only [UInt32.reduceToNat]
      omega
    rw [hzero, hmod]
    decide
  · have hmod : (n + 1) % 4294967295 = n % 4294967295 + 1 := by omega
    have hle : ¬ nthId n + 1 ≤ 1 := by
      rw [UInt32.le_iff_toNat_le, hadd]
      simp only [UInt32.reduceToNat]
      omega
    rw [if_neg hle, hadd, hmod]
    omega

/-- `issued` lists what every allocation of the table returned, in order. -/
structure Numbered (issued : List (Option UInt32)) (t : SlotTable α) : Prop where
  next : t.nextId = nthId issued.length
  nth : ∀ k id, issued[k]? = some (some id) → id = nthId k
  mem : ∀ a ∈ t.entries, some (key a) ∈ issued

theorem numbered_new (cap : Nat) : Numbered [] (new cap : SlotTable α) where
  next := show (1 : UInt32) = nthId 0 by decide
  nth := by simp
  mem := by simp

/-- A change of the table that allocates at most once; `ids` lists what the allocation
returned, and an entry may have gone again by the end. -/
inductive Advances (t : SlotTable α) : List (Option UInt32) → SlotTable α → Prop
  | same {t' : SlotTable α} (hnext : t'.nextId = t.nextId)
      (hsub : ∀ a ∈ t'.entries, ∃ b ∈ t.entries, key b = key a) : Advances t [] t'
  | issue {t' : SlotTable α} (r : Option UInt32) (hr : ∀ id, r = some id → id = t.nextId)
      (hnext : t'.nextId = bump t.nextId)
      (hsub : ∀ a ∈ t'.entries, (∃ b ∈ t.entries, key b = key a) ∨ r = some (key a)) :
      Advances t [r] t'

theorem Advances.refl (t : SlotTable α) : Advances t [] t :=
  .same rfl fun a ha => ⟨a, ha, rfl⟩

theorem Advances.take (t : SlotTable α) (i : UInt32) : Advances t [] (t.take i).2 :=
  .same rfl fun a ha => ⟨a, mem_of_mem_take ha, rfl⟩

theorem Advances.alloc (t : SlotTable α) (a : α) : Advances t [(t.alloc a).1] (t.alloc a).2 := by
  rcases alloc_cases t a with ⟨-, t', halloc, -, hnext, hp⟩ | ⟨-, halloc⟩
  · rw [halloc]
    refine .issue _ (fun id h => (Option.some.inj h).symm) hnext ?_
    intro b hb
    rcases mem_cons.mp (hp.mem_iff.mp hb) with rfl | hold
    · exact .inr (by rw [key_rekey])
    · exact .inl ⟨b, hold, rfl⟩
  · rw [halloc]
    exact .issue none (by simp) rfl fun b hb => .inl ⟨b, hb, rfl⟩

variable {ids : List (Option UInt32)}

theorem Advances.rewrite {t'' : SlotTable α}
    (h : Advances t ids t') (hnext : t''.nextId = t'.nextId)
    (hkeys : t''.entries.map key = t'.entries.map key) : Advances t ids t'' := by
  cases h with
  | same hn hs =>
    refine .same (hnext.trans hn) fun a ha => ?_
    obtain ⟨b, hb, hkey⟩ := exists_key hkeys ha
    rw [← hkey]
    exact hs b hb
  | issue r hr hn hs =>
    refine .issue r hr (hnext.trans hn) fun a ha => ?_
    obtain ⟨b, hb, hkey⟩ := exists_key hkeys ha
    rw [← hkey]
    exact hs b hb

theorem Advances.update (h : Advances t ids t') (hf : ∀ a, key (f a) = key a) :
    Advances t ids (t'.update i f) :=
  h.rewrite rfl (map_entries_update hf)

theorem Advances.mapEntries (h : Advances t ids t') (hf : ∀ a, key (f a) = key a) :
    Advances t ids (t'.mapEntries f) :=
  h.rewrite rfl (map_key_mapEntries hf)

theorem Advances.issued
    (h : Advances t ids t') {id : UInt32} (hid : some id ∈ ids) : id = t.nextId := by
  cases h with
  | same => exact absurd hid not_mem_nil
  | issue r hr => exact hr id (mem_singleton.mp hid).symm

variable {issued : List (Option UInt32)}

theorem Numbered.advance
    (h : Numbered issued t) (hadv : Advances t ids t') : Numbered (issued ++ ids) t' := by
  cases hadv with
  | same hnext hsub =>
    rw [append_nil]
    refine ⟨hnext.trans h.next, h.nth, ?_⟩
    intro a ha
    obtain ⟨b, hb, hkey⟩ := hsub a ha
    rw [← hkey]
    exact h.mem b hb
  | issue r hr hnext hsub =>
    refine ⟨?_, ?_, ?_⟩
    · rw [hnext, h.next, bump_nthId, length_append, length_singleton]
    · intro k id hk
      rcases Nat.lt_trichotomy k issued.length with hlt | rfl | hgt
      · rw [getElem?_append_left hlt] at hk
        exact h.nth k id hk
      · rw [getElem?_append_right (Nat.le_refl _), Nat.sub_self] at hk
        simp only [getElem?_cons_zero, Option.some.injEq] at hk
        rw [hr id hk, h.next]
      · have hlen : (issued ++ [r]).length ≤ k := by
          rw [length_append, length_singleton]
          omega
        rw [getElem?_eq_none hlen] at hk
        exact absurd hk (by simp)
    · intro a ha
      rw [mem_append, mem_singleton]
      rcases hsub a ha with ⟨b, hb, hkey⟩ | hr'
      · rw [← hkey]
        exact .inl (h.mem b hb)
      · exact .inr hr'.symm

/-- Every entry was issued by one of the last `idCount - 1` allocations. -/
def Young (issued : List (Option UInt32)) (t : SlotTable α) : Prop :=
  ∀ a ∈ t.entries, some (key a) ∈ issued.drop (issued.length + 1 - idCount)

instance (issued : List (Option UInt32)) (t : SlotTable α) : Decidable (Young issued t) := by
  unfold Young; infer_instance

theorem Numbered.fresh (h : Numbered issued t) (hy : Young issued t) : t.Fresh t.nextId := by
  intro a ha hkey
  obtain ⟨k, hk⟩ := mem_iff_getElem?.mp (hy a ha)
  rw [getElem?_drop] at hk
  have hlt : issued.length + 1 - idCount + k < issued.length := by
    by_contra hge
    rw [getElem?_eq_none (Nat.not_lt.mp hge)] at hk
    exact absurd hk (by simp)
  have hnth := h.nth _ _ hk
  rw [hkey, h.next, nthId_eq_iff] at hnth
  -- two allocations less than `idCount` apart have different ids
  have hcount : idCount = 4294967295 := rfl
  rw [hcount] at hnth hlt
  omega

/-- With fewer than `idCount` allocations altogether everything is young. -/
theorem Numbered.young
    (h : Numbered issued t) (hlt : issued.length < idCount) : Young issued t := by
  intro a ha
  have hzero : issued.length + 1 - idCount = 0 := by omega
  rw [hzero, drop_zero]
  exact h.mem a ha

end SlotTable

end Rustee
