import Mathlib.Data.Fintype.Card
import Mathlib.Data.Multiset.Fintype
import Mathlib.Tactic.Abel
import Rustee.GuestVirtq

/-!
# What every step of the transmit queue keeps

A descriptor in flight is at exactly one place (`State.flight`): being filled in by the driver,
available, held by the device, reported, or used and not polled yet. So at most 16 entries are on
the way, the 16-bit indices never run into each other, and no slot is reused before the device is
done with it. Each step moves one descriptor one place on.
-/

namespace Rustee.Virtq

open Function Multiset
open Virt (Bytes)

/-! ### Where the descriptors are -/

def Pc.placed : Pc → List (Fin QSIZE)
  | .desc id _ => [id]
  | .ring id _ => [id]
  | .publish id _ => [id]
  | _ => []

namespace State

def waiting (s : State) : List (Fin QSIZE) :=
  (Ring.window s.q.availRing s.seen.length (s.queued.length - s.seen.length)).map capId

def outstanding (s : State) : Multiset (Fin QSIZE) :=
  ↑s.waiting + ↑(s.held.map capId) + ↑(s.reported.toList.map capId)

/-- Reported used and not polled: the elements from the `polled`-th to the `used`-th. -/
def unpolled (s : State) (used polled : Nat) : List (Fin QSIZE) :=
  (Ring.window s.q.usedRing polled (used - polled)).map fun e => capId e.id.toUInt16

def flight (s : State) (used polled : Nat) : Multiset (Fin QSIZE) :=
  ↑s.pc.placed + s.outstanding + ↑(s.unpolled used polled)

/-- Descriptor and buffer of slot `i` are those of the packet. -/
def Holds (s : State) (i : Fin QSIZE) (v : Vec) : Prop :=
  s.q.desc i = v.desc ∧ s.bufs i = some v ∧ s.heap v.ptr = some v.pkt.bytes

def InHand (s : State) (v : Vec) : Prop :=
  v.ptr < s.next ∧ s.heap v.ptr = some v.pkt.bytes ∧ ∀ i w, s.bufs i = some w → w.ptr ≠ v.ptr

def Reached (s : State) (used polled : Nat) : Pc → Prop
  | .idle => True
  | .poll (.allocDesc v) => s.InHand v
  | .poll _ => True
  | .read (.allocDesc v) => polled < used ∧ s.InHand v
  | .read _ => polled < used
  | .scan v => s.InHand v
  | .desc id v => s.bufs id = some v ∧ s.heap v.ptr = some v.pkt.bytes
  | .ring id v => s.Holds id v
  | .publish id v => s.Holds id v ∧ capId (s.q.availRing (Ring.slot QSIZE s.queued.length)) = id

/-- The invariant; `used` and `polled` count the elements shown by the device and polled by
the driver. -/
structure Inv (s : State) (used polled : Nat) : Prop where
  availIdx : s.q.availIdx = UInt16.ofNat s.queued.length
  devAvail : s.devAvail = UInt16.ofNat s.seen.length
  seen_le : s.seen.length ≤ s.queued.length
  usedIdx : s.q.usedIdx = UInt16.ofNat used
  lastUsed : s.lastUsed = UInt16.ofNat polled
  polled_le : polled ≤ used
  nodup : (s.flight used polled).Nodup
  inflight : ∀ i, s.inflight i = true ↔ i ∈ s.flight used polled
  live : ∀ i, (s.live i).isSome ↔ i ∈ s.outstanding
  intact : ∀ i v, s.live i = some v → s.Holds i v
  waiting : s.waiting.map (fun i => (s.live i).map Vec.pkt) = (s.queued.drop s.seen.length).map some
  seen : s.seen = (s.queued.take s.seen.length).map fun pkt => some pkt.bytes
  owned : ∀ i v, s.bufs i = some v → v.ptr < s.next
  apart : ∀ i j v w, s.bufs i = some v → s.bufs j = some w → v.ptr = w.ptr → i = j
  reached : s.Reached used polled s.pc
  reported : ∀ id, s.reported = some id →
    capId (s.q.usedRing (Ring.slot QSIZE used)).id.toUInt16 = capId id

end State

/-! ### Indices -/

theorem qsize_dvd : QSIZE ∣ 2 ^ 16 := by decide

/-- The 16-bit index of entry `k` names its slot. -/
theorem capId_ofNat (k : Nat) : capId (UInt16.ofNat k) = Ring.slot QSIZE k := by
  rw [capId, UInt16.toNat_ofNat', Ring.slot_mod qsize_dvd]

theorem ofNat_succ (k : Nat) : UInt16.ofNat k + 1 = UInt16.ofNat (k + 1) := by
  apply UInt16.toNat_inj.mp
  rw [UInt16.toNat_add, UInt16.toNat_ofNat', UInt16.toNat_ofNat']
  show (k % 2 ^ 16 + 1) % 2 ^ 16 = (k + 1) % 2 ^ 16
  omega

theorem ofNat_eq_iff {lo hi : Nat} (hle : lo ≤ hi) (hlt : hi - lo < 2 ^ 16) :
    UInt16.ofNat hi = UInt16.ofNat lo ↔ hi = lo := by
  rw [← UInt16.toNat_inj, UInt16.toNat_ofNat', UInt16.toNat_ofNat', Ring.mod_eq_iff hle hlt]

theorem capId_val (i : Fin QSIZE) : capId (UInt16.ofNat i.val) = i := by
  rw [capId_ofNat, Ring.slot_of_lt i.isLt]

/-! ### Slots that are written -/

section Slots

variable {α : Type} {f : Fin QSIZE → α} (q : α → Bool) {m : Multiset (Fin QSIZE)} {a : α}
  {i : Fin QSIZE}

/-- The written slot joins those at which `q` holds. -/
theorem mem_cons_of_update (h : ∀ j, q (f j) ↔ j ∈ m) (ha : q a) (j : Fin QSIZE) :
    q (update f i a j) ↔ j ∈ i ::ₘ m := by
  rw [mem_cons]
  by_cases hji : j = i
  · rw [hji, update_self]
    exact iff_of_true ha (.inl rfl)
  · rw [update_of_ne hji, h j]
    exact (or_iff_right hji).symm

/-- The written slot leaves those at which `q` holds. -/
theorem mem_of_update (h : ∀ j, q (f j) ↔ j ∈ i ::ₘ m) (hnot : i ∉ m) (ha : ¬ q a)
    (j : Fin QSIZE) : q (update f i a j) ↔ j ∈ m := by
  by_cases hji : j = i
  · rw [hji, update_self]
    exact iff_of_false ha hnot
  · rw [update_of_ne hji, h j, mem_cons]
    exact or_iff_right hji

theorem update_eq_some {f : Fin QSIZE → Option α} {x : Option α} {j : Fin QSIZE}
    (h : update f i x j = some a) : (j = i ∧ x = some a) ∨ (j ≠ i ∧ f j = some a) := by
  by_cases hji : j = i
  · rw [hji, update_self] at h
    exact .inl ⟨hji, h⟩
  · rw [update_of_ne hji] at h
    exact .inr ⟨hji, h⟩

end Slots

namespace State

variable {s : State} {used polled : Nat}

theorem Inv.card_le (h : s.Inv used polled) : (s.flight used polled).card ≤ QSIZE := by
  have hcard := Finset.card_le_univ (⟨s.flight used polled, h.nodup⟩ : Finset (Fin QSIZE))
  rwa [Fintype.card_fin] at hcard

theorem card_flight (s : State) (used polled : Nat) : (s.flight used polled).card =
    s.pc.placed.length + (s.queued.length - s.seen.length + s.held.length +
      s.reported.toList.length) + (used - polled) := by
  simp only [flight, outstanding, waiting, unpolled, card_add, coe_card,
    List.length_map, Ring.length_window]

variable {i : Fin QSIZE} {v : Vec}

theorem Inv.mem_outstanding (h : s.Inv used polled)
    (hlive : s.live i = some v) : i ∈ s.outstanding :=
  (h.live i).mp (by rw [hlive]; rfl)

/-! ### The driver's steps -/

theorem Inv.move (h : s.Inv used polled) {pc : Pc} (hplaced : pc.placed = s.pc.placed)
    (hpc : s.Reached used polled pc) : Inv { s with pc := pc } used polled := by
  have hflight : ({ s with pc := pc } : State).flight used polled = s.flight used polled := by
    show ↑pc.placed + s.outstanding + ↑(s.unpolled used polled) = _
    rw [hplaced]
    rfl
  exact { h with
    nodup := hflight ▸ h.nodup
    inflight := fun i => by rw [hflight]; exact h.inflight i
    reached := by cases pc <;> exact hpc }

/-- `poll_used` compares: the indices differ only if something shown is not polled. -/
theorem Inv.lt_of_ne (h : s.Inv used polled) (hne : s.q.usedIdx ≠ s.lastUsed) : polled < used := by
  rcases lt_or_ge polled used with hlt | hge
  · exact hlt
  · have heq : used = polled := le_antisymm hge h.polled_le
    rw [h.usedIdx, h.lastUsed, heq] at hne
    exact absurd rfl hne

variable {k : Caller}

theorem Inv.pollNone (h : s.Inv used polled) (hpc : s.pc = .poll k) :
    Inv { s with pc := k.onNone } used polled := by
  have hreached := h.reached
  rw [hpc] at hreached
  apply h.move
  · rw [hpc]
    cases k <;> rfl
  · cases k with
    | pollUsed | recycleUsed => trivial
    | allocDesc => exact hreached

theorem Inv.pollSome (h : s.Inv used polled) (hpc : s.pc = .poll k)
    (hne : s.q.usedIdx ≠ s.lastUsed) : Inv { s with pc := .read k } used polled := by
  have hreached := h.reached
  rw [hpc] at hreached
  apply h.move
  · rw [hpc]
    rfl
  · cases k with
    | pollUsed | recycleUsed => exact h.lt_of_ne hne
    | allocDesc => exact ⟨h.lt_of_ne hne, hreached⟩

theorem Inv.spin (h : s.Inv used polled) (hpc : s.pc = .scan v) :
    Inv { s with pc := .poll (.allocDesc v) } used polled := by
  have hreached := h.reached
  rw [hpc] at hreached
  apply h.move
  · rw [hpc]
    rfl
  · exact hreached

theorem unpolled_eq_cons (s : State) (hlt : polled < used) :
    s.unpolled used polled =
      capId (s.q.usedRing (Ring.slot QSIZE polled)).id.toUInt16 ::
        s.unpolled used (polled + 1) := by
  obtain ⟨d, hd⟩ : ∃ d, used - polled = d + 1 := ⟨used - polled - 1, by omega⟩
  have hd' : used - (polled + 1) = d := by omega
  rw [unpolled, unpolled, hd, hd']
  rfl

/-- `poll_used` reads: the descriptor is not in flight any more. -/
theorem Inv.recycle (h : s.Inv used polled) (hpc : s.pc = .read k) :
    (s.recycle k).Inv used (polled + 1) := by
  have hreached := h.reached
  rw [hpc] at hreached
  have hlt : polled < used := by
    cases k with
    | pollUsed | recycleUsed => exact hreached
    | allocDesc => exact hreached.1
  have hslot : capId s.lastUsed = Ring.slot QSIZE polled := by rw [h.lastUsed, capId_ofNat]
  have hsplit := unpolled_eq_cons s hlt
  rw [← hslot] at hsplit
  generalize hi : capId (s.q.usedRing (capId s.lastUsed)).id.toUInt16 = i at hsplit
  have hplaced : k.onSome.placed = [] := by cases k <;> rfl
  have hflight : s.flight used polled = i ::ₘ (s.recycle k).flight used (polled + 1) := by
    rw [flight, flight, hsplit, hpc, ← cons_coe, add_cons]
    show _ = i ::ₘ (↑k.onSome.placed + s.outstanding + ↑(s.unpolled used (polled + 1)))
    rw [hplaced]
    rfl
  have hnodup := h.nodup
  rw [hflight, nodup_cons] at hnodup
  exact { h with
    lastUsed := by
      show s.lastUsed + 1 = _
      rw [h.lastUsed, ofNat_succ]
    polled_le := hlt
    nodup := hnodup.2
    inflight := by
      have hupdate : (s.recycle k).inflight = update s.inflight i false := by
        rw [← hi]
        rfl
      rw [hupdate]
      exact mem_of_update id (hflight ▸ h.inflight) hnodup.1 Bool.false_ne_true
    reached := by
      cases k with
      | pollUsed | recycleUsed => trivial
      | allocDesc => exact hreached.2 }

theorem firstFree_eq_some {inflight : Fin QSIZE → Bool}
    (h : firstFree inflight = some i) : inflight i = false := by
  have hi := List.find?_some h
  rwa [Bool.not_eq_true'] at hi

section

variable (h : s.Inv used polled)
include h

/-- The slot that `alloc_desc` finds is at no place, and the packet moves into it. -/
theorem Inv.own (hpc : s.pc = .scan v)
    (hfree : firstFree s.inflight = some i) : (s.own i v).Inv used polled := by
  have hreached := h.reached
  rw [hpc] at hreached
  obtain ⟨hnext, hheap, hnone⟩ := hreached
  have hnotin : i ∉ s.flight used polled := by
    intro hmem
    have htrue := (h.inflight i).mpr hmem
    rw [firstFree_eq_some hfree] at htrue
    cases htrue
  have hnotlive : ∀ j w, s.live j = some w → j ≠ i := by
    rintro j w hlive rfl
    apply hnotin
    rw [flight, mem_add, mem_add]
    exact .inl (.inr (h.mem_outstanding hlive))
  have hflight : (s.own i v).flight used polled = i ::ₘ s.flight used polled := by
    rw [flight, flight, hpc, ← singleton_add]
    show {i} + s.outstanding + ↑(s.unpolled used polled) = {i} + (0 + s.outstanding + _)
    abel
  -- the block of another slot is not the one that is dropped
  have hkept : ∀ p, (∀ old, s.bufs i = some old → old.ptr ≠ p) → (s.own i v).heap p = s.heap p := by
    intro p hp
    show dropOld s.heap (s.bufs i) p = _
    cases hold : s.bufs i with
    | none => rfl
    | some old => exact update_of_ne (hp old hold).symm _ _
  exact { h with
    nodup := by
      rw [hflight, nodup_cons]
      exact ⟨hnotin, h.nodup⟩
    inflight := hflight ▸ mem_cons_of_update id h.inflight rfl
    intact := by
      intro j w hlive
      obtain ⟨hdesc, hbuf, hblock⟩ := h.intact j w hlive
      have hji := hnotlive j w hlive
      refine ⟨hdesc, (update_of_ne hji _ _).trans hbuf, ?_⟩
      rw [hkept, hblock]
      intro old hold hptr
      exact hji (h.apart i j old w hold hbuf hptr).symm
    owned := by
      intro j w hbuf
      rcases update_eq_some hbuf with ⟨-, ⟨⟩⟩ | ⟨-, hold⟩
      · exact hnext
      · exact h.owned j w hold
    apart := by
      intro j k w w' hj hk hptr
      rcases update_eq_some hj with ⟨rfl, ⟨⟩⟩ | ⟨-, hold⟩
      · rcases update_eq_some hk with ⟨rfl, -⟩ | ⟨-, hold'⟩
        · rfl
        · exact absurd hptr.symm (hnone k w' hold')
      · rcases update_eq_some hk with ⟨rfl, ⟨⟩⟩ | ⟨-, hold'⟩
        · exact absurd hptr (hnone j w hold)
        · exact h.apart j k w w' hold hold' hptr
    reached := by
      refine ⟨update_self .., ?_⟩
      rw [hkept, hheap]
      intro old hold
      exact hnone i old hold }

theorem Inv.live_of_placed (hplaced : s.pc.placed = [i]) : s.live i = none := by
  cases hlive : s.live i with
  | none => rfl
  | some =>
    have hnodup := h.nodup
    rw [flight, hplaced, coe_singleton, add_assoc, singleton_add, nodup_cons, mem_add] at hnodup
    exact absurd (.inl (h.mem_outstanding hlive)) hnodup.1

theorem Inv.ne_of_live {j : Fin QSIZE}
    (hplaced : s.pc.placed = [i]) (hlive : s.live j = some v) : j ≠ i := by
  rintro rfl
  rw [h.live_of_placed hplaced] at hlive
  cases hlive

/-- `add_out` writes the descriptor. -/
theorem Inv.writeDesc (hpc : s.pc = .desc i v) : (s.writeDesc i v).Inv used polled := by
  have hreached := h.reached
  have hplaced : s.pc.placed = [i] := by rw [hpc]; rfl
  rw [hpc] at hreached
  have hflight : (s.writeDesc i v).flight used polled = s.flight used polled := by
    rw [flight, flight, hplaced]
    rfl
  exact { h with
    nodup := hflight ▸ h.nodup
    inflight := hflight ▸ h.inflight
    intact := by
      intro j w hlive
      obtain ⟨hdesc, hrest⟩ := h.intact j w hlive
      exact ⟨(update_of_ne (h.ne_of_live hplaced hlive) _ _).trans hdesc, hrest⟩
    reached := ⟨update_self .., hreached.1, hreached.2⟩ }

theorem Inv.waiting_lt (hplaced : s.pc.placed = [i]) : s.queued.length - s.seen.length < QSIZE := by
  have hcard := h.card_le
  rw [card_flight, hplaced, List.length_singleton] at hcard
  omega

/-- `add_out` writes the ring: the entry behind those that are available. -/
theorem Inv.writeRing (hpc : s.pc = .ring i v) : (s.writeRing i v).Inv used polled := by
  have hreached := h.reached
  have hplaced : s.pc.placed = [i] := by rw [hpc]; rfl
  rw [hpc] at hreached
  have hend : s.seen.length + (s.queued.length - s.seen.length) = s.queued.length :=
    Nat.add_sub_cancel' h.seen_le
  have hring : (s.writeRing i v).q.availRing = update s.q.availRing
      (Ring.slot QSIZE (s.seen.length + (s.queued.length - s.seen.length)))
      (UInt16.ofNat i.val) := by
    rw [hend, ← capId_ofNat, ← h.availIdx]
    rfl
  have hlast : (s.writeRing i v).q.availRing (Ring.slot QSIZE s.queued.length) =
      UInt16.ofNat i.val := by
    rw [hring, hend, update_self]
  have hwaiting : (s.writeRing i v).waiting = s.waiting := by
    rw [State.waiting, hring, State.waiting]
    exact congrArg (List.map capId) (Ring.window_update (h.waiting_lt hplaced) _)
  have hout : (s.writeRing i v).outstanding = s.outstanding := by
    rw [outstanding, hwaiting]
    rfl
  have hflight : (s.writeRing i v).flight used polled = s.flight used polled := by
    rw [flight, flight, hplaced, hout]
    rfl
  exact { h with
    nodup := hflight ▸ h.nodup
    inflight := hflight ▸ h.inflight
    live := hout ▸ h.live
    waiting := hwaiting ▸ h.waiting
    reached := ⟨hreached, (congrArg capId hlast).trans (capId_val i)⟩ }

end

theorem mem_outstanding_of_waiting (h : i ∈ s.waiting) : i ∈ s.outstanding := by
  rw [outstanding, mem_add, mem_add]
  exact .inl (.inl h)

theorem Inv.not_mem_waiting (h : s.Inv used polled) (hfree : s.live i = none) : i ∉ s.waiting := by
  intro hmem
  have hsome := (h.live i).mpr (mem_outstanding_of_waiting hmem)
  rw [hfree] at hsome
  cases hsome

theorem map_live_update (live : Fin QSIZE → Option Vec) {l : List (Fin QSIZE)}
    (h : i ∉ l) (x : Option Vec) :
    l.map (fun j => (update live i x j).map Vec.pkt) = l.map fun j => (live j).map Vec.pkt := by
  apply List.map_congr_left
  intro j hj
  have hji : j ≠ i := by
    rintro rfl
    exact h hj
  rw [update_of_ne hji]

/-- `add_out` publishes: the packet is available and outstanding. -/
theorem Inv.publish (h : s.Inv used polled)
    (hpc : s.pc = .publish i v) : (s.publish i v).Inv used polled := by
  have hreached := h.reached
  have hplaced : s.pc.placed = [i] := by rw [hpc]; rfl
  rw [hpc] at hreached
  obtain ⟨hholds, hlast⟩ := hreached
  have hfree := h.live_of_placed hplaced
  have hlength : (s.publish i v).queued.length = s.queued.length + 1 := List.length_append
  have hcount : (s.publish i v).queued.length - s.seen.length =
      s.queued.length - s.seen.length + 1 := by
    rw [hlength]
    have := h.seen_le
    omega
  have hwaiting : (s.publish i v).waiting = s.waiting ++ [i] := by
    show (Ring.window s.q.availRing s.seen.length
      ((s.publish i v).queued.length - s.seen.length)).map capId = _
    rw [hcount, Ring.window_succ, Nat.add_sub_cancel' h.seen_le, List.map_append]
    exact congrArg (s.waiting ++ [·]) hlast
  have hout : (s.publish i v).outstanding = i ::ₘ s.outstanding := by
    rw [outstanding, hwaiting, outstanding, ← coe_add, coe_singleton]
    show (↑s.waiting : Multiset (Fin QSIZE)) + {i} + ↑(s.held.map capId) +
      ↑(s.reported.toList.map capId) = _
    rw [← singleton_add]
    abel
  have hflight : (s.publish i v).flight used polled = s.flight used polled := by
    rw [flight, flight, hplaced, hout]
    show ↑([] : List (Fin QSIZE)) + i ::ₘ s.outstanding + ↑(s.unpolled used polled) = _
    rw [coe_nil, zero_add, coe_singleton, singleton_add]
  exact { h with
    availIdx := by
      show s.q.availIdx + 1 = _
      rw [hlength, h.availIdx, ofNat_succ]
    seen_le := by
      rw [hlength]
      exact Nat.le_succ_of_le h.seen_le
    nodup := hflight ▸ h.nodup
    inflight := hflight ▸ h.inflight
    live := hout ▸ mem_cons_of_update Option.isSome h.live rfl
    intact := by
      intro j w hlive
      rcases update_eq_some hlive with ⟨rfl, ⟨⟩⟩ | ⟨-, hold⟩
      · exact hholds
      · exact h.intact j w hold
    waiting := by
      have hold := map_live_update s.live (h.not_mem_waiting hfree) (some v)
      rw [hwaiting, List.map_append]
      show s.waiting.map (fun j => (update s.live i (some v) j).map Vec.pkt) ++
        [(update s.live i (some v) i).map Vec.pkt] =
          ((s.queued ++ [v.pkt]).drop s.seen.length).map some
      rw [hold, h.waiting, update_self, List.drop_append_of_le_length h.seen_le, List.map_append]
      rfl
    seen := by
      show s.seen = ((s.queued ++ [v.pkt]).take s.seen.length).map _
      rw [List.take_append_of_le_length h.seen_le]
      exact h.seen
    reached := trivial }

/-! ### The device's steps -/

theorem readBuf_of_holds (h : s.Holds i v) : readBuf s.heap (s.q.desc i) = some v.pkt.bytes := by
  obtain ⟨hdesc, -, hheap⟩ := h
  have hlen : (UInt32.ofNat v.pkt.bytes.length).toNat = v.pkt.bytes.length := by
    have hle := v.pkt.length_le
    rw [RAM_SIZE] at hle
    rw [UInt32.toNat_ofNat']
    omega
  rw [readBuf, hdesc]
  show (s.heap v.ptr).map (fun bytes => bytes.take (UInt32.ofNat v.pkt.bytes.length).toNat) = _
  rw [hheap, hlen, Option.map_some, List.take_length]

theorem waiting_eq_cons (s : State) (hlt : s.seen.length < s.queued.length) :
    s.waiting = capId (s.q.availRing (Ring.slot QSIZE s.seen.length)) :: s.takeEntry.waiting := by
  obtain ⟨d, hd⟩ : ∃ d, s.queued.length - s.seen.length = d + 1 :=
    ⟨s.queued.length - s.seen.length - 1, by omega⟩
  have hlength : s.takeEntry.seen.length = s.seen.length + 1 := List.length_append
  have hd' : s.takeEntry.queued.length - s.takeEntry.seen.length = d := by
    rw [hlength]
    show s.queued.length - (s.seen.length + 1) = d
    omega
  rw [waiting, hd, waiting, hd', hlength]
  rfl

/-- The device takes an entry: it is the next packet, and the device reads it as it was
passed. -/
theorem Inv.takeEntry (h : s.Inv used polled) (hne : s.devAvail ≠ s.q.availIdx) :
    s.takeEntry.Inv used polled := by
  have hlt : s.seen.length < s.queued.length := by
    rcases lt_or_ge s.seen.length s.queued.length with hlt | hge
    · exact hlt
    · have heq : s.queued.length = s.seen.length := le_antisymm hge h.seen_le
      rw [h.devAvail, h.availIdx, heq] at hne
      exact absurd rfl hne
  have hlength : s.takeEntry.seen.length = s.seen.length + 1 := List.length_append
  have hslot : capId s.devAvail = Ring.slot QSIZE s.seen.length := by
    rw [h.devAvail, capId_ofNat]
  have hcons := waiting_eq_cons s hlt
  rw [← hslot] at hcons
  generalize hid : s.q.availRing (capId s.devAvail) = id at hcons
  have hheld : s.takeEntry.held = s.held ++ [id] := by
    rw [← hid]
    rfl
  have hout : s.takeEntry.outstanding = s.outstanding := by
    rw [outstanding, outstanding, hcons, hheld, List.map_append, ← coe_add, ← cons_coe]
    show ↑s.takeEntry.waiting + (↑(s.held.map capId) + ({capId id} : Multiset (Fin QSIZE))) +
      ↑(s.reported.toList.map capId) = _
    rw [← singleton_add]
    abel
  have hflight : s.takeEntry.flight used polled = s.flight used polled := by
    rw [flight, flight, hout]
    rfl
  -- the packet at the head of the waiting ones
  obtain ⟨pkt, hpkt⟩ : ∃ pkt, s.queued.drop s.seen.length =
      pkt :: s.queued.drop (s.seen.length + 1) :=
    ⟨s.queued.get ⟨s.seen.length, hlt⟩, List.drop_eq_getElem_cons hlt⟩
  have hpackets := h.waiting
  rw [hcons, hpkt, List.map_cons, List.map_cons] at hpackets
  obtain ⟨hhead, htail⟩ := List.cons.inj hpackets
  obtain ⟨v, hlive, hv⟩ := Option.map_eq_some_iff.mp hhead
  have hread : readBuf s.heap (s.q.desc (capId id)) = some pkt.bytes := by
    rw [readBuf_of_holds (h.intact _ v hlive), hv]
  have hseen : s.takeEntry.seen = s.seen ++ [some pkt.bytes] := by
    rw [← hread, ← hid]
    rfl
  have htake : s.queued.take (s.seen.length + 1) = s.queued.take s.seen.length ++ [pkt] := by
    rw [List.take_add, hpkt]
    rfl
  exact { h with
    devAvail := by
      show s.devAvail + 1 = _
      rw [hlength, h.devAvail, ofNat_succ]
    seen_le := by
      rw [hlength]
      exact hlt
    nodup := hflight ▸ h.nodup
    inflight := hflight ▸ h.inflight
    live := hout ▸ h.live
    waiting := by
      rw [hlength]
      exact htail
    seen := by
      rw [hlength]
      show s.takeEntry.seen = (s.queued.take (s.seen.length + 1)).map _
      rw [htake, List.map_append, ← h.seen, hseen]
      rfl }

/-- The device reports a descriptor that it holds: the element behind those it has shown. -/
theorem Inv.report (h : s.Inv used polled) {id : UInt16} (hheld : id ∈ s.held)
    (hreported : s.reported = none) (len : UInt32) : (s.report id len).Inv used polled := by
  have hperm : (↑(s.held.map capId) : Multiset (Fin QSIZE)) =
      capId id ::ₘ ↑((s.held.erase id).map capId) := by
    rw [cons_coe, coe_eq_coe]
    exact (List.perm_cons_erase hheld).map capId
  have hlt : used - polled < QSIZE := by
    have hcard := h.card_le
    have hpos : 0 < s.held.length := List.length_pos_of_mem hheld
    rw [card_flight] at hcard
    omega
  have hend : polled + (used - polled) = used := Nat.add_sub_cancel' h.polled_le
  have hring : (s.report id len).q.usedRing = update s.q.usedRing
      (Ring.slot QSIZE (polled + (used - polled))) ⟨id.toUInt32, len⟩ := by
    rw [hend, ← capId_ofNat, ← h.usedIdx]
    rfl
  have hlast : (s.report id len).q.usedRing (Ring.slot QSIZE used) = ⟨id.toUInt32, len⟩ := by
    rw [hring, hend, update_self]
  have hunpolled : (s.report id len).unpolled used polled = s.unpolled used polled := by
    rw [unpolled, hring, unpolled, Ring.window_update hlt]
  have hout : (s.report id len).outstanding = s.outstanding := by
    rw [outstanding, outstanding, hreported, hperm]
    show (↑s.waiting : Multiset (Fin QSIZE)) + ↑((s.held.erase id).map capId) + {capId id} =
      _ + _ + 0
    rw [← singleton_add]
    abel
  have hflight : (s.report id len).flight used polled = s.flight used polled := by
    rw [flight, flight, hout, hunpolled]
    rfl
  exact { h with
    nodup := hflight ▸ h.nodup
    inflight := hflight ▸ h.inflight
    live := hout ▸ h.live
    reported := by
      intro id' hid'
      cases hid'
      rw [hlast]
      show capId id.toUInt32.toUInt16 = capId id
      rw [UInt16.toUInt16_toUInt32] }

theorem Reached.succ {pc : Pc} (h : s.Reached used polled pc) : s.Reached (used + 1) polled pc := by
  cases pc with
  | read k =>
    cases k with
    | pollUsed | recycleUsed => exact Nat.lt_succ_of_lt h
    | allocDesc => exact ⟨Nat.lt_succ_of_lt h.1, h.2⟩
  | poll k => cases k <;> exact h
  | _ => exact h

/-- The device shows the element: the descriptor is not outstanding any more. -/
theorem Inv.showUsed (h : s.Inv used polled) {id : UInt16} (hreported : s.reported = some id) :
    (s.showUsed id).Inv (used + 1) polled := by
  have hlast := h.reported id hreported
  have hcount : used + 1 - polled = used - polled + 1 := by
    have := h.polled_le
    omega
  have hunpolled : (s.showUsed id).unpolled (used + 1) polled =
      s.unpolled used polled ++ [capId id] := by
    show (Ring.window s.q.usedRing polled (used + 1 - polled)).map _ = _
    rw [hcount, Ring.window_succ, Nat.add_sub_cancel' h.polled_le, List.map_append]
    exact congrArg (s.unpolled used polled ++ [·]) hlast
  have hout : s.outstanding = capId id ::ₘ (s.showUsed id).outstanding := by
    rw [outstanding, outstanding, hreported]
    show (↑s.waiting : Multiset (Fin QSIZE)) + ↑(s.held.map capId) + {capId id} =
      capId id ::ₘ (↑s.waiting + ↑(s.held.map capId) + 0)
    rw [← singleton_add]
    abel
  have hflight : (s.showUsed id).flight (used + 1) polled = s.flight used polled := by
    rw [flight, flight, hout, hunpolled, ← coe_add, coe_singleton]
    show ↑s.pc.placed + (s.showUsed id).outstanding + (↑(s.unpolled used polled) + {capId id}) = _
    rw [← singleton_add]
    abel
  have hnodup : s.outstanding.Nodup :=
    nodup_of_le (le_add_right _ _ |>.trans' (le_add_left _ _)) h.nodup
  rw [hout, nodup_cons] at hnodup
  exact { h with
    usedIdx := by
      show s.q.usedIdx + 1 = _
      rw [h.usedIdx, ofNat_succ]
    polled_le := Nat.le_succ_of_le h.polled_le
    nodup := hflight ▸ h.nodup
    inflight := hflight ▸ h.inflight
    live := mem_of_update Option.isSome (hout ▸ h.live) hnodup.1 Bool.false_ne_true
    intact := by
      intro j w hlive
      rcases update_eq_some hlive with ⟨-, ⟨⟩⟩ | ⟨-, hold⟩
      exact h.intact j w hold
    waiting := (map_live_update s.live
      (fun hmem => hnodup.1 (mem_outstanding_of_waiting hmem)) none).trans h.waiting
    reached := h.reached.succ
    reported := by
      intro id' hid'
      cases hid' }

/-! ### Runs keep the invariant -/

theorem Inv.addOutOwned (h : s.Inv used polled) (hpc : s.pc = .idle) (pkt : Packet) :
    Inv { s with
      heap := update s.heap s.next (some pkt.bytes)
      next := s.next + 1
      pc := .poll (.allocDesc ⟨s.next, pkt⟩) } used polled := by
  have hfresh : ∀ i v, s.bufs i = some v → v.ptr ≠ s.next :=
    fun i v hbuf => ne_of_lt (h.owned i v hbuf)
  have hnodup := h.nodup
  have hinflight := h.inflight
  simp only [flight, hpc] at hnodup hinflight
  exact { h with
    nodup := hnodup
    inflight := hinflight
    intact := by
      intro i v hlive
      obtain ⟨hdesc, hbuf, hheap⟩ := h.intact i v hlive
      exact ⟨hdesc, hbuf, (update_of_ne (hfresh i v hbuf) _ _).trans hheap⟩
    owned := fun i v hbuf => Nat.lt_succ_of_lt (h.owned i v hbuf)
    reached := ⟨Nat.lt_succ_self _, update_self .., hfresh⟩ }

variable {s' : State}

theorem Inv.driver (h : s.Inv used polled) (hstep : driverStep s = some s') :
    ∃ polled', s'.Inv used polled' := by
  cases driverMove_of_step hstep with
  | pollNone hpc => exact ⟨polled, h.pollNone hpc⟩
  | pollSome hpc hne => exact ⟨polled, h.pollSome hpc hne⟩
  | recycle hpc => exact ⟨polled + 1, h.recycle hpc⟩
  | spin hpc => exact ⟨polled, h.spin hpc⟩
  | own hpc hfree => exact ⟨polled, h.own hpc hfree⟩
  | writeDesc hpc => exact ⟨polled, h.writeDesc hpc⟩
  | writeRing hpc => exact ⟨polled, h.writeRing hpc⟩
  | publish hpc => exact ⟨polled, h.publish hpc⟩

theorem Inv.step (h : s.Inv used polled) {e : Event} (hstep : step s e = some s') :
    ∃ used' polled', s'.Inv used' polled' := by
  cases move_of_step hstep with
  | pollUsed hpc | recycleUsed hpc => exact ⟨used, polled, h.move (by rw [hpc]; rfl) trivial⟩
  | addOutOwned hpc pkt => exact ⟨used, polled, h.addOutOwned hpc pkt⟩
  | driver hdriver =>
    obtain ⟨polled', h'⟩ := h.driver hdriver
    exact ⟨used, polled', h'⟩
  | take hne => exact ⟨used, polled, h.takeEntry hne⟩
  | report hheld hreported len => exact ⟨used, polled, h.report hheld hreported len⟩
  | used hreported => exact ⟨used + 1, polled, h.showUsed hreported⟩

theorem inv_start : start.Inv 0 0 where
  availIdx := rfl
  devAvail := rfl
  seen_le := le_refl 0
  usedIdx := rfl
  lastUsed := rfl
  polled_le := le_refl 0
  nodup := nodup_zero
  inflight := fun i => ⟨fun h => absurd h Bool.false_ne_true,
    fun h => absurd h (notMem_zero i)⟩
  live := fun i => ⟨fun h => absurd h Bool.false_ne_true,
    fun h => absurd h (notMem_zero i)⟩
  intact := fun _ _ h => nomatch h
  waiting := rfl
  seen := rfl
  owned := fun _ _ h => nomatch h
  apart := fun _ _ _ _ h => nomatch h
  reached := trivial
  reported := fun _ h => nomatch h

theorem Inv.run (h : s.Inv used polled) {events : List Event}
    (hrun : run events s = some s') : ∃ used' polled', s'.Inv used' polled' := by
  induction events generalizing s used polled with
  | nil =>
    cases hrun
    exact ⟨used, polled, h⟩
  | cons e es ih =>
    obtain ⟨s1, hstep, hrest⟩ := Option.bind_eq_some_iff.mp hrun
    obtain ⟨used', polled', h'⟩ := h.step hstep
    exact ih h' hrest

end State

end Rustee.Virtq
