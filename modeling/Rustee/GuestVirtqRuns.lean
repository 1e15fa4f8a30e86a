import Rustee.GuestVirtqSteps

/-!
# Whole runs of the transmit queue: every packet reaches the device exactly once

The packets passed are the packets queued and the one in the driver's hands; what the device has
read is an initial part of what was queued; a queued packet stays in its slot until the device
shows it used. And if the device moves whenever it can, the two sides can always finish:
`State.weight` goes down with every step.
-/

namespace Rustee.Virtq

open List

namespace State

variable {s : State} {used polled : Nat}

/-! ### What has been passed -/

def accepted (s : State) : List Packet := s.queued ++ s.pc.inHand

variable {s' : State}

theorem driverStep_accepted (hstep : driverStep s = some s') : s'.accepted = s.accepted := by
  have hpoll : ∀ k : Caller, k.onNone.inHand = (Pc.poll k).inHand ∧
      k.onSome.inHand = (Pc.read k).inHand ∧ (Pc.read k).inHand = (Pc.poll k).inHand := by
    intro k
    cases k <;> exact ⟨rfl, rfl, rfl⟩
  rw [accepted, accepted]
  cases driverMove_of_step hstep with
  | pollNone hpc _ => rw [hpc, ← (hpoll _).1]
  | pollSome hpc _ => rw [hpc, ← (hpoll _).2.2]
  | recycle hpc =>
    rw [hpc, ← (hpoll _).2.1]
    rfl
  | publish hpc =>
    rw [hpc]
    exact append_nil _
  | _ hpc =>
    rw [hpc]
    rfl

theorem step_accepted {e : Event} (hstep : step s e = some s') :
    s'.accepted = s.accepted ++ passed [e] := by
  have hnil : ∀ l : List Packet, l = l ++ [] := fun l => (append_nil l).symm
  cases move_of_step hstep with
  | pollUsed hpc | recycleUsed hpc =>
    rw [accepted, accepted, hpc]
    exact hnil _
  | addOutOwned hpc pkt =>
    rw [accepted, accepted, hpc]
    show s.queued ++ [pkt] = s.queued ++ [] ++ [pkt]
    rw [append_nil]
  | driver hdriver =>
    rw [driverStep_accepted hdriver]
    exact hnil _
  | _ => exact hnil _

theorem passed_cons (e : Event) (es : List Event) : passed (e :: es) = passed [e] ++ passed es := by
  cases e <;> rfl

theorem run_accepted {events : List Event} (hrun : Virtq.run events s = some s') :
    s'.accepted = s.accepted ++ passed events := by
  induction events generalizing s with
  | nil =>
    cases hrun
    exact (append_nil _).symm
  | cons e es ih =>
    obtain ⟨s1, hstep, hrest⟩ := Option.bind_eq_some_iff.mp hrun
    rw [ih hrest, step_accepted hstep, append_assoc, ← passed_cons]

/-! ### A queued packet stays where it is -/

/-- A packet that is queued stays queued in its slot until the device shows the slot used. -/
theorem Inv.live_step (h : s.Inv used polled) {i : Fin QSIZE} {v : Vec} (hlive : s.live i = some v)
    {e : Event} (hstep : Virtq.step s e = some s') :
    s'.live i = some v ∨ (e = .used ∧ s.reported.map capId = some i) := by
  cases move_of_step hstep with
  | driver hdriver =>
    left
    cases driverMove_of_step hdriver with
    | publish hpc =>
      exact (Function.update_of_ne (h.ne_of_live (by rw [hpc]; rfl) hlive) _ _).trans hlive
    | _ => exact hlive
  | @used id hreported =>
    by_cases hi : i = capId id
    · refine .inr ⟨rfl, ?_⟩
      rw [hreported, hi]
      rfl
    · exact .inl ((Function.update_of_ne hi _ _).trans hlive)
  | _ => exact .inl hlive

/-! ### Nothing gets stuck -/

def pcWeight (s : State) : Nat :=
  match s.pc with
  | .idle => 0
  | .poll _ => 10
  | .read _ => 9
  | .scan _ => if (firstFree s.inflight).isSome then 9 else 11
  | .desc _ _ => 8
  | .ring _ _ => 7
  | .publish _ _ => 6

/-- What is left to do when the device moves first and the driver only when the device has
nothing to do. -/
def weight (s : State) (used polled : Nat) : Nat :=
  s.pcWeight + 5 * (s.queued.length - s.seen.length) + 4 * s.held.length +
    3 * s.reported.toList.length + 2 * (used - polled)

/-- A step of the driver that only brings it closer to the end of its call. -/
theorem weight_lt (hpc : s'.pcWeight < s.pcWeight) (hqueued : s'.queued = s.queued)
    (hseen : s'.seen = s.seen) (hheld : s'.held = s.held) (hreported : s'.reported = s.reported) :
    s'.weight used polled < s.weight used polled := by
  rw [weight, hqueued, hseen, hheld, hreported, weight]
  omega

/-- The device holds nothing and has taken everything. -/
structure Drained (s : State) : Prop where
  taken : s.seen.length = s.queued.length
  held : s.held = []
  reported : s.reported = none

theorem firstFree_isSome {inflight : Fin QSIZE → Bool} {i : Fin QSIZE} (h : inflight i = false) :
    (firstFree inflight).isSome := by
  rw [firstFree, find?_isSome]
  exact ⟨i, mem_finRange i, by rw [h]; rfl⟩

/-- With the device drained and everything polled, every descriptor is free. -/
theorem Inv.free_of_drained (h : s.Inv used used) (hdrained : s.Drained)
    (hplaced : s.pc.placed = []) : (firstFree s.inflight).isSome := by
  have hcard := card_flight s used used
  rw [hplaced, hdrained.taken, hdrained.held, hdrained.reported, Nat.sub_self, Nat.sub_self]
    at hcard
  have hzero : s.flight used used = 0 := Multiset.card_eq_zero.mp hcard
  apply firstFree_isSome (i := ⟨0, by decide⟩)
  have hiff := h.inflight ⟨0, by decide⟩
  rw [hzero] at hiff
  rw [← Bool.not_eq_true, hiff]
  exact Multiset.notMem_zero _

section

variable (h : s.Inv used polled)
include h

theorem Inv.eq_of_idx_eq (heq : s.q.usedIdx = s.lastUsed) : used = polled := by
  have hcard := h.card_le
  have hsize : QSIZE = 16 := rfl
  rw [card_flight] at hcard
  rw [h.usedIdx, h.lastUsed] at heq
  exact (ofNat_eq_iff h.polled_le (by omega)).mp heq

theorem Inv.driver_advances (hdrained : s.Drained) (hidle : s.pc ≠ .idle) :
    ∃ s' polled', driverStep s = some s' ∧ s'.Inv used polled' ∧
      s'.weight used polled' < s.weight used polled := by
  cases hpc : s.pc with
  | idle => exact absurd hpc hidle
  | poll k =>
    by_cases heq : s.q.usedIdx = s.lastUsed
    · have hall := h.eq_of_idx_eq heq
      subst hall
      have hfree := h.free_of_drained hdrained (by rw [hpc]; rfl)
      refine ⟨{ s with pc := k.onNone }, used, ?_, h.pollNone hpc, ?_⟩
      · rw [driverStep, hpc]
        exact if_pos heq
      · have hold : s.pcWeight = 10 := by rw [pcWeight, hpc]
        refine weight_lt ?_ rfl rfl rfl rfl
        rw [hold]
        cases k with
        | pollUsed | recycleUsed => exact Nat.succ_pos 9
        | allocDesc =>
          show (if (firstFree s.inflight).isSome then 9 else 11) < 10
          rw [if_pos hfree]
          exact Nat.lt_succ_self 9
    · refine ⟨{ s with pc := .read k }, polled, ?_, h.pollSome hpc heq, ?_⟩
      · rw [driverStep, hpc]
        exact if_neg heq
      · have hold : s.pcWeight = 10 := by rw [pcWeight, hpc]
        exact weight_lt (by rw [hold]; exact Nat.lt_succ_self 9) rfl rfl rfl rfl
  | read k =>
    have hreached := h.reached
    rw [hpc] at hreached
    have hlt : polled < used := by
      cases k with
      | pollUsed | recycleUsed => exact hreached
      | allocDesc => exact hreached.1
    refine ⟨s.recycle k, polled + 1, by rw [driverStep, hpc], h.recycle hpc, ?_⟩
    have hnew : pcWeight (s.recycle k) ≤ 10 := by
      cases k with
      | pollUsed => exact Nat.zero_le 10
      | recycleUsed | allocDesc => exact Nat.le_refl 10
    have hold : s.pcWeight = 9 := by rw [pcWeight, hpc]
    have hrest : (s.recycle k).weight used (polled + 1) = (s.recycle k).pcWeight +
        5 * (s.queued.length - s.seen.length) + 4 * s.held.length +
        3 * s.reported.toList.length + 2 * (used - (polled + 1)) := rfl
    rw [hrest, weight]
    omega
  | scan v =>
    cases hfree : firstFree s.inflight with
    | none =>
      refine ⟨{ s with pc := .poll (.allocDesc v) }, polled, ?_, h.spin hpc, ?_⟩
      · simp only [driverStep, hpc, hfree]
      · refine weight_lt ?_ rfl rfl rfl rfl
        simp [pcWeight, hpc, hfree]
    | some i =>
      refine ⟨s.own i v, polled, ?_, h.own hpc hfree, ?_⟩
      · simp only [driverStep, hpc, hfree]
      · have hold : s.pcWeight = 9 := by simp only [pcWeight, hpc, hfree]; rfl
        exact weight_lt (by rw [hold]; exact Nat.lt_succ_self 8) rfl rfl rfl rfl
  | desc i v =>
    refine ⟨s.writeDesc i v, polled, by rw [driverStep, hpc], h.writeDesc hpc, ?_⟩
    have hold : s.pcWeight = 8 := by rw [pcWeight, hpc]
    exact weight_lt (by rw [hold]; exact Nat.lt_succ_self 7) rfl rfl rfl rfl
  | ring i v =>
    refine ⟨s.writeRing i v, polled, by rw [driverStep, hpc], h.writeRing hpc, ?_⟩
    have hold : s.pcWeight = 7 := by rw [pcWeight, hpc]
    exact weight_lt (by rw [hold]; exact Nat.lt_succ_self 6) rfl rfl rfl rfl
  | publish i v =>
    refine ⟨s.publish i v, polled, by rw [driverStep, hpc], h.publish hpc, ?_⟩
    have hold : s.pcWeight = 6 := by rw [pcWeight, hpc]
    have hlength : (s.publish i v).queued.length = s.queued.length + 1 := length_append
    have hrest : (s.publish i v).weight used polled = 0 +
        5 * ((s.publish i v).queued.length - s.seen.length) + 4 * s.held.length +
        3 * s.reported.toList.length + 2 * (used - polled) := rfl
    rw [hrest, weight, hlength]
    omega

theorem Inv.device_advances (hnot : ¬ s.Drained) :
    ∃ e s' used', passed [e] = [] ∧ Virtq.step s e = some s' ∧ s'.Inv used' polled ∧
      s'.weight used' polled < s.weight used polled := by
  cases hreported : s.reported with
  | some id =>
    refine ⟨.used, s.showUsed id, used + 1, rfl, ?_, h.showUsed hreported, ?_⟩
    · show s.reported.map s.showUsed = _
      rw [hreported]
      rfl
    · have hle := h.polled_le
      have hrest : (s.showUsed id).weight (used + 1) polled = s.pcWeight +
          5 * (s.queued.length - s.seen.length) + 4 * s.held.length + 3 * 0 +
          2 * (used + 1 - polled) := rfl
      rw [hrest, weight, hreported, Option.toList_some, length_singleton]
      omega
  | none =>
    cases hheld : s.held with
    | cons id =>
      have hmem : id ∈ s.held := by rw [hheld]; exact mem_cons_self
      refine ⟨.report id 0, s.report id 0, used, rfl, ?_, h.report hmem hreported 0, ?_⟩
      · exact if_pos ⟨hmem, hreported⟩
      · have hrest : (s.report id 0).weight used polled = s.pcWeight +
            5 * (s.queued.length - s.seen.length) + 4 * (s.held.erase id).length + 3 * 1 +
            2 * (used - polled) := rfl
        rw [hrest, weight, hreported, hheld, erase_cons_head, length_cons]
        omega
    | nil =>
      have hlt : s.seen.length < s.queued.length := by
        rcases lt_or_ge s.seen.length s.queued.length with hlt | hge
        · exact hlt
        · exact absurd ⟨le_antisymm h.seen_le hge, hheld, hreported⟩ hnot
      have hne : s.devAvail ≠ s.q.availIdx := by
        have hcard := h.card_le
        have hsize : QSIZE = 16 := rfl
        rw [card_flight] at hcard
        rw [h.devAvail, h.availIdx]
        intro heq
        have := (ofNat_eq_iff h.seen_le (by omega)).mp heq.symm
        omega
      refine ⟨.take, s.takeEntry, used, rfl, if_neg hne, h.takeEntry hne, ?_⟩
      have hrest : s.takeEntry.weight used polled = s.pcWeight +
          5 * (s.queued.length - s.takeEntry.seen.length) + 4 * s.takeEntry.held.length +
          3 * s.reported.toList.length + 2 * (used - polled) := rfl
      have hseen : s.takeEntry.seen.length = s.seen.length + 1 := length_append
      have hheld' : s.takeEntry.held.length = s.held.length + 1 := length_append
      rw [hrest, weight, hseen, hheld']
      omega

theorem Inv.seen_of_caught_up (hcaught : s.devAvail = s.q.availIdx) :
    s.seen = s.queued.map fun pkt => some pkt.bytes := by
  have hcard := h.card_le
  have hsize : QSIZE = 16 := rfl
  rw [card_flight] at hcard
  rw [h.devAvail, h.availIdx] at hcaught
  have heq : s.queued.length = s.seen.length := (ofNat_eq_iff h.seen_le (by omega)).mp hcaught.symm
  have hseen := h.seen
  rw [← heq, take_length] at hseen
  exact hseen

/-- From every state the two sides can finish what has been passed, without another call. -/
theorem Inv.settles :
    ∃ events s', passed events = [] ∧ Virtq.run events s = some s' ∧ s'.pc = .idle ∧
      s'.devAvail = s'.q.availIdx := by
  induction hw : s.weight used polled using Nat.strong_induction_on
    generalizing s used polled with
  | _ w ih =>
    by_cases hdrained : s.Drained
    · by_cases hidle : s.pc = .idle
      · refine ⟨[], s, rfl, rfl, hidle, ?_⟩
        rw [h.devAvail, h.availIdx, hdrained.taken]
      · obtain ⟨s', polled', hstep, h', hlt⟩ := h.driver_advances hdrained hidle
        obtain ⟨events, s'', hpassed, hrun, hend⟩ := ih _ (hw ▸ hlt) h' rfl
        refine ⟨.driver :: events, s'', hpassed, ?_, hend⟩
        show (driverStep s).bind _ = _
        rw [hstep]
        exact hrun
    · obtain ⟨e, s', used', hcall, hstep, h', hlt⟩ := h.device_advances hdrained
      obtain ⟨events, s'', hpassed, hrun, hend⟩ := ih _ (hw ▸ hlt) h' rfl
      refine ⟨e :: events, s'', ?_, ?_, hend⟩
      · rw [passed_cons, hcall, hpassed]
        rfl
      · show (Virtq.step s e).bind _ = _
        rw [hstep]
        exact hrun

end

end State

/-! ### Exactly once -/

/-- In every run, from the set-up queue on: the packets passed are the packets queued and
the one in the driver's hands; the device has read the first of the queued ones, in
order and as they were passed, and all of them once it has caught up; a queued packet
keeps its slot, its descriptor and its buffer until the device shows it used; and the two
sides can always finish without another call. -/
theorem transmit_exactly_once {events : List Event} {s : State} (hrun : run events start = some s) :
    s.queued ++ s.pc.inHand = passed events ∧
    s.seen <+: s.queued.map (fun pkt => some pkt.bytes) ∧
    (s.devAvail = s.q.availIdx → s.seen = s.queued.map fun pkt => some pkt.bytes) ∧
    (∀ i v, s.live i = some v → s.Holds i v ∧ ∀ e s', step s e = some s' →
      s'.live i = some v ∨ (e = .used ∧ s.reported.map capId = some i)) ∧
    ∃ more s', passed more = [] ∧ run more s = some s' ∧ s'.pc = .idle ∧
      s'.seen = (passed events).map fun pkt => some pkt.bytes := by
  obtain ⟨used, polled, h⟩ := State.inv_start.run hrun
  have hpassed : s.accepted = passed events := State.run_accepted hrun
  refine ⟨hpassed, ?_, h.seen_of_caught_up, fun i v hlive => ⟨h.intact i v hlive,
    fun e s' hstep => h.live_step hlive hstep⟩, ?_⟩
  · rw [h.seen]
    exact ( take_prefix _ _).map _
  · obtain ⟨more, s', hmore, hrun', hidle, hcaught⟩ := h.settles
    obtain ⟨used', polled', h'⟩ := h.run hrun'
    refine ⟨more, s', hmore, hrun', hidle, ?_⟩
    have hall := State.run_accepted hrun'
    rw [hmore, hpassed, append_nil, State.accepted, hidle] at hall
    have hnone : Pc.idle.inHand = [] := rfl
    rw [h'.seen_of_caught_up hcaught, ← hall, hnone, append_nil]

def samplePacket : Packet := ⟨[1, 2, 3], by decide⟩

def sampleRun : List Event :=
  [.addOutOwned samplePacket, .driver, .driver, .driver, .driver, .driver, .take, .report 0 0,
    .used, .recycleUsed, .driver, .driver, .driver]

theorem transmit_exactly_once_sample :
    ∃ s, run sampleRun start = some s ∧ s.queued ++ s.pc.inHand = [samplePacket] ∧
      s.seen <+: s.queued.map fun pkt => some pkt.bytes := by
  obtain ⟨s, hrun⟩ : ∃ s, run sampleRun start = some s :=
    Option.isSome_iff_exists.mp (by decide +kernel)
  obtain ⟨hpassed, hseen, -⟩ := transmit_exactly_once hrun
  exact ⟨s, hrun, hpassed, hseen⟩

end Rustee.Virtq
