import Rustee.Ring
import Rustee.VirtWire

/-!
# The transmit queue of the guest and the device at its other end

`Virtq` in `virtio.rs`.

Driver and device share a split queue: a table of descriptors, a ring of available ones, written
by the driver, and a ring of used ones, written by the device. A step is one access to the shared
memory, and the steps of the two sides interleave in any order. `add_out_owned` keeps the packet
in `bufs` until its slot is used again, and `poll_used` makes a slot free.

The last fields of the state are history: what was queued, what the device read, and which packet
each descriptor carries until the device shows it used.
-/

namespace Rustee.Virtq

open Virt (Bytes)

/-! ### The shared memory -/

def QSIZE : Nat := 16

instance : NeZero QSIZE := ⟨by decide⟩

/-- RAM is 256 MiB, and so is the heap at most (`link.ld`). -/
def RAM_SIZE : Nat := 0x10000000

abbrev Ptr := Nat

/-- The content of a `Vec<u8>` on the guest's heap. -/
structure Packet where
  bytes : Bytes
  length_le : bytes.length ≤ RAM_SIZE
deriving DecidableEq

/-- A `Vec<u8>`: where it lies and what was put into it. -/
structure Vec where
  ptr : Ptr
  pkt : Packet
deriving DecidableEq

structure Desc where
  addr : Ptr
  len : UInt32
  flags : UInt16
  next : UInt16
deriving Repr, DecidableEq

structure UsedElem where
  id : UInt32
  len : UInt32
deriving Repr, DecidableEq

/-- `SplitQ`, without the flag words that neither side reads here. -/
structure SplitQ where
  desc : Fin QSIZE → Desc
  availIdx : UInt16
  availRing : Fin QSIZE → UInt16
  usedIdx : UInt16
  usedRing : Fin QSIZE → UsedElem

/-- `id % QSIZE` and `idx % QSIZE` -/
def capId (id : UInt16) : Fin QSIZE := Ring.slot QSIZE id.toNat

/-! ### The driver -/

/-- Who called `poll_used`. -/
inductive Caller where
  | pollUsed
  | recycleUsed
  | allocDesc (v : Vec)
deriving DecidableEq

/-- Where the driver is. -/
inductive Pc where
  | idle
  /-- `poll_used`, before it compares `used_idx` with `last_used` -/
  | poll (k : Caller)
  /-- `poll_used`, before it reads the used element -/
  | read (k : Caller)
  /-- `alloc_desc`, before the search for a free descriptor -/
  | scan (v : Vec)
  /-- `add_out`, before the write of the descriptor -/
  | desc (id : Fin QSIZE) (v : Vec)
  /-- `add_out`, before the write of the ring -/
  | ring (id : Fin QSIZE) (v : Vec)
  /-- `add_out`, before the write of `avail_idx` -/
  | publish (id : Fin QSIZE) (v : Vec)
deriving DecidableEq

/-- `poll_used` returned `None`. -/
def Caller.onNone : Caller → Pc
  | .pollUsed => .idle
  | .recycleUsed => .idle
  | .allocDesc v => .scan v

/-- `poll_used` returned `Some`; the loop of `recycle_used` goes round again. -/
def Caller.onSome : Caller → Pc
  | .pollUsed => .idle
  | .recycleUsed => .poll .recycleUsed
  | .allocDesc v => .poll (.allocDesc v)

/-- The driver's `Virtq`, the heap, the device and what has happened so far. -/
structure State where
  q : SplitQ
  lastUsed : UInt16
  bufs : Fin QSIZE → Option Vec
  inflight : Fin QSIZE → Bool
  pc : Pc
  /-- the heap blocks that are live -/
  heap : Ptr → Option Bytes
  next : Ptr
  /-- the device's own available index -/
  devAvail : UInt16
  /-- descriptors the device has taken and not reported -/
  held : List UInt16
  /-- a used element is written, and `used_idx` does not show it yet -/
  reported : Option UInt16
  /-- the packets made available, in order -/
  queued : List Packet
  /-- what the device read when it took an entry -/
  seen : List (Option Bytes)
  /-- for each descriptor the packet that is queued there and not reported used -/
  live : Fin QSIZE → Option Vec

/-- `for i in 0..QSIZE { if !self.inflight[i] { return Some(i) } }` -/
def firstFree (inflight : Fin QSIZE → Bool) : Option (Fin QSIZE) :=
  (List.finRange QSIZE).find? fun i => !inflight i

/-- Dropping the `Vec` that a slot held. -/
def dropOld (heap : Ptr → Option Bytes) : Option Vec → Ptr → Option Bytes
  | none => heap
  | some old => Function.update heap old.ptr none

/-- The descriptor that `add_out` writes. -/
def Vec.desc (v : Vec) : Desc := ⟨v.ptr, UInt32.ofNat v.pkt.bytes.length, 0, 0⟩

namespace State

/-- `poll_used`: the used element is read and its descriptor is free again. -/
def recycle (s : State) (k : Caller) : State :=
  let e := s.q.usedRing (capId s.lastUsed)
  { s with
    lastUsed := s.lastUsed + 1
    inflight := Function.update s.inflight (capId e.id.toUInt16) false
    pc := k.onSome }

/-- `add_out_owned`: the packet moves into the slot, and what the slot held is dropped. -/
def own (s : State) (id : Fin QSIZE) (v : Vec) : State :=
  { s with
    bufs := Function.update s.bufs id (some v)
    inflight := Function.update s.inflight id true
    heap := dropOld s.heap (s.bufs id)
    pc := .desc id v }

/-- `q.desc[id] = Desc { .. }` -/
def writeDesc (s : State) (id : Fin QSIZE) (v : Vec) : State :=
  { s with
    q := { s.q with desc := Function.update s.q.desc id v.desc }
    pc := .ring id v }

/-- `q.avail_ring[idx % QSIZE] = id` -/
def writeRing (s : State) (id : Fin QSIZE) (v : Vec) : State :=
  { s with
    q := { s.q with
      availRing := Function.update s.q.availRing (capId s.q.availIdx) (UInt16.ofNat id.val) }
    pc := .publish id v }

/-- `q.avail_idx = idx.wrapping_add(1)` -/
def publish (s : State) (id : Fin QSIZE) (v : Vec) : State :=
  { s with
    q := { s.q with availIdx := s.q.availIdx + 1 }
    pc := .idle
    queued := s.queued ++ [v.pkt]
    live := Function.update s.live id (some v) }

end State

def driverStep (s : State) : Option State :=
  match s.pc with
  | .idle => none
  | .poll k =>
    if s.q.usedIdx = s.lastUsed then some { s with pc := k.onNone }
    else some { s with pc := .read k }
  | .read k => some (s.recycle k)
  | .scan v =>
    match firstFree s.inflight with
    | none => some { s with pc := .poll (.allocDesc v) }
    | some id => some (s.own id v)
  | .desc id v => some (s.writeDesc id v)
  | .ring id v => some (s.writeRing id v)
  | .publish id v => some (s.publish id v)

/-- What the driver can do, one case for each access. -/
inductive DriverMove (s : State) : State → Prop where
  | pollNone {k} (hpc : s.pc = .poll k) (heq : s.q.usedIdx = s.lastUsed) :
      DriverMove s { s with pc := k.onNone }
  | pollSome {k} (hpc : s.pc = .poll k) (hne : s.q.usedIdx ≠ s.lastUsed) :
      DriverMove s { s with pc := .read k }
  | recycle {k : Caller} (hpc : s.pc = .read k) : DriverMove s (s.recycle k)
  | spin {v} (hpc : s.pc = .scan v) (hfree : firstFree s.inflight = none) :
      DriverMove s { s with pc := .poll (.allocDesc v) }
  | own {v i} (hpc : s.pc = .scan v) (hfree : firstFree s.inflight = some i) :
      DriverMove s (s.own i v)
  | writeDesc {i : Fin QSIZE} {v : Vec} (hpc : s.pc = .desc i v) : DriverMove s (s.writeDesc i v)
  | writeRing {i : Fin QSIZE} {v : Vec} (hpc : s.pc = .ring i v) : DriverMove s (s.writeRing i v)
  | publish {i : Fin QSIZE} {v : Vec} (hpc : s.pc = .publish i v) : DriverMove s (s.publish i v)

theorem driverMove_of_step {s s' : State} (hstep : driverStep s = some s') : DriverMove s s' := by
  rw [driverStep] at hstep
  split at hstep
  · cases hstep
  · rename_i k hpc
    split at hstep
    · rename_i heq
      cases hstep
      exact .pollNone hpc heq
    · rename_i hne
      cases hstep
      exact .pollSome hpc hne
  · rename_i k hpc
    cases hstep
    exact .recycle hpc
  · rename_i v hpc
    split at hstep
    · rename_i hfree
      cases hstep
      exact .spin hpc hfree
    · rename_i i hfree
      cases hstep
      exact .own hpc hfree
  · rename_i i v hpc
    cases hstep
    exact .writeDesc hpc
  · rename_i i v hpc
    cases hstep
    exact .writeRing hpc
  · rename_i i v hpc
    cases hstep
    exact .publish hpc

/-! ### The device -/

def readBuf (heap : Ptr → Option Bytes) (d : Desc) : Option Bytes :=
  (heap d.addr).map fun bytes => bytes.take d.len.toNat

namespace State

def takeEntry (s : State) : State :=
  let id := s.q.availRing (capId s.devAvail)
  { s with
    devAvail := s.devAvail + 1
    held := s.held ++ [id]
    seen := s.seen ++ [readBuf s.heap (s.q.desc (capId id))] }

def report (s : State) (id : UInt16) (len : UInt32) : State :=
  { s with
    q := { s.q with
      usedRing := Function.update s.q.usedRing (capId s.q.usedIdx) ⟨id.toUInt32, len⟩ }
    held := s.held.erase id
    reported := some id }

def showUsed (s : State) (id : UInt16) : State :=
  { s with
    q := { s.q with usedIdx := s.q.usedIdx + 1 }
    reported := none
    live := Function.update s.live (capId id) none }

end State

/-! ### Runs -/

inductive Event where
  | pollUsed
  | recycleUsed
  | addOutOwned (pkt : Packet)
  | driver
  | take
  | report (id : UInt16) (len : UInt32)
  | used
deriving DecidableEq

/-- A call enters the driver when it is idle; the packet passed to `add_out_owned` is a
block of its own. The device takes what is available and reports what it holds, one
element at a time. -/
def step (s : State) : Event → Option State
  | .pollUsed => if s.pc = .idle then some { s with pc := .poll .pollUsed } else none
  | .recycleUsed => if s.pc = .idle then some { s with pc := .poll .recycleUsed } else none
  | .addOutOwned pkt =>
    if s.pc = .idle then
      some { s with
        heap := Function.update s.heap s.next (some pkt.bytes)
        next := s.next + 1
        pc := .poll (.allocDesc ⟨s.next, pkt⟩) }
    else none
  | .driver => driverStep s
  | .take => if s.devAvail = s.q.availIdx then none else some s.takeEntry
  | .report id len => if id ∈ s.held ∧ s.reported = none then some (s.report id len) else none
  | .used => s.reported.map s.showUsed

/-- What a step can be, one case for each event. -/
inductive Move (s : State) : Event → State → Prop where
  | pollUsed (hpc : s.pc = .idle) : Move s .pollUsed { s with pc := .poll .pollUsed }
  | recycleUsed (hpc : s.pc = .idle) : Move s .recycleUsed { s with pc := .poll .recycleUsed }
  | addOutOwned (hpc : s.pc = .idle) (pkt : Packet) :
      Move s (.addOutOwned pkt) { s with
        heap := Function.update s.heap s.next (some pkt.bytes)
        next := s.next + 1
        pc := .poll (.allocDesc ⟨s.next, pkt⟩) }
  | driver {s' : State} (hdriver : driverStep s = some s') : Move s .driver s'
  | take (hne : s.devAvail ≠ s.q.availIdx) : Move s .take s.takeEntry
  | report {id} (hheld : id ∈ s.held) (hreported : s.reported = none) (len : UInt32) :
      Move s (.report id len) (s.report id len)
  | used {id : UInt16} (hreported : s.reported = some id) : Move s .used (s.showUsed id)

theorem move_of_step {s s' : State} {e : Event} (hstep : step s e = some s') : Move s e s' := by
  cases e with
  | pollUsed =>
    obtain ⟨hpc, ⟨⟩⟩ := Option.ite_none_right_eq_some.mp hstep
    exact .pollUsed hpc
  | recycleUsed =>
    obtain ⟨hpc, ⟨⟩⟩ := Option.ite_none_right_eq_some.mp hstep
    exact .recycleUsed hpc
  | addOutOwned pkt =>
    obtain ⟨hpc, ⟨⟩⟩ := Option.ite_none_right_eq_some.mp hstep
    exact .addOutOwned hpc pkt
  | driver => exact .driver hstep
  | take =>
    obtain ⟨hne, ⟨⟩⟩ := Option.ite_none_left_eq_some.mp hstep
    exact .take hne
  | report id len =>
    obtain ⟨⟨hheld, hreported⟩, ⟨⟩⟩ := Option.ite_none_right_eq_some.mp hstep
    exact .report hheld hreported len
  | used =>
    obtain ⟨id, hreported, rfl⟩ := Option.map_eq_some_iff.mp hstep
    exact .used hreported

def run : List Event → State → Option State
  | [], s => some s
  | e :: es, s => (step s e).bind (run es)

/-- `setup_queue`: the queue is zeroed and nothing is in flight. -/
def start : State where
  q := ⟨fun _ => ⟨0, 0, 0, 0⟩, 0, fun _ => 0, 0, fun _ => ⟨0, 0⟩⟩
  lastUsed := 0
  bufs := fun _ => none
  inflight := fun _ => false
  pc := .idle
  heap := fun _ => none
  next := 0
  devAvail := 0
  held := []
  reported := none
  queued := []
  seen := []
  live := fun _ => none

/-- The packets that were passed to `add_out_owned`. -/
def passed : List Event → List Packet
  | [] => []
  | .addOutOwned pkt :: es => pkt :: passed es
  | _ :: es => passed es

/-- The packet of the call of `add_out_owned` that is not finished. -/
def Pc.inHand : Pc → List Packet
  | .poll (.allocDesc v) => [v.pkt]
  | .read (.allocDesc v) => [v.pkt]
  | .scan v => [v.pkt]
  | .desc _ v => [v.pkt]
  | .ring _ v => [v.pkt]
  | .publish _ v => [v.pkt]
  | _ => []

end Rustee.Virtq
