import Rustee.VirtWire

/-!
# The entropy source of the virt HAL (`rustee-hal-virt/src/rng.rs`)

Bytes that the host's virtio-rng delivers are appended to a pool (`feed_rng`), and `fill` drains it
from the front. A `fill` that asks for more than the pool holds first posts a request; the
stand-in for the device that answers it is a linear congruential generator, compiled into the
guest as well. So the bytes handed out are the bytes fed, in order, in the runs in which no `fill`
finds the pool short.
-/

namespace Rustee.Virt

open List

structure VirtEntropy where
  pool : Bytes
  req : UInt32
deriving Repr, DecidableEq

namespace VirtEntropy

def new : VirtEntropy := ⟨[], 1⟩

/-- `complete`, which is all that `VirtHal::feed_rng` does. -/
def complete (bytes : Bytes) (e : VirtEntropy) : VirtEntropy := { e with pool := e.pool ++ bytes }

/-- The loop of `kick_request` over the bytes of its block. -/
def block : Nat → UInt32 → Bytes
  | 0, _ => []
  | n + 1, s =>
    let s := s * 1664525 + 1013904223
    (s >>> 24).toUInt8 :: block n s

def kickRequest (n : Nat) (e : VirtEntropy) : VirtEntropy :=
  let e := { e with req := e.req + 1 }
  e.complete (block n (e.req * 0x9e3779b9))

/-- `if buf.iter().all(|&b| b == 0) { buf[0] = 0xa5 }` -/
def fixUp (buf : Bytes) : Bytes := if buf.all (· == 0) then buf.set 0 0xa5 else buf

def fill (buf : Bytes) (e : VirtEntropy) : Bytes × VirtEntropy :=
  if buf.isEmpty then (buf, e)
  else
    let e := if e.pool.length < buf.length then e.kickRequest (max buf.length 32) else e
    let n := min buf.length e.pool.length
    (fixUp (e.pool.take n ++ buf.drop n), { e with pool := e.pool.drop n })

@[simp] theorem length_fixUp (buf : Bytes) : (fixUp buf).length = buf.length := by
  unfold fixUp
  split
  · exact length_set
  · rfl

theorem fill_of_le {buf : Bytes} {e : VirtEntropy} (h : buf.length ≤ e.pool.length) :
    e.fill buf = (fixUp (e.pool.take buf.length), { e with pool := e.pool.drop buf.length }) := by
  cases buf with
  | nil => rfl
  | cons b bs =>
    have hmin : min (b :: bs).length e.pool.length = (b :: bs).length := Nat.min_eq_left h
    simp only [fill, isEmpty_cons, Bool.false_eq_true, if_false, if_neg (Nat.not_lt.mpr h),
      hmin, drop_length, append_nil]

end VirtEntropy

/-! ### Runs -/

inductive EntropyOp where
  | feedRng (bytes : Bytes)
  | fill (buf : Bytes)
deriving Repr, DecidableEq

namespace VirtEntropy

/-- What the operations hand out, one buffer for each `fill`, and the state they leave. -/
def run : List EntropyOp → VirtEntropy → List Bytes × VirtEntropy
  | [], e => ([], e)
  | .feedRng bytes :: ops, e => run ops (e.complete bytes)
  | .fill buf :: ops, e =>
    let (out, e) := e.fill buf
    let (outs, e) := run ops e
    (out :: outs, e)

def fed : List EntropyOp → Bytes
  | [] => []
  | .feedRng bytes :: ops => bytes ++ fed ops
  | .fill _ :: ops => fed ops

/-- The buffers are, up to the fix-up of an all-zero one, consecutive pieces of `bytes`
from its start. -/
def DrawnFrom (outs : List Bytes) (bytes : Bytes) : Prop :=
  ∃ chunks : List Bytes, outs = chunks.map fixUp ∧ chunks.flatten <+: bytes

def Covers (e : VirtEntropy) : EntropyOp → Prop
  | .feedRng _ => True
  | .fill buf => buf.length ≤ e.pool.length

def Stocked : List EntropyOp → VirtEntropy → Prop
  | [], _ => True
  | op :: ops, e => e.Covers op ∧ Stocked ops (run [op] e).2

theorem run_cons (op : EntropyOp) (ops : List EntropyOp) (e : VirtEntropy) :
    run (op :: ops) e = ((run [op] e).1 ++ (run ops (run [op] e).2).1,
      (run ops (run [op] e).2).2) := by
  cases op with
  | feedRng | fill => rfl

theorem fed_cons (op : EntropyOp) (ops : List EntropyOp) :
    fed (op :: ops) = fed [op] ++ fed ops := by
  cases op with
  | feedRng => simp only [fed, append_nil]
  | fill => rfl

variable {e : VirtEntropy}

/-- One step: what was in the pool and what is supplied is what is handed out and what
stays in the pool. -/
theorem step_conserves {op : EntropyOp} (h : e.Covers op) :
    ∃ chunks : List Bytes, (run [op] e).1 = chunks.map fixUp ∧
      e.pool ++ fed [op] = chunks.flatten ++ (run [op] e).2.pool := by
  cases op with
  | feedRng => exact ⟨[], rfl, by simp only [fed, run, complete, flatten_nil,
      append_nil, nil_append]⟩
  | fill buf =>
    refine ⟨[e.pool.take buf.length], ?_, ?_⟩
    · simp only [run, fill_of_le h, map_cons, map_nil]
    · simp only [run, fill_of_le h, fed, append_nil, flatten_cons, flatten_nil, take_append_drop]

theorem run_conserves {ops : List EntropyOp} (h : Stocked ops e) :
    ∃ chunks : List Bytes, (run ops e).1 = chunks.map fixUp ∧
      e.pool ++ fed ops = chunks.flatten ++ (run ops e).2.pool := by
  induction ops generalizing e with
  | nil => exact ⟨[], rfl, by simp only [fed, run, flatten_nil, append_nil, nil_append]⟩
  | cons op ops ih =>
    obtain ⟨hcovers, hrest⟩ := h
    obtain ⟨first, houts, hpool⟩ := step_conserves hcovers
    obtain ⟨others, houts', hpool'⟩ := ih hrest
    refine ⟨first ++ others, ?_, ?_⟩
    · rw [run_cons, houts, houts', map_append]
    · rw [run_cons, fed_cons, ← append_assoc, hpool, append_assoc, hpool',
        flatten_append, append_assoc]

theorem Stocked.of_initial {ops done : List EntropyOp} (h : Stocked ops e)
    (hdone : done <+: ops) : Stocked done e := by
  induction done generalizing ops e with
  | nil => trivial
  | cons op done ih =>
    obtain ⟨rest, rfl⟩ := hdone
    exact ⟨h.1, ih h.2 ⟨rest, rfl⟩⟩

/-- In a run in which no `fill` finds the pool short, what has been handed out at any
point comes from what has been fed by then, each byte once and in order. -/
theorem fills_drawn_from_fed {ops : List EntropyOp} (h : Stocked ops new) {done : List EntropyOp}
    (hdone : done <+: ops) : DrawnFrom (run done new).1 (fed done) := by
  obtain ⟨chunks, houts, hpool⟩ := run_conserves (h.of_initial hdone)
  refine ⟨chunks, houts, (run done new).2.pool, ?_⟩
  rw [← hpool]
  rfl

/-- The 64 bytes that `rust_main` feeds, drawn as two keys of 32 bytes. -/
theorem fills_drawn_from_fed_keys :
    DrawnFrom (run [.feedRng (replicate 64 7), .fill (replicate 32 0),
        .fill (replicate 32 0)] new).1
      (fed [.feedRng (replicate 64 7), .fill (replicate 32 0),
        .fill (replicate 32 0)]) := by
  have hstocked : Stocked [.feedRng (replicate 64 7), .fill (replicate 32 0),
      .fill (replicate 32 0)] new := by
    refine ⟨trivial, ?_, ?_, trivial⟩
    · show 32 ≤ 64
      decide
    · show 32 ≤ 32
      decide
  exact fills_drawn_from_fed hstocked (prefix_refl _)

/-- After the same 64 bytes a third key is handed out all the same. -/
theorem third_key_not_drawn_from_fed :
    ¬ DrawnFrom (run [.feedRng (replicate 64 7), .fill (replicate 32 0),
        .fill (replicate 32 0), .fill (replicate 32 0)] new).1
      (fed [.feedRng (replicate 64 7), .fill (replicate 32 0),
        .fill (replicate 32 0), .fill (replicate 32 0)]) := by
  rintro ⟨chunks, houts, hstart⟩
  -- three buffers of 32 bytes are 96 bytes, and a prefix of what was fed has at most 64
  have hlengths : chunks.map length = [32, 32, 32] := by
    have h := congrArg (map length) houts
    rw [map_map] at h
    have hfix : (length ∘ fixUp) = (length : Bytes → Nat) :=
      funext fun buf => length_fixUp buf
    rw [hfix] at h
    rw [← h]
    decide +kernel
  have hle := hstart.length_le
  rw [length_flatten, hlengths] at hle
  exact absurd hle (by decide +kernel)

end VirtEntropy

end Rustee.Virt
