import Rustee.RustBytes
import Rustee.Limbs

/-!
# The big integers of `rustee-crypto` (`arith.rs`)

A big integer is a slice of words: the flags (bit 0 is the sign), the number of limbs and the
limbs, the lowest first; the limbs behind the number keep whatever was there. Functions write into
a destination their caller has sized, through scratch buffers of 130 words. An index out of range
is a panic; the loops over limbs are those of `Limbs`.
-/

namespace Rustee.Arith

open Limbs List

inductive ArithError where
  | badSize
  | shortBuffer
deriving Repr, DecidableEq

/-- A slice of at least two words: `op[0]`, `op[1]` and `op[2..]`. -/
structure BigInt where
  flags : UInt32
  length : UInt32
  limbs : List UInt32
deriving Repr, DecidableEq

abbrev Outcome := Fallible ArithError

def FLAG_NEG : UInt32 := 1

/-- `[0u32; words]` -/
def zeroed (words : Nat) : BigInt := ⟨0, 0, replicate (words - 2) 0⟩

def cap (op : BigInt) : Nat := op.limbs.length

def nlimbs (op : BigInt) : Outcome Nat :=
  if op.length.toNat ≤ cap op then .ok op.length.toNat else .err .badSize

/-- `nlimbs(op).unwrap_or(0)` -/
def nlimbsOrZero (op : BigInt) : Nat :=
  if op.length.toNat ≤ cap op then op.length.toNat else 0

def sign (op : BigInt) : UInt32 := op.flags &&& FLAG_NEG

def trim (op : BigInt) : Outcome BigInt :=
  match trimFrom op.limbs op.length.toNat with
  | none => .panic
  | some n => .ok ⟨if n = 0 then 0 else op.flags, UInt32.ofNat n, op.limbs⟩

def init (op : BigInt) : BigInt := ⟨0, 0, replicate (cap op) 0⟩

def cmpMag (a b : BigInt) : Int :=
  let la := nlimbsOrZero a
  let lb := nlimbsOrZero b
  if lb < la then 1 else if la < lb then -1 else cmpFrom a.limbs b.limbs la

def assign (dest src : BigInt) : BigInt :=
  ⟨src.flags, src.length,
    src.limbs.take (cap dest) ++ replicate (cap dest - cap src) 0⟩

def getBit (src : BigInt) (bit : Nat) : Bool :=
  decide (bit / 32 < nlimbsOrZero src) && (src.limbs.getD (bit / 32) 0).toNat.testBit (bit % 32)

/-- `32 - last.leading_zeros()` is the number of bits of `last`. -/
def getBitCount (src : BigInt) : Nat :=
  match (src.limbs.take (nlimbsOrZero src)).getLast? with
  | none => 0
  | some last => (nlimbsOrZero src - 1) * 32 + last.toNat.size

def setBit (op : BigInt) (bit : Nat) (v : Bool) : Outcome BigInt :=
  let i := bit / 32
  if cap op ≤ i then .ok op
  else if v then
    .ok { op with
      length := if op.length.toNat < i + 1 then UInt32.ofNat (i + 1) else op.length
      limbs := op.limbs.set i (op.limbs.getD i 0 ||| mask bit) }
  else if i < nlimbsOrZero op then
    trim { op with limbs := op.limbs.set i (op.limbs.getD i 0 &&& ~~~mask bit) }
  else .ok op

def shiftRight (dest src : BigInt) (bits : Nat) : Outcome BigInt :=
  let dest := assign dest src
  if bits = 0 then .ok dest
  else
    let words := bits / 32
    let rem := bits % 32
    let n := nlimbsOrZero dest
    if n ≤ words then .ok (init dest)
    else
      let limbs := (dest.limbs.take n).drop words
      trim ⟨dest.flags, UInt32.ofNat (n - words),
        (if 0 < rem then (shrBits rem limbs).1 else limbs) ++ replicate (cap dest - (n - words)) 0⟩

def addMag (dest a b : BigInt) : Outcome BigInt := do
  let la ← nlimbs a
  let lb ← nlimbs b
  let n := max la lb
  if cap dest < n + 1 then .err .badSize
  else
    let sum := addCarry n (a.limbs.take la) (b.limbs.take lb) 0
    .ok ⟨0, UInt32.ofNat (n + if sum.2 ≠ 0 then 1 else 0),
      sum.1 ++ UInt32.ofNat sum.2 :: dest.limbs.drop (n + 1)⟩

/-- The caller has `|a| ≥ |b|`. -/
def subMag (dest a b : BigInt) : Outcome BigInt := do
  let la ← nlimbs a
  let lb ← nlimbs b
  if cap dest < la then .panic
  else
    trim ⟨0, UInt32.ofNat la,
      (subBorrow la (a.limbs.take la) (b.limbs.take lb) 0).1 ++ dest.limbs.drop la⟩

/-- `let _ = ..`: an error leaves the destination as it was. -/
def discard (dest : BigInt) : Outcome BigInt → Outcome BigInt
  | .err _ => .ok dest
  | r => r

def isZero (op : BigInt) : Bool := nlimbsOrZero op == 0

def add (dest op1 op2 : BigInt) : Outcome BigInt := do
  let s1 := sign op1
  let s2 := sign op2
  if s1 = s2 then
    let d ← discard dest (addMag dest op1 op2)
    .ok { d with flags := if isZero d then 0 else s1 }
  else
    let c := cmpMag op1 op2
    if c = 0 then .ok (init dest)
    else if c = 1 then
      let d ← discard dest (subMag dest op1 op2)
      .ok { d with flags := s1 }
    else
      let d ← discard dest (subMag dest op2 op1)
      .ok { d with flags := s2 }

def sub (dest op1 op2 : BigInt) : Outcome BigInt :=
  let neg := assign (zeroed 130) op2
  add dest op1 (if isZero neg then neg else { neg with flags := neg.flags ^^^ FLAG_NEG })

def mul (dest op1 op2 : BigInt) : Outcome BigInt := do
  let la := nlimbsOrZero op1
  let lb := nlimbsOrZero op2
  match mulRows (op1.limbs.take la) (op2.limbs.take lb) (replicate (la + lb + 1) 0) with
  | none => .panic
  | some limbs =>
    let tmp ← trim ⟨(op1.flags ^^^ op2.flags) &&& FLAG_NEG, UInt32.ofNat (la + lb), limbs⟩
    .ok (assign dest tmp)

end Rustee.Arith
