import Rustee.StorageHostile

/-!
# Reading, writing and truncating a handle's bytes

`read` and `truncate` compare before they add. `write` adds offset and length first, so an end that
does not fit 64 bits panics in a checked build, and in a release build wraps to a number that may
pass the check.
-/

namespace Rustee.Storage

open Attempt Fallible List

variable {ε φ : Type}

/-- The file system answers every call, and none of its answers to `create`, the last
thing a store tries, is the `TooBig` of the store itself. -/
structure FsRpc.Plain (F : FsRpc φ) : Prop extends F.Answers where
  small : ∀ path data fs, (F.create path data fs).1 ≠ .err .tooBig

/-- The bytes of a handle as a sparse byte array: `write` and `truncate` refuse exactly
what ends past the maximum and leave the handle alone then, none of the three
panics, and what was written is read back. -/
def StreamExact (P : Platform ε φ) (h : ObjectHandle) (off : UInt64) (buf : Bytes) (size : UInt64)
    (s : ReeFs ε φ) : Prop :=
  let stop := off.toNat + buf.length
  let r := write P h off buf s
  let t := truncate P h size s
  (r.1 = .err .tooBig ↔ MAX_OBJECT < stop) ∧ (MAX_OBJECT < stop → r.2.1 = h) ∧ r.1 ≠ .panic ∧
  (stop ≤ MAX_OBJECT → r.2.1.data = splice h.data off.toNat buf ∧ read r.2.1 off buf.length = buf) ∧
  (t.1 = .err .tooBig ↔ MAX_OBJECT < size.toNat) ∧ t.1 ≠ .panic ∧
  (size.toNat ≤ MAX_OBJECT → t.2.1.data = resize h.data size.toNat) ∧
  ∀ n, (read h off n).length = min n (h.data.length - off.toNat) ∧
    read h off n = (h.data.drop off.toNat).take n

theorem read_eq (h : ObjectHandle) (off : UInt64) (n : Nat) :
    read h off n = (h.data.drop off.toNat).take n := by
  rw [read]
  split
  · rename_i hgt
    rw [drop_of_length_le (Nat.le_of_lt hgt), take_nil]
  · rw [← length_drop, take_eq_take_iff]
    omega

theorem take_drop_splice (data : Bytes) (off : Nat) (buf : Bytes) :
    ((splice data off buf).drop off).take buf.length = buf := by
  have hgrown : off ≤ (if off + buf.length > data.length then resize data (off + buf.length)
      else data).length := by
    split
    · rw [length_resize]
      omega
    · omega
  simp only [splice, append_assoc]
  rw [drop_left' (by rw [length_take]; omega), take_left' rfl]

section Storing

variable {P : Platform ε φ} (hfs : P.fs.Plain)
include hfs

theorem raises_putFile (path : Path) (blob : Bytes) :
    Raises (· ≠ .tooBig) (putFile P path blob) := by
  intro s e herr heq
  subst heq
  rw [putFile, orElse] at herr
  rcases hrun : onFs (P.fs.write path blob) s with ⟨r, s'⟩
  rw [hrun] at herr
  cases r with
  | ok | panic => cases herr
  | err => exact hfs.small path blob s'.fs herr

theorem storeHandle_raises (h : ObjectHandle) : Raises (· ≠ .tooBig) (storeHandle P h) := by
  have hstore : ∀ entries files, Raises (· ≠ .tooBig) (storeDirFull P h.ta entries files) :=
    fun entries files s => raises_putFile hfs _ _ _
  apply Raises.bind (fun s => raises_putFile hfs _ _ _)
  intro _
  rw [upsertDir]
  refine Raises.bind (fun s => errors_toOption _) fun dir => ?_
  simp only
  split
  · rename_i i _
    -- a place that is there or a panic
    have hindex : ∀ {α : Type} (v : List α), (index v i).Errors (· ≠ .tooBig) := by
      intro α v
      rw [index]
      split
      · exact errors_ok _
      · rintro _ ⟨⟩
    have hassign : ∀ {α : Type} (v : List α) (a : α), (assign v i a).Errors (· ≠ .tooBig) := by
      intro α v a
      rw [assign]
      split
      · exact errors_ok _
      · rintro _ ⟨⟩
    refine Raises.bind (fun _ => hindex _) fun e => ?_
    refine Raises.bind (fun _ => hassign _ _) fun entries => ?_
    refine Raises.bind (fun _ => hassign _ _) fun files => ?_
    exact hstore entries files
  · exact hstore _ _

theorem storeHandle_ne_panic (h : ObjectHandle) (s : ReeFs ε φ) : (storeHandle P h s).1 ≠ .panic :=
  (quiet_walk hfs.toAnswers h.ta).storeHandle rfl trivial s

theorem through_ok {h h' : ObjectHandle} {edit : Fallible StorageError ObjectHandle}
    (hedit : edit = .ok h') (s : ReeFs ε φ) :
    (through P h edit s).1 ≠ .err .tooBig ∧ (through P h edit s).1 ≠ .panic ∧
      (through P h edit s).2.1 = h' := by
  subst hedit
  exact ⟨fun herr => storeHandle_raises hfs h' s _ herr rfl, storeHandle_ne_panic hfs h' s, rfl⟩

end Storing

theorem err_of_bind_ok {α β : Type} {x : Fallible StorageError α} {f : α → β} {e : StorageError}
    (h : (x >>= fun a => .ok (f a)) = .err e) : x = .err e := by
  cases x with
  | ok | panic => cases h
  | err =>
    cases h
    rfl

/-- **The arithmetic of the data stream is exact exactly when the end of the write fits
64 bits**, or wraps, in a release build, to a number that is too big itself. -/
theorem stream_exact_iff {P : Platform ε φ} (hfs : P.fs.Plain) (h : ObjectHandle) (off : UInt64)
    (buf : Bytes) (size : UInt64) (s : ReeFs ε φ) :
    StreamExact P h off buf size s ↔ off.toNat + buf.length < 2 ^ 64 ∨
      P.build = .release ∧ MAX_OBJECT < (off.toNat + buf.length) % 2 ^ 64 := by
  have hread : ∀ n, (read h off n).length = min n (h.data.length - off.toNat) ∧
      read h off n = (h.data.drop off.toNat).take n := by
    intro n
    rw [read_eq]
    simp
  have htruncate : ((truncate P h size s).1 = .err .tooBig ↔ MAX_OBJECT < size.toNat) ∧
      (truncate P h size s).1 ≠ .panic ∧ (size.toNat ≤ MAX_OBJECT →
        (truncate P h size s).2.1.data = resize h.data size.toNat) := by
    by_cases hbig : MAX_OBJECT < size.toNat
    · have hedit : truncateEdit h size = .err .tooBig := if_pos hbig
      simp [truncate, through, hedit, hbig, Nat.not_le.mpr hbig]
    · obtain ⟨hsmall, hquiet, hh⟩ := through_ok (h := h) hfs
        (show truncateEdit h size = .ok _ from if_neg hbig) s
      exact ⟨iff_of_false hsmall hbig, hquiet, fun _ => congrArg ObjectHandle.data hh⟩
  by_cases hle : off.toNat + buf.length ≤ MAX_OBJECT
  · have hfits : off.toNat + buf.length < 2 ^ 64 := by
      rw [MAX_OBJECT] at hle
      omega
    obtain ⟨hsmall, hquiet, hh⟩ := through_ok (h := h) hfs (writeEdit_of_le P h hle) s
    refine iff_of_true ⟨iff_of_false ?_ (Nat.not_lt.mpr hle), fun hgt => ?_, ?_, fun _ => ?_,
      htruncate.1, htruncate.2.1, htruncate.2.2, hread⟩ (Or.inl hfits)
    · rw [write]
      exact fun herr => hsmall (err_of_bind_ok herr)
    · exact absurd hgt (Nat.not_lt.mpr hle)
    · exact Fallible.bind_ne_panic hquiet fun _ _ => by simp
    · rw [read_eq, write, hh]
      exact ⟨rfl, take_drop_splice _ _ _⟩
  · have hgt : MAX_OBJECT < off.toNat + buf.length := Nat.lt_of_not_le hle
    rcases writeEdit_of_gt P h hgt with ⟨⟨-, hbig⟩, hedit⟩ | ⟨hbig, hedit⟩
    · have hwrite : write P h off buf s = (.err .tooBig, h, s) := by
        simp only [write, through, hedit, err_bind]
      refine iff_of_true ?_ hbig
      rw [StreamExact, hwrite]
      exact ⟨iff_of_true rfl hgt, fun _ => rfl, by simp, fun h' => absurd h' hle,
        htruncate.1, htruncate.2.1, htruncate.2.2, hread⟩
    · have hwrite : (write P h off buf s).1 = .panic := by
        simp only [write, through, hedit, panic_bind]
      refine iff_of_false ?_ (fun hfit => hbig ⟨hgt, hfit⟩)
      rintro ⟨-, -, hquiet, -⟩
      exact hquiet hwrite

theorem memFs_plain : memFs.Plain :=
  ⟨memFs_answers, fun _ _ _ => by simp [memFs]⟩

/-- Three bytes are written at the end of two. -/
theorem stream_exact_iff_sample :
    StreamExact (samplePlatform memFs) ⟨sampleTa, Block.zero 16, ascii "a", 0, [0, 0], 1⟩ 2
      [1, 2, 3] 1 emptyStore :=
  (stream_exact_iff memFs_plain _ _ _ _ _).mpr (Or.inl (by decide))

/-- Two bytes at the last offset: a panic in either build. -/
theorem last_offset_panics :
    let h : ObjectHandle := ⟨sampleTa, Block.zero 16, ascii "a", 0, [0, 0], 1⟩
    (write ((samplePlatform memFs).inBuild .debug) h 0xFFFFFFFFFFFFFFFF [1, 2] emptyStore).1 =
      .panic ∧
    (write ((samplePlatform memFs).inBuild .release) h 0xFFFFFFFFFFFFFFFF [1, 2] emptyStore).1 =
      .panic := by
  decide +kernel

end Rustee.Storage
