import Rustee.StorageRpcFs

/-!
# The loop that reads a file, over any client

The loop ends at a count below 4096 and asks on otherwise, whatever chunk came with the count. A
client that counts 4096 bytes and sends none is asked forever; one that never stops sending fills
the result without a bound.
-/

namespace Rustee.Storage

open Attempt RpcFs List

variable {γ : Type} {fd : UInt32}

/-- The RPC of one round of the loop of `read`. -/
def askChunk (C : FsClient γ) (fd : UInt32) (out : Bytes) :
    Attempt γ StorageError (UInt32 × Bytes) :=
  C.rpcFs RPC_FS_READ [] fd (UInt32.ofNat out.length) (replicate CHUNK 0)

/-- The states in which a round of the loop starts. -/
inductive Reads (C : FsClient γ) (fd : UInt32) (g₀ : γ) : Bytes → γ → Prop where
  | start : Reads C fd g₀ [] g₀
  | next {out chunk : Bytes} {g g' : γ} {n : UInt32} : Reads C fd g₀ out g →
      askChunk C fd out g = (.ok (n, chunk), g') → ¬ n.toNat < CHUNK →
      Reads C fd g₀ (out ++ chunk) g'

/-- Reading `path` takes finitely many RPCs, each round of the loop ends it or makes the
result longer, and the result never exceeds 2^32 bytes. -/
def ReadEnds (C : FsClient γ) (path : Path) (g : γ) : Prop :=
  (∃ fuel, (RpcFs.read C fuel path g).1 ≠ .panic) ∧
  ∀ fd reply g₀, C.rpcFs RPC_FS_OPEN path 0 0 [] g = (.ok (fd, reply), g₀) →
    ∀ out g₁, Reads C fd g₀ out g₁ → ∀ n chunk g₂, askChunk C fd out g₁ = (.ok (n, chunk), g₂) →
      (n.toNat < CHUNK ∨ out.length < (out ++ chunk).length) ∧ (out ++ chunk).length ≤ 2 ^ 32

/-- No answer in the loop counts a full chunk and sends nothing, and the chunks sent fit
2^32 bytes. -/
def SendsChunks (C : FsClient γ) (path : Path) (g : γ) : Prop :=
  ∀ fd reply g₀, C.rpcFs RPC_FS_OPEN path 0 0 [] g = (.ok (fd, reply), g₀) →
    ∀ out g₁, Reads C fd g₀ out g₁ → ∀ n chunk g₂, askChunk C fd out g₁ = (.ok (n, chunk), g₂) →
      (n.toNat < CHUNK ∨ chunk ≠ []) ∧ out.length + chunk.length ≤ 2 ^ 32

section Loop

variable {C : FsClient γ}
  (hquiet : ∀ op name fd off data g, (C.rpcFs op name fd off data g).1 ≠ .panic)
include hquiet

/-- A loop whose rounds add to a result that stays within 2^32 bytes has ended after as
many rounds as there is room. -/
theorem readLoop_ne_panic {g0 : γ} (hrounds : ∀ out g1, Reads C fd g0 out g1 → ∀ n chunk g2,
      askChunk C fd out g1 = (.ok (n, chunk), g2) →
      (n.toNat < CHUNK ∨ chunk ≠ []) ∧ out.length + chunk.length ≤ 2 ^ 32)
    (fuel : Nat) {out : Bytes} {g : γ} (hreads : Reads C fd g0 out g)
    (hout : out.length ≤ 2 ^ 32) (hfuel : 2 ^ 32 < out.length + fuel) :
    (readLoop C fd fuel out g).1 ≠ .panic := by
  -- on the fuel: a round that goes on uses one and adds at least one byte
  induction fuel generalizing out g with
  | zero => omega
  | succ fuel ih =>
    rw [readLoop]
    apply bind_ne_panic (hquiet _ _ _ _ _ _)
    rintro ⟨n, chunk⟩ g' hask
    obtain ⟨hgrows, hfits⟩ := hrounds out g hreads n chunk g' hask
    simp only
    split
    · simp
    · rename_i hmore
      have hpos := length_pos_of_ne_nil (hgrows.resolve_left hmore)
      apply ih (hreads.next hask hmore)
      · rw [length_append]
        omega
      · rw [length_append]
        omega

theorem closing_ne_panic {α : Type} {body : Attempt γ StorageError α} {g : γ}
    (hbody : (body g).1 ≠ .panic) : (closing C fd body g).1 ≠ .panic := by
  rw [closing]
  rcases hrun : body g with ⟨r, g'⟩
  rw [hrun] at hbody
  have hclose : ∀ r : Fallible StorageError α, r ≠ .panic →
      ((toOption (C.rpcFs RPC_FS_CLOSE [] fd 0 []) >>= fun _ => lift r) g').1 ≠
        .panic := by
    intro r hr
    exact bind_ne_panic (Fallible.toOption_ne_panic_iff.mpr (hquiet _ _ _ _ _ _))
      fun _ _ _ => hr
  cases r with
  | ok | err => exact hclose _ (by simp)
  | panic => exact absurd rfl hbody

end Loop

/-- **Reading a file ends exactly when the client sends what it counts.** -/
theorem read_ends_iff {C : FsClient γ}
    (hquiet : ∀ op name fd off data g, (C.rpcFs op name fd off data g).1 ≠ .panic)
    (path : Path) (g : γ) : ReadEnds C path g ↔ SendsChunks C path g := by
  constructor
  · rintro ⟨-, hrounds⟩ fd reply g₀ hopen out g₁ hreads n chunk g₂ hask
    obtain ⟨hgrows, hfits⟩ := hrounds fd reply g₀ hopen out g₁ hreads n chunk g₂ hask
    rw [length_append] at hgrows hfits
    refine ⟨hgrows.imp_right fun hlt hnil => ?_, hfits⟩
    simp [hnil] at hlt
  · intro hsends
    refine ⟨⟨2 ^ 32 + 1, ?_⟩, ?_⟩
    · apply bind_ne_panic (hquiet _ _ _ _ _ _)
      rintro ⟨fd, reply⟩ g₀ hopen
      apply closing_ne_panic hquiet
      exact readLoop_ne_panic hquiet (hsends fd reply g₀ hopen) _ .start (by simp) (by simp)
    · intro fd reply g₀ hopen out g₁ hreads n chunk g₂ hask
      obtain ⟨hgrows, hfits⟩ := hsends fd reply g₀ hopen out g₁ hreads n chunk g₂ hask
      rw [length_append]
      exact ⟨hgrows.imp_right fun hne => Nat.lt_add_of_pos_right (length_pos_of_ne_nil hne),
        hfits⟩

def constantClient (n : UInt32) (chunk : Bytes) : FsClient Unit :=
  ⟨fun _ _ _ _ _ => lift (.ok (n, chunk))⟩

/-- A client with a file of a full chunk and three bytes. -/
def chunkClient : FsClient Unit :=
  ⟨fun _ _ _ off _ =>
    lift (.ok (if off = 0 then (4096, replicate CHUNK 7) else (3, [1, 2, 3])))⟩

/-- The loop stands at the start or behind the full chunk. -/
theorem chunkClient_reads {out : Bytes} {g g' : Unit}
    (h : Reads chunkClient fd g out g') : out.length = 0 ∨ out.length = CHUNK := by
  induction h with
  | start => exact .inl rfl
  | next _ hask hmore ih =>
    rcases ih with hlen | hlen <;> rw [askChunk, hlen] at hask <;> cases hask
    · right
      rw [length_append, hlen, length_replicate, zero_add]
    · exact absurd (by decide) hmore

theorem read_ends_iff_sample : ReadEnds chunkClient (ascii "a") () := by
  apply (read_ends_iff (fun _ _ _ _ _ _ => by simp [chunkClient]) _ _).mpr
  intro fd reply g0 _ out g1 hreads n chunk g2 hask
  rcases chunkClient_reads hreads with hlen | hlen <;> rw [askChunk, hlen] at hask <;> cases hask
  · rw [hlen, length_replicate]
    exact ⟨.inr (replicate_eq_nil_iff 7 |>.not.mpr (by decide)), by decide⟩
  · rw [hlen]
    exact ⟨.inl (by decide), by decide⟩

/-- A client that counts a chunk and sends nothing is asked forever. -/
theorem empty_chunk_read_forever :
    (constantClient 4096 []).rpcFs RPC_FS_OPEN (ascii "a") 0 0 [] () = (.ok (4096, []), ()) ∧
    ∀ fuel, (RpcFs.read (constantClient 4096 []) fuel (ascii "a") ()).1 = .panic := by
  refine ⟨rfl, fun fuel => ?_⟩
  have hloop : ∀ fuel, RpcFs.readLoop (constantClient 4096 []) 4096 fuel [] () = (.panic, ()) := by
    intro fuel
    induction fuel with
    | zero => rfl
    | succ fuel ih => exact ih
  show (RpcFs.closing _ 4096 (RpcFs.readLoop _ 4096 fuel []) ()).1 = .panic
  rw [RpcFs.closing, hloop]

end Rustee.Storage
