import Mathlib.Data.List.Basic

/-!
# Messages on a byte stream

A sender writes the encodings of messages one after the other; the bytes arrive in pieces cut
anywhere; a receiver buffers what has arrived and now and then tries to take a message from the
front. If taking yields a whole message or leaves the buffer as it is, the receiver gets the
messages in order, each once.
-/

namespace Rustee

open List

/-- A codec for messages `α` on a stream of `β`, with results `ρ` of trying to take one. -/
structure Framing (α β ρ : Type) where
  encode : α → List β
  take : List β → ρ × List β
  got : α → ρ
  wait : ρ
  take_nil : take [] = (wait, [])
  take_whole : ∀ a rest, take (encode a ++ rest) = (got a, rest)
  take_part : ∀ {a buf}, buf <+: encode a → buf ≠ encode a → take buf = (wait, buf)

namespace Framing

variable {α β ρ : Type} (F : Framing α β ρ)

def stream (msgs : List α) : List β := msgs.flatMap F.encode

@[simp] theorem stream_cons (a : α) (msgs : List α) :
    F.stream (a :: msgs) = F.encode a ++ F.stream msgs := rfl

/-- Between two steps: what is buffered and what is still to come make up the messages
not taken yet. -/
def Pending (msgs : List α) (buf coming : List β) : Prop := buf ++ coming = F.stream msgs

variable {F} {msgs : List α}

theorem Pending.push {buf piece coming : List β}
    (h : F.Pending msgs buf (piece ++ coming)) : F.Pending msgs (buf ++ piece) coming := by
  rw [Pending, append_assoc]
  exact h

/-- Taking yields the next message, or nothing happens; with no bytes to come, nothing
happens only when no message is left. -/
theorem Pending.take {buf coming : List β} (h : F.Pending msgs buf coming) :
    (∃ a rest buf', msgs = a :: rest ∧ F.take buf = (F.got a, buf') ∧
      F.Pending rest buf' coming) ∨ (F.take buf = (F.wait, buf) ∧ (coming = [] → msgs = [])) := by
  cases msgs with
  | nil =>
    right
    obtain ⟨rfl, rfl⟩ := append_eq_nil_iff.mp h
    exact ⟨F.take_nil, fun _ => rfl⟩
  | cons a rest =>
    rw [Pending, stream_cons] at h
    by_cases hwhole : F.encode a <+: buf
    · left
      obtain ⟨buf', rfl⟩ := hwhole
      rw [append_assoc] at h
      exact ⟨a, rest, buf', rfl, F.take_whole a buf', append_cancel_left h⟩
    · right
      have hpart : buf <+: F.encode a := by
        have hbuf : buf <+: F.encode a ++ F.stream rest := ⟨coming, h⟩
        rcases prefix_or_prefix_of_prefix hbuf (prefix_append _ _) with hp | hp
        · exact hp
        · exact absurd hp hwhole
      have hne : buf ≠ F.encode a := by
        intro heq
        exact hwhole (heq ▸ prefix_rfl)
      refine ⟨F.take_part hpart hne, ?_⟩
      intro hnil
      rw [hnil, append_nil] at h
      exact absurd ⟨F.stream rest, h.symm⟩ hwhole

end Framing

end Rustee
