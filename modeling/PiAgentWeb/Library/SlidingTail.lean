import Mathlib.Algebra.GroupWithZero.Nat
import Mathlib.Data.List.Basic

/-!
# The tail of a stream in a fixed buffer

A stream comes in chunks of any size, and a buffer of fixed size keeps its last items. A chunk
that fills the buffer replaces it; a shorter one moves the newest items to the front and is
written behind them. What the buffer holds does not depend on where the stream is cut.
-/

namespace PiAgentWeb

universe u

variable {α : Type u}

/-- The items are written over those of the buffer from an offset on. -/
def writeAt (buffer items : List α) (offset : ℕ) : List α :=
  buffer.take offset ++ items ++ buffer.drop (offset + items.length)

/-- The items between two bounds are copied to the front of the buffer. -/
def copyToFront (buffer : List α) (start stop : ℕ) : List α :=
  writeAt buffer ((buffer.take stop).drop start) 0

/-- A buffer and the number of items of the stream so far. -/
structure SlidingTail (α : Type u) where
  buffer : List α
  seen : ℕ

namespace SlidingTail

/-- A chunk of the stream slides through the buffer. -/
def push (size : ℕ) (tail : SlidingTail α) (chunk : List α) : SlidingTail α where
  buffer :=
    if size ≤ chunk.length then writeAt tail.buffer (chunk.drop (chunk.length - size)) 0
    else
      let filled := min tail.seen size
      let retained := min filled (size - chunk.length)
      let moved :=
        if 0 < retained then copyToFront tail.buffer (filled - retained) filled else tail.buffer
      writeAt moved chunk retained
  seen := tail.seen + chunk.length

/-- The buffer begins with the last items of the stream. -/
structure Holds (size : ℕ) (tail : SlidingTail α) (stream : List α) : Prop where
  seen : tail.seen = stream.length
  length : tail.buffer.length = size
  items : tail.buffer.take (min size stream.length) = stream.drop (stream.length - size)

variable {size : ℕ} {tail : SlidingTail α} {stream : List α}

theorem length_writeAt {buffer items : List α} {offset : ℕ}
    (h : offset + items.length ≤ buffer.length) :
    (writeAt buffer items offset).length = buffer.length := by
  simp only [writeAt, List.length_append, List.length_take, List.length_drop]
  omega

theorem take_writeAt (buffer items : List α) {offset : ℕ} (h : offset ≤ buffer.length) :
    (writeAt buffer items offset).take (offset + items.length) =
      buffer.take offset ++ items := by
  have hlength : (buffer.take offset ++ items).length = offset + items.length := by
    rw [List.length_append, List.length_take, Nat.min_eq_left h]
  rw [writeAt, ← hlength, List.take_left]

theorem Holds.empty (buffer : List α) : Holds buffer.length ⟨buffer, 0⟩ ([] : List α) where
  seen := rfl
  length := rfl
  items := by simp

theorem Holds.take_copyToFront (h : Holds size tail stream) {retained : ℕ}
    (hretained : retained ≤ min tail.seen size) :
    (copyToFront tail.buffer (min tail.seen size - retained) (min tail.seen size)).take retained =
      stream.drop (stream.length - retained) := by
  have hseen := h.seen
  have hpart : (tail.buffer.take (min tail.seen size)).drop (min tail.seen size - retained) =
      stream.drop (stream.length - retained) := by
    rw [hseen, Nat.min_comm, h.items, List.drop_drop]
    congr 1
    omega
  have hlength : (stream.drop (stream.length - retained)).length = retained := by
    rw [List.length_drop]
    omega
  have hfront := take_writeAt tail.buffer (stream.drop (stream.length - retained)) (Nat.zero_le _)
  rw [Nat.zero_add, hlength, List.take_zero, List.nil_append] at hfront
  rw [copyToFront, hpart, hfront]

theorem Holds.push (h : Holds size tail stream) (chunk : List α) :
    Holds size (tail.push size chunk) (stream ++ chunk) := by
  have hseen := h.seen
  have hbuffer := h.length
  refine ⟨by simp only [SlidingTail.push, h.seen, List.length_append], ?_, ?_⟩
  · unfold SlidingTail.push
    dsimp only
    split
    · rw [length_writeAt, hbuffer]
      simp only [List.length_drop]
      omega
    · have hmoved : ∀ start stop, (copyToFront tail.buffer start stop).length = size := by
        intro start stop
        rw [copyToFront, length_writeAt, hbuffer]
        simp only [List.length_drop, List.length_take]
        omega
      split
      · rw [length_writeAt, hmoved]
        rw [hmoved]
        omega
      · rw [length_writeAt, hbuffer]
        omega
  · unfold SlidingTail.push
    dsimp only
    split
    · rename_i hfull
      -- the chunk replaces the whole buffer
      have hlength : (chunk.drop (chunk.length - size)).length = size := by
        rw [List.length_drop]
        omega
      have hfront := take_writeAt tail.buffer (chunk.drop (chunk.length - size)) (Nat.zero_le _)
      rw [Nat.zero_add, hlength, List.take_zero, List.nil_append] at hfront
      have hgone : stream.drop (stream.length + chunk.length - size) = [] :=
        List.drop_eq_nil_of_le (by omega)
      rw [List.length_append, Nat.min_eq_left (by omega), hfront, List.drop_append, hgone,
        List.nil_append]
      congr 1
      omega
    · rename_i hshort
      have hretained : min (min tail.seen size) (size - chunk.length) ≤ min tail.seen size :=
        Nat.min_le_left _ _
      generalize hr : min (min tail.seen size) (size - chunk.length) = retained at hretained ⊢
      have htotal : min size (stream ++ chunk).length = retained + chunk.length := by
        rw [List.length_append]
        omega
      -- the newest items stand in front of the chunk
      have hfront : ∀ buffer : List α, buffer.length = size →
          buffer.take retained = stream.drop (stream.length - retained) →
          (writeAt buffer chunk retained).take (min size (stream ++ chunk).length) =
            (stream ++ chunk).drop ((stream ++ chunk).length - size) := by
        intro buffer hsize hkept
        rw [htotal, take_writeAt _ _ (by omega), hkept, List.drop_append, List.length_append]
        congr 1
        · by_cases hall : retained = stream.length
          · rw [hall, Nat.sub_self, List.drop_zero,
              show stream.length + chunk.length - size = 0 by omega, List.drop_zero]
          · congr 1
            omega
        · rw [show stream.length + chunk.length - size - stream.length = 0 by omega,
            List.drop_zero]
      split
      · refine hfront _ ?_ (h.take_copyToFront hretained)
        rw [copyToFront, length_writeAt, hbuffer]
        simp only [List.length_drop, List.length_take]
        omega
      · rename_i hnone
        refine hfront _ hbuffer ?_
        rw [show retained = 0 by omega, List.take_zero, Nat.sub_zero, List.drop_length]

end SlidingTail

end PiAgentWeb
