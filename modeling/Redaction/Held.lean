import Redaction.Bytes

/-!
# Bytes held back

What has been read of a stream and not yet handed on: bytes, and the offset of the
first of them. Bytes come in behind (`push`) and go out in front (`splitAt`), in the
order of the stream (`toList`).

The bytes that came in last are kept apart, the latest first, and turned round when
those in front run out. So each byte is moved a few times at most, however small the
portions are.
-/

namespace Redaction

structure Held where
  /-- The offset of the first byte, and of the next one to come if there is none. -/
  start : Nat
  front : Bytes := []
  latestFirst : Bytes := []
deriving DecidableEq, Repr

namespace Held

/-- The bytes in the order of the stream. -/
def toList (h : Held) : Bytes := h.front ++ h.latestFirst.reverse

def push (h : Held) (portion : Bytes) : Held :=
  { h with latestFirst := portion.reverseAux h.latestFirst }

/-- As many bytes in front as are asked for, or all. -/
def refill (h : Held) (n : Nat) : Held :=
  if n ≠ 0 ∧ (h.front.drop (n - 1)).isEmpty then { h with front := h.toList, latestFirst := [] }
  else h

/-- The first bytes. -/
def take (h : Held) (n : Nat) : Bytes := (h.refill n).front.take n

/-- The bytes before an offset, and what is left. -/
def splitAt (h : Held) (stop : Nat) : Bytes × Held :=
  let n := stop - h.start
  let full := h.refill n
  (full.front.take n, { full with start := max h.start stop, front := full.front.drop n })

@[simp] theorem toList_push (h : Held) (portion : Bytes) :
    (h.push portion).toList = h.toList ++ portion := by
  simp [push, toList, List.reverseAux_eq]

@[simp] theorem start_push (h : Held) (portion : Bytes) : (h.push portion).start = h.start := rfl

@[simp] theorem toList_refill (h : Held) (n : Nat) : (h.refill n).toList = h.toList := by
  unfold refill
  split <;> simp [toList]

/-- There are enough bytes in front of those that came last, or none have come last. -/
theorem refill_cases (h : Held) (n : Nat) :
    n ≤ (h.refill n).front.length ∨ (h.refill n).latestFirst = [] := by
  unfold refill
  split
  · exact .inr rfl
  · rename_i hn
    simp only [List.isEmpty_iff, List.drop_eq_nil_iff, not_and] at hn
    omega

theorem take_eq (h : Held) (n : Nat) : h.take n = h.toList.take n := by
  rw [take, ← toList_refill h n]
  rcases h.refill_cases n with hn | hn
  · simp [toList, List.take_append_of_le_length hn]
  · simp [toList, hn]

theorem fst_splitAt (h : Held) (stop : Nat) :
    (h.splitAt stop).1 = h.toList.take (stop - h.start) := h.take_eq _

theorem toList_splitAt (h : Held) (stop : Nat) :
    (h.splitAt stop).2.toList = h.toList.drop (stop - h.start) := by
  rw [← toList_refill h (stop - h.start)]
  rcases h.refill_cases (stop - h.start) with hn | hn
  · simp [splitAt, toList, List.drop_append_of_le_length hn]
  · simp [splitAt, toList, hn]

@[simp] theorem start_splitAt (h : Held) (stop : Nat) :
    (h.splitAt stop).2.start = max h.start stop := rfl

end Held

end Redaction
