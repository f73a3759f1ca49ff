import Mathlib.Algebra.Ring.Nat
import Redaction.Reading

/-!
# What an input delivers

The bytes of an input are those of its pieces up to the first empty one, which ends it
(`Piece.delivered`); all of them can be read unless a read fails before that (`Piece.content`). They
do not depend on how much is read at a time, nor on where the pieces are divided or how often
reading is interrupted between them, and so not on a buffer that they come through
(`Piece.content_buffered`). The number of portions does: each piece is cut on its own, so it gives
its length divided by the size of a read, rounded up (`Piece.portionCount`).

Reading comes to just this if the buffer for it can be had (`Reading.ofPieces_of_readable`); if not,
nothing is read (`Reading.ofPieces_of_overflow`).
-/

namespace Redaction

namespace Bytes

theorem length_cut (n : Nat) (bs : Bytes) : (cut n bs).length = (bs.length + n) / (n + 1) := by
  fun_induction cut n bs with
  | case1 => exact (Nat.div_eq_of_lt (by simp)).symm
  | case2 b bs ih =>
      have hlong : bs.length + 1 + n = bs.length + (n + 1) := by omega
      rw [List.length_cons, ih, List.length_drop, List.length_cons, hlong,
        Nat.add_div_right _ n.succ_pos]
      rcases Nat.le_total n bs.length with hle | hle
      · rw [Nat.sub_add_cancel hle]
      · rw [Nat.sub_eq_zero_of_le hle, Nat.zero_add, Nat.div_eq_of_lt n.lt_succ_self,
          Nat.div_eq_of_lt (Nat.lt_succ_of_le hle)]

end Bytes

namespace Piece

/-- What a piece has to read; nothing if reading it fails. -/
def bytes : Piece → Bytes
  | data bs => bs
  | interrupted => []
  | failing _ => []

/-- The pieces in front of the first that says that the input has ended. -/
def beforeEnd (pieces : List Piece) : List Piece := pieces.takeWhile (· ≠ .data [])

/-- No read fails before the input has ended. -/
def Readable (pieces : List Piece) : Prop := ∀ reason, .failing reason ∉ beforeEnd pieces

def delivered (pieces : List Piece) : Bytes := (beforeEnd pieces).flatMap bytes

/-- How many portions come of the pieces when up to `size` bytes are read at a time. -/
def portionCount (size : Nat) (pieces : List Piece) : Nat :=
  ((beforeEnd pieces).map fun p => (p.bytes.length + size - 1) / size).sum

theorem beforeEnd_cons {p : Piece} (h : p ≠ .data []) (rest : List Piece) :
    beforeEnd (p :: rest) = p :: beforeEnd rest :=
  List.takeWhile_cons_of_pos (decide_eq_true h)

theorem delivered_cons {p : Piece} (h : p ≠ .data []) (rest : List Piece) :
    delivered (p :: rest) = p.bytes ++ delivered rest := by
  rw [delivered, beforeEnd_cons h, List.flatMap_cons, ← delivered]

theorem portionCount_cons {p : Piece} (h : p ≠ .data []) (size : Nat) (rest : List Piece) :
    portionCount size (p :: rest) =
      (p.bytes.length + size - 1) / size + portionCount size rest := by
  rw [portionCount, beforeEnd_cons h, List.map_cons, List.sum_cons, ← portionCount]

theorem Readable.tail {p : Piece} {rest : List Piece} (h : Readable (p :: rest))
    (hp : p ≠ .data []) : Readable rest := fun reason hmem =>
  h reason (beforeEnd_cons hp rest ▸ List.mem_cons_of_mem p hmem)

/-- All that can be read, unless a read fails. -/
def content : List Piece → Except String Bytes
  | [] => .ok []
  | data [] :: _ => .ok []
  | data (b :: bs) :: rest => (content rest).map (b :: bs ++ ·)
  | interrupted :: rest => content rest
  | failing reason :: _ => .error reason

theorem content_data_cons (bs : Bytes) (h : bs ≠ []) (rest : List Piece) :
    content (data bs :: rest) = (content rest).map (bs ++ ·) := by
  cases bs with
  | nil => exact absurd rfl h
  | cons b bs => rfl

theorem content_eq_ok_iff {pieces : List Piece} {bs : Bytes} :
    content pieces = .ok bs ↔ Readable pieces ∧ delivered pieces = bs := by
  induction pieces generalizing bs with
  | nil => simp [content, Readable, delivered, beforeEnd]
  | cons p rest ih =>
      cases p with
      | data bytes =>
          cases bytes with
          | nil => simp [content, Readable, delivered, beforeEnd]
          | cons b bytes =>
              have hp : data (b :: bytes) ≠ data [] := by simp
              have hreadable : Readable (data (b :: bytes) :: rest) ↔ Readable rest := by
                simp [Readable, beforeEnd_cons hp]
              rw [content, hreadable, delivered_cons hp, Piece.bytes]
              cases hrest : content rest with
              | error reason =>
                  refine iff_of_false (by simp [Except.map]) fun ⟨hr, _⟩ => ?_
                  cases hrest.symm.trans (ih.mpr ⟨hr, rfl⟩)
              | ok more =>
                  obtain ⟨hr, rfl⟩ := ih.mp hrest
                  simp [Except.map, hr]
      | interrupted =>
          have hp : interrupted ≠ data [] := by simp
          have hreadable : Readable (interrupted :: rest) ↔ Readable rest := by
            simp [Readable, beforeEnd_cons hp]
          rw [content, ih, hreadable, delivered_cons hp, Piece.bytes, List.nil_append]
      | failing reason =>
          have hp : failing reason ≠ data [] := by simp
          refine iff_of_false (by simp [content]) fun ⟨hr, _⟩ => hr reason ?_
          rw [beforeEnd_cons hp]
          exact List.mem_cons_self

theorem readable_iff {pieces : List Piece} :
    Readable pieces ↔ ∃ bs, content pieces = .ok bs := by
  constructor
  · intro h
    exact ⟨_, content_eq_ok_iff.mpr ⟨h, rfl⟩⟩
  · rintro ⟨bs, h⟩
    exact (content_eq_ok_iff.mp h).1

theorem readable_data (bs : Bytes) : Readable [.data bs] := by
  cases bs with
  | nil => simp [Readable, beforeEnd]
  | cons b bs => simp [Readable, beforeEnd]

theorem content_data (bs : Bytes) : content [.data bs] = .ok bs := by
  cases bs with
  | nil => rfl
  | cons b bs => simp [content, Except.map]

/-! ## Through a buffer -/

theorem content_blocks (p : Piece) (rest : List Piece) :
    content (p.blocks ++ rest) = content (p :: rest) := by
  cases p with
  | data bytes =>
      cases bytes with
      | nil => rfl
      | cons b bytes =>
          have hblocks (portions : List Bytes) (hne : [] ∉ portions) :
              content (portions.map data ++ rest) = (content rest).map (portions.flatten ++ ·) := by
            induction portions with
            | nil =>
                cases h : content rest <;> simp [h, Except.map]
            | cons portion portions ih =>
                obtain ⟨hportion, hportions⟩ := List.mem_cons.not.mp hne |> not_or.mp
                rw [List.map_cons, List.cons_append, content_data_cons _ (Ne.symm hportion),
                  ih hportions]
                cases content rest <;> simp [Except.map]
          rw [blocks, hblocks _ (Bytes.nil_notMem_cut _ _), Bytes.flatten_cut, content]
          simp
  | interrupted => rfl
  | failing reason => rfl

theorem content_buffered (size : Nat) (pieces : List Piece) :
    content (buffered size pieces) = content pieces := by
  rw [buffered]
  split
  · induction pieces with
    | nil => rfl
    | cons p rest ih =>
        rw [List.flatMap_cons, content_blocks]
        cases p with
        | data bytes =>
            cases bytes with
            | nil => rfl
            | cons b bytes => rw [content, content, ih]
        | interrupted => exact ih
        | failing reason => rfl
  · rfl

end Piece

namespace Reading

variable {size : Nat} {pieces : List Piece}

theorem ofPieces_of_overflow (h : bufferLimit < size) (pieces : List Piece) :
    ofPieces size pieces = { failure := some .overflow } := if_neg (Nat.not_le.mpr h)

theorem ofPieces_of_readable (hsize : 0 < size) (hlimit : size ≤ bufferLimit)
    (h : Piece.Readable pieces) :
    (ofPieces size pieces).failure = none ∧
      (ofPieces size pieces).bytes = Piece.delivered pieces ∧
      (ofPieces size pieces).portions.length = Piece.portionCount size pieces := by
  rw [ofPieces, if_pos hlimit]
  obtain ⟨n, rfl⟩ := Nat.exists_eq_succ_of_ne_zero (Nat.ne_of_gt hsize)
  induction pieces with
  | nil => exact ⟨rfl, rfl, rfl⟩
  | cons p rest ih =>
      cases p with
      | data bs =>
          cases bs with
          | nil => exact ⟨rfl, rfl, rfl⟩
          | cons b bs =>
              have hp : Piece.data (b :: bs) ≠ .data [] := by simp
              obtain ⟨hfailure, hbytes, hcount⟩ := ih (h.tail hp)
              refine ⟨hfailure, ?_, ?_⟩
              · rw [bytes, fill, List.flatten_append, Bytes.flatten_cut, ← bytes, hbytes,
                  Piece.delivered_cons hp, Piece.bytes]
              · rw [fill, List.length_append, Bytes.length_cut, hcount,
                  Piece.portionCount_cons hp, Piece.bytes]
                rfl
      | interrupted =>
          have hp : Piece.interrupted ≠ .data [] := by simp
          rw [fill, Piece.delivered_cons hp, Piece.portionCount_cons hp]
          simpa [Piece.bytes, Nat.div_eq_of_lt] using ih (h.tail hp)
      | failing reason => exact absurd (by simp [Piece.beforeEnd]) (h reason)

theorem failure_of_content (hlimit : size ≤ bufferLimit) {reason : String}
    (h : Piece.content pieces = .error reason) :
    (ofPieces size pieces).failure = some (.failing reason) := by
  rw [ofPieces, if_pos hlimit]
  induction pieces with
  | nil => cases h
  | cons p rest ih =>
      cases p with
      | data bs =>
          cases bs with
          | nil => cases h
          | cons b bs =>
              refine ih ?_
              cases hrest : Piece.content rest with
              | error cause => simpa [Piece.content, hrest, Except.map] using h
              | ok more => simp [Piece.content, hrest, Except.map] at h
      | interrupted => exact ih h
      | failing cause =>
          obtain rfl := Except.error.inj h
          rfl

/-- Reading comes to the end of the input just when the buffer can be had and no read fails. -/
theorem failure_eq_none_iff (hsize : 0 < size) :
    (ofPieces size pieces).failure = none ↔ size ≤ bufferLimit ∧ Piece.Readable pieces := by
  rcases Nat.lt_or_ge bufferLimit size with hover | hlimit
  · rw [ofPieces_of_overflow hover]
    exact iff_of_false (by simp) fun ⟨hlimit, _⟩ => Nat.not_le.mpr hover hlimit
  · cases h : Piece.content pieces with
    | error reason =>
        rw [failure_of_content hlimit h]
        refine iff_of_false (by simp) fun ⟨_, hreadable⟩ => ?_
        cases h.symm.trans (Piece.content_eq_ok_iff.mpr ⟨hreadable, rfl⟩)
    | ok bs =>
        have hreadable := (Piece.content_eq_ok_iff.mp h).1
        exact iff_of_true (ofPieces_of_readable hsize hlimit hreadable).1 ⟨hlimit, hreadable⟩

theorem failure_eq_overflow_iff (hsize : 0 < size) :
    (ofPieces size pieces).failure = some .overflow ↔ bufferLimit < size := by
  constructor
  · intro h
    by_contra hle
    have hlimit : size ≤ bufferLimit := Nat.le_of_not_lt hle
    cases hcontent : Piece.content pieces with
    | error reason =>
        rw [failure_of_content hlimit hcontent] at h
        cases h
    | ok bs =>
        rw [(failure_eq_none_iff hsize).mpr ⟨hlimit, Piece.readable_iff.mpr ⟨bs, hcontent⟩⟩] at h
        cases h
  · intro h
    rw [ofPieces_of_overflow h]

end Reading

end Redaction
