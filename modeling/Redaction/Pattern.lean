import Redaction.Overlap

/-!
# Patterns

A pattern carries the lap of each of its beginnings, so that falling back on it is a
look into a table. Each entry comes from the entries before it. What ends the first
`c + 1` bytes is, without its last byte, something that ends the first `c` bytes: their
lap, or the lap of that lap, and so on. The first of these that the last byte makes
longer is the longest.

Patterns with the same bytes are the same (`ext`), and up to its length `shift` is
`overlapShift`.
-/

namespace Redaction

/-! ## Tables of laps -/

/-- The laps of the shortest beginnings of a pattern, as far as they have been found. -/
structure LapTable (bytes : Array UInt8) where
  laps : Array Nat
  laps_eq : ∀ c (h : c < laps.size), laps[c] = lapLength bytes.toList c
  two_le_size : 2 ≤ laps.size

namespace LapTable

variable {bytes : Array UInt8}

/-- Nothing shorter ends nothing, nor a single byte. -/
def start (bytes : Array UInt8) : LapTable bytes where
  laps := #[0, 0]
  laps_eq := fun c h => by
    rcases Nat.eq_zero_or_pos c with rfl | hc
    · exact (lapLength_zero _).symm
    · obtain rfl : c = 1 := by simp at h; omega
      have := lapLength_lt bytes.toList Nat.one_pos
      show 0 = _
      omega
  two_le_size := Nat.le_refl 2

def lap (t : LapTable bytes) (c : Nat) : Nat := t.laps[c]?.getD 0

theorem lap_eq (t : LapTable bytes) {c : Nat} (h : c < t.laps.size) :
    t.lap c = lapLength bytes.toList c := by
  simp [lap, h, t.laps_eq]

theorem lap_lt (t : LapTable bytes) {c : Nat} (h : 0 < c) : t.lap c < c := by
  by_cases hc : c < t.laps.size
  · exact t.lap_eq hc ▸ lapLength_lt _ h
  · simpa [lap, hc] using h

/-- The length of the longest beginning that the byte `b` makes of one of length `k`, of
its lap, of the lap of that, and so on; 0 if it makes none. -/
def extend (t : LapTable bytes) (b : UInt8) (k : Nat) : Nat :=
  if bytes[k]? = some b then k + 1
  else if _h : 0 < k then t.extend b (t.lap k)
  else 0
termination_by k
decreasing_by exact t.lap_lt _h

/-- Started from something that is at most one byte too short, `extend` finds the lap. -/
theorem extend_eq (t : LapTable bytes) {c k : Nat} {b : UInt8} (hc : c < t.laps.size)
    (hk : k < c) (hb : bytes[c]? = some b) (hs : bytes.toList.take k <:+ bytes.toList.take c)
    (hle : lapLength bytes.toList (c + 1) ≤ k + 1) :
    t.extend b k = lapLength bytes.toList (c + 1) := by
  have hb' : bytes.toList[c]? = some b := by simpa using hb
  obtain ⟨hlen, -⟩ := List.getElem?_eq_some_iff.mp hb'
  -- Without its last byte, the lap sought ends what has been seen before that byte.
  have shorter : ∀ j, lapLength bytes.toList (c + 1) = j + 1 →
      bytes.toList[j]? = some b ∧ bytes.toList.take j <:+ bytes.toList.take c := fun j hj =>
    isSuffix_of_take_succ (by have := lapLength_lt bytes.toList c.succ_pos; omega) hb'
      (hj ▸ take_lapLength_isSuffix bytes.toList (c + 1))
  induction k using Nat.strongRecOn with
  | _ k ih =>
      unfold extend
      split
      · rename_i hfit
        refine Nat.le_antisymm (le_lapLength (by omega) hlen ?_) hle
        rw [take_succ_of_getElem? (by simpa using hfit), take_succ_of_getElem? hb']
        obtain ⟨u, hu⟩ := hs
        exact ⟨u, by rw [← hu, List.append_assoc]⟩
      · rename_i hfit
        have hne : lapLength bytes.toList (c + 1) ≠ k + 1 := fun heq =>
          hfit (by simpa using (shorter k heq).1)
        split
        · rename_i hpos
          have hlap := t.lap_eq (c := k) (by omega)
          refine ih _ (t.lap_lt hpos) (Nat.lt_trans (t.lap_lt hpos) hk)
            (hlap ▸ (take_lapLength_isSuffix bytes.toList k).trans hs) ?_
          cases hj : lapLength bytes.toList (c + 1) with
          | zero => omega
          | succ j =>
              have : j ≤ lapLength bytes.toList k :=
                le_lapLength (by omega) (by omega)
                  (List.suffix_of_suffix_length_le (shorter j hj).2 hs
                    (by simp only [List.length_take]; omega))
              omega
        · omega

/-- The table with one more entry. -/
def next (t : LapTable bytes) (h : t.laps.size ≤ bytes.size) : LapTable bytes :=
  have := t.two_le_size
  have hlap := t.lap_eq (c := t.laps.size - 1) (by omega)
  { laps := t.laps.push (t.extend bytes[t.laps.size - 1] (t.lap (t.laps.size - 1)))
    laps_eq := fun c hc => by
      rw [Array.getElem_push]
      split
      · exact t.laps_eq c _
      · obtain rfl : c = t.laps.size - 1 + 1 := by simp at hc; omega
        exact t.extend_eq (by omega) (t.lap_lt (by omega)) (by simp)
          (hlap ▸ take_lapLength_isSuffix ..) (hlap ▸ lapLength_succ_le (by simp; omega))
    two_le_size := by simp; omega }

/-- The table with an entry for each beginning. -/
def complete (t : LapTable bytes) : LapTable bytes :=
  if h : t.laps.size ≤ bytes.size then (t.next h).complete else t
termination_by bytes.size + 1 - t.laps.size
decreasing_by simp [next]; omega

theorem size_complete (t : LapTable bytes) (h : t.laps.size ≤ max 2 (bytes.size + 1)) :
    t.complete.laps.size = max 2 (bytes.size + 1) := by
  fun_induction complete t with
  | case1 t ht ih => exact ih (by simp [next]; omega)
  | case2 t ht =>
      have := t.two_le_size
      omega

/-- Tables of one size hold the same laps. -/
theorem ext_size {t u : LapTable bytes} (h : t.laps.size = u.laps.size) : t = u := by
  have : t.laps = u.laps := Array.ext h fun c ht hu => (t.laps_eq c ht).trans (u.laps_eq c hu).symm
  cases t
  cases u
  subst this
  rfl

end LapTable

/-! ## Patterns -/

structure Pattern where
  bytes : Array UInt8
  /-- The laps of all beginnings. -/
  table : LapTable bytes
  size_table : table.laps.size = max 2 (bytes.size + 1)

namespace Pattern

def ofBytes (bs : Bytes) : Pattern where
  bytes := bs.toArray
  table := (LapTable.start bs.toArray).complete
  size_table := LapTable.size_complete _ (Nat.le_max_left ..)

def toList (p : Pattern) : Bytes := p.bytes.toList

def length (p : Pattern) : Nat := p.bytes.size

def isEmpty (p : Pattern) : Bool := p.bytes.isEmpty

/-- The byte at a position. -/
def get? (p : Pattern) (position : Nat) : Option UInt8 := p.bytes[position]?

/-- Where the cursor goes when the byte behind it does not fit. -/
def lap (p : Pattern) (cursor : Nat) : Nat := p.table.lap cursor

/-- How far the pattern moves then. -/
def shift (p : Pattern) (cursor : Nat) : Nat := cursor - p.lap cursor

/-! ## The bytes of a pattern -/

@[simp] theorem toList_ofBytes (bs : Bytes) : (ofBytes bs).toList = bs := rfl

@[simp] theorem length_toList (p : Pattern) : p.toList.length = p.length := Array.length_toList

@[simp] theorem getElem?_toList (p : Pattern) (i : Nat) : p.toList[i]? = p.get? i :=
  Array.getElem?_toList

@[ext] theorem ext {p q : Pattern} (h : p.toList = q.toList) : p = q := by
  obtain ⟨bs, t, ht⟩ := p
  obtain ⟨cs, u, hu⟩ := q
  obtain rfl : bs = cs := Array.toList_inj.mp h
  obtain rfl : t = u := LapTable.ext_size (ht.trans hu.symm)
  rfl

@[simp] theorem ofBytes_toList (p : Pattern) : ofBytes p.toList = p := ext rfl

instance : DecidableEq Pattern := fun p q =>
  decidable_of_iff (p.bytes = q.bytes) (Array.toList_inj.symm.trans Pattern.ext_iff.symm)

instance : Repr Pattern := ⟨fun p n => reprPrec p.toList n⟩

/-! ## Falling back -/

theorem lap_eq {p : Pattern} {c : Nat} (h : c ≤ p.length) : p.lap c = lapLength p.toList c :=
  p.table.lap_eq (by have := p.size_table; unfold length at h; omega)

theorem lap_lt (p : Pattern) {c : Nat} (h : 0 < c) : p.lap c < c := p.table.lap_lt h

theorem shift_eq {p : Pattern} {c : Nat} (h : c ≤ p.length) :
    p.shift c = overlapShift p.toList c := by
  rw [shift, lap_eq h, overlapShift]

end Pattern

end Redaction
