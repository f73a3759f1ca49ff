import Redaction.Span

/-!
# Ranges to be hidden

A cover holds ranges of offsets in ascending order, no two of them overlapping or
touching: the maximal runs of the set of offsets that it covers. `Cover.addRange` puts
one more range in and joins all that it overlaps or touches. It covers just what was
covered before and what was put in (`covers_addRange`), and leaves the ranges in that form
(`canonical_addRange`).

Ranges come in where the stream has got to and are done with in front. So the latest
are kept apart, the latest first, and only what they do not decide goes back to those
in front.
-/

namespace Redaction

/-- The offsets from `start` up to, not including, `stop`. -/
structure Range where
  start : Nat
  stop : Nat
deriving DecidableEq, Repr

structure Cover where
  front : List Range := []
  latestFirst : List Range := []
deriving DecidableEq, Repr

namespace Cover

/-- The ranges in ascending order. -/
def toList (c : Cover) : List Range := c.front ++ c.latestFirst.reverse

/-- Some range of the cover holds the offset. -/
def Covers (c : Cover) (offset : Nat) : Prop :=
  ∃ r ∈ c.toList, r.start ≤ offset ∧ offset < r.stop

/-- The ranges are the maximal runs of what they cover, and none starts before `base`. -/
def Canonical (base : Nat) (c : Cover) : Prop :=
  (∀ r ∈ c.toList, base ≤ r.start ∧ r.start < r.stop) ∧
    c.toList.Pairwise fun a b => a.stop < b.start

/-! ## Adding ranges -/

/-- Joins the range with those it overlaps or touches, in a list whose latest range is the
first. None behind one that starts before it is touched. -/
def join (start stop : Nat) : List Range → List Range
  | [] => [⟨start, stop⟩]
  | r :: rest =>
    if r.stop < start then ⟨start, stop⟩ :: r :: rest
    else if r.start ≤ start then ⟨r.start, max stop r.stop⟩ :: rest
    else if stop < r.start then r :: join start stop rest
    else join start (max stop r.stop) rest

/-- Puts a range in, with the others only if the latest do not decide where. -/
def put (c : Cover) (start stop : Nat) : Cover :=
  if c.latestFirst.any (·.start ≤ start) then
    { c with latestFirst := join start stop c.latestFirst }
  else
    match join start stop c.toList.reverse with
    | [] => {}
    | latest :: earlier => { front := earlier.reverse, latestFirst := [latest] }

/-- Adds what the range has at or behind `base`. -/
def addRange (base : Nat) (c : Cover) (r : Range) : Cover :=
  let start := max r.start base
  if start < r.stop then c.put start r.stop else c

/-- Adds what the span has at or behind `base`. -/
def add (base : Nat) (c : Cover) (s : Span) : Cover := c.addRange base ⟨s.offset, s.stop⟩

/-! ## Taking ranges away -/

/-- All ranges that start before an offset in front. -/
def refill (c : Cover) (upto : Nat) : Cover :=
  if c.front.any (upto ≤ ·.start) then c else { front := c.toList }

/-- The cover without the first range in front. -/
def dropFirst (c : Cover) : Cover := { c with front := c.front.tail }

@[simp] theorem toList_refill (c : Cover) (upto : Nat) : (c.refill upto).toList = c.toList := by
  unfold refill
  split <;> simp [toList]

/-- What was in front before a range that starts at or behind the offset, or else nothing
is left out. -/
theorem refill_cases (c : Cover) (upto : Nat) :
    (∃ r ∈ (c.refill upto).front, upto ≤ r.start) ∨ (c.refill upto).front = c.toList := by
  unfold refill
  split
  · rename_i h
    exact .inl (by simpa using h)
  · exact .inr (by simp)

/-! ## What is covered -/

/-- A range that starts before the new one ends the search for what to join. -/
theorem join_append {start stop : Nat} {xs : List Range} (h : ∃ r ∈ xs, r.start ≤ start)
    (ys : List Range) : join start stop (xs ++ ys) = join start stop xs ++ ys := by
  induction xs generalizing stop with
  | nil => simp at h
  | cons r rest ih =>
      simp only [List.cons_append, join]
      split
      · rfl
      · split
        · rfl
        · have h : ∃ r ∈ rest, r.start ≤ start := by
            obtain ⟨x, hx, hle⟩ := h
            rcases List.mem_cons.mp hx with rfl | hx
            · contradiction
            · exact ⟨x, hx, hle⟩
          split
          · rw [ih h, List.cons_append]
          · exact ih h

theorem toList_put (c : Cover) (start stop : Nat) :
    (c.put start stop).toList = (join start stop c.toList.reverse).reverse := by
  unfold put
  split
  · rename_i h
    rw [toList, toList, List.reverse_append, List.reverse_reverse,
      join_append (by simpa using h), List.reverse_append, List.reverse_reverse]
  · split
    · rename_i hj
      rw [hj]
      rfl
    · rename_i hj
      rw [hj]
      simp [toList]

theorem exists_mem_join (start stop : Nat) (l : List Range) (o : Nat) :
    (∃ r ∈ join start stop l, r.start ≤ o ∧ o < r.stop) ↔
      (start ≤ o ∧ o < stop) ∨ ∃ r ∈ l, r.start ≤ o ∧ o < r.stop := by
  induction l generalizing stop with
  | nil => simp [join]
  | cons r rest ih =>
      simp only [join]
      split
      · simp
      · split
        · simp only [List.mem_cons, exists_eq_or_imp, ← or_assoc]
          refine or_congr_left ?_
          omega
        · split
          · simp only [List.mem_cons, exists_eq_or_imp, ih]
            exact or_left_comm
          · simp only [List.mem_cons, exists_eq_or_imp, ih, ← or_assoc]
            refine or_congr_left ?_
            omega

theorem covers_put (c : Cover) (start stop o : Nat) :
    (c.put start stop).Covers o ↔ (start ≤ o ∧ o < stop) ∨ c.Covers o := by
  unfold Covers
  rw [toList_put]
  simpa using exists_mem_join start stop c.toList.reverse o

theorem covers_addRange (base : Nat) (c : Cover) (r : Range) (o : Nat) :
    (addRange base c r).Covers o ↔ (max r.start base ≤ o ∧ o < r.stop) ∨ c.Covers o := by
  simp only [addRange]
  split
  · exact covers_put ..
  · refine ⟨.inr, fun h => h.resolve_left ?_⟩
    omega

theorem covers_foldl_addRange {base : Nat} {c : Cover} {added : List Range} {o : Nat} :
    (added.foldl (addRange base) c).Covers o ↔
      (base ≤ o ∧ ∃ r ∈ added, r.start ≤ o ∧ o < r.stop) ∨ c.Covers o := by
  induction added generalizing c with
  | nil => simp
  | cons r added ih =>
      have hmax : max r.start base ≤ o ∧ o < r.stop ↔ base ≤ o ∧ r.start ≤ o ∧ o < r.stop := by
        rw [Nat.max_le, and_comm (a := r.start ≤ o), and_assoc]
      rw [List.foldl_cons, ih, covers_addRange, hmax, ← or_assoc, ← and_or_left]
      simp [or_comm]

/-! ## The form of a cover -/

theorem pairwise_join {base start stop : Nat} (hbase : base ≤ start) (h : start < stop)
    {l : List Range} (hl : ∀ r ∈ l, base ≤ r.start ∧ r.start < r.stop)
    (hp : l.Pairwise fun a b => b.stop < a.start) :
    (∀ r ∈ join start stop l, base ≤ r.start ∧ r.start < r.stop) ∧
      (join start stop l).Pairwise fun a b => b.stop < a.start := by
  -- What is behind the range and behind all ranges is behind all that comes of them.
  suffices ((∀ r ∈ join start stop l, base ≤ r.start ∧ r.start < r.stop) ∧
      (join start stop l).Pairwise fun a b => b.stop < a.start) ∧
      ∀ n, stop < n → (∀ r ∈ l, r.stop < n) → ∀ r ∈ join start stop l, r.stop < n from this.1
  induction l generalizing stop with
  | nil => simp [join, hbase, h]
  | cons r rest ih =>
      obtain ⟨hrp, hp⟩ := List.pairwise_cons.mp hp
      obtain ⟨hr, hrest⟩ := List.forall_mem_cons.mp hl
      simp only [join]
      split
      · refine ⟨⟨List.forall_mem_cons.mpr ⟨⟨hbase, h⟩, hl⟩, List.pairwise_cons.mpr
          ⟨List.forall_mem_cons.mpr ⟨‹_›, fun x hx => ?_⟩, List.pairwise_cons.mpr ⟨hrp, hp⟩⟩⟩,
          fun n hn hall => List.forall_mem_cons.mpr ⟨hn, hall⟩⟩
        have := hrp x hx
        show x.stop < start
        omega
      · split
        · refine ⟨⟨List.forall_mem_cons.mpr ⟨⟨hr.1, ?_⟩, hrest⟩,
            List.pairwise_cons.mpr ⟨hrp, hp⟩⟩, fun n hn hall => ?_⟩
          · show r.start < max stop r.stop
            omega
          · obtain ⟨h1, h2⟩ := List.forall_mem_cons.mp hall
            refine List.forall_mem_cons.mpr ⟨?_, h2⟩
            show max stop r.stop < n
            omega
        · split
          · obtain ⟨⟨h1, h2⟩, h3⟩ := ih h hrest hp
            exact ⟨⟨List.forall_mem_cons.mpr ⟨hr, h1⟩,
              List.pairwise_cons.mpr ⟨h3 _ ‹_› hrp, h2⟩⟩, fun n hn hall =>
              List.forall_mem_cons.mpr ⟨(List.forall_mem_cons.mp hall).1,
                h3 n hn (List.forall_mem_cons.mp hall).2⟩⟩
          · obtain ⟨h1, h3⟩ := ih (show start < max stop r.stop by omega) hrest hp
            refine ⟨h1, fun n hn hall => h3 n ?_ (List.forall_mem_cons.mp hall).2⟩
            have := (List.forall_mem_cons.mp hall).1
            omega

theorem canonical_put {base start stop : Nat} (hbase : base ≤ start) (h : start < stop)
    {c : Cover} (hc : Canonical base c) : Canonical base (c.put start stop) := by
  unfold Canonical
  rw [toList_put]
  simpa [List.pairwise_reverse] using pairwise_join hbase h (l := c.toList.reverse)
    (by simpa using hc.1) (List.pairwise_reverse.mpr hc.2)

theorem canonical_addRange {base : Nat} {c : Cover} (hc : Canonical base c) (r : Range) :
    Canonical base (addRange base c r) := by
  simp only [addRange]
  split
  · exact canonical_put (by omega) ‹_› hc
  · exact hc

theorem canonical_foldl_addRange {base : Nat} {c : Cover} (hc : Canonical base c)
    (added : List Range) : Canonical base (added.foldl (addRange base) c) := by
  induction added generalizing c with
  | nil => exact hc
  | cons r added ih => exact ih (canonical_addRange hc r)

end Cover

end Redaction
