import Mathlib.Algebra.Ring.Nat
import Redaction.Sink

/-!
# Sinks that refuse for want of room

A sink with no calls set to fail refuses only what does not fit (`put_error_iff`), and what
it takes off its room are the bytes it takes (`takes_put`). So of bytes that come in pieces
it takes all just when they fit together: `Takes` adds up, and what fits together fits one
after the other.
-/

namespace Redaction

namespace Sink

/-- There is room for so many bytes. -/
def Fits (s : Sink) (n : Nat) : Prop := ∀ room, s.room = some room → n ≤ room

/-- So many bytes fit, and `s'` is `s` with as much less room. -/
structure Takes (s : Sink) (n : Nat) (s' : Sink) : Prop where
  fits : s.Fits n
  refused_eq : s'.refused = s.refused
  room_eq : s'.room = s.room.map (· - n)
  refusesFlush_eq : s'.refusesFlush = s.refusesFlush

/-- The sink refuses nothing. -/
structure Open (s : Sink) : Prop where
  refused_eq : s.refused = []
  room_eq : s.room = none
  refusesFlush_eq : s.refusesFlush = false

/-- A sink that nothing is said of takes everything. -/
theorem open_default : Open {} := ⟨rfl, rfl, rfl⟩

variable {s s' s'' : Sink} {n k : Nat}

theorem Fits.mono (h : s.Fits n) (hle : k ≤ n) : s.Fits k := fun room hroom =>
  Nat.le_trans hle (h room hroom)

theorem Open.fits (h : s.Open) (n : Nat) : s.Fits n := by
  intro room hroom
  rw [h.room_eq] at hroom
  cases hroom

theorem Open.takes (h : s.Open) (ht : s.Takes n s') : s'.Open where
  refused_eq := ht.refused_eq.trans h.refused_eq
  room_eq := by rw [ht.room_eq, h.room_eq, Option.map_none]
  refusesFlush_eq := ht.refusesFlush_eq.trans h.refusesFlush_eq

theorem Takes.fits_add (h : s.Takes n s') : s.Fits (n + k) ↔ s'.Fits k := by
  have hfits := h.fits
  simp only [Fits, h.room_eq] at hfits ⊢
  cases hroom : s.room with
  | none => simp
  | some room =>
      have hle := hfits room hroom
      simp only [Option.map_some, Option.some.injEq, forall_eq']
      omega

theorem Takes.refl (s : Sink) : s.Takes 0 s where
  fits := fun room _ => Nat.zero_le room
  refused_eq := rfl
  room_eq := by cases s.room <;> rfl
  refusesFlush_eq := rfl

theorem Takes.trans (h : s.Takes n s') (h' : s'.Takes k s'') : s.Takes (n + k) s'' where
  fits := h.fits_add.mpr h'.fits
  refused_eq := h'.refused_eq.trans h.refused_eq
  room_eq := by
    rw [h'.room_eq, h.room_eq, Option.map_map]
    exact congrArg (s.room.map ·) (funext fun room => Nat.sub_sub room n k)
  refusesFlush_eq := h'.refusesFlush_eq.trans h.refusesFlush_eq

theorem put_error_iff (h : s.refused = []) (n : Nat) : (s.put n).error = none ↔ s.Fits n := by
  unfold put Fits
  rw [h]
  split
  · rename_i hzero
    exact iff_of_true rfl fun room _ => hzero ▸ Nat.zero_le room
  · rw [if_neg List.not_mem_nil]
    cases s.room with
    | none => simp
    | some room =>
        by_cases hle : n ≤ room
        · simp [hle]
        · simp [hle]

theorem takes_put (h : (s.put n).error = none) : s.Takes n (s.put n).sink := by
  unfold put at h ⊢
  split
  · rename_i hzero
    exact hzero ▸ .refl s
  · rename_i hpos
    rw [if_neg hpos] at h
    split
    · rename_i hrefused
      rw [if_pos hrefused] at h
      cases h
    · rename_i htaken
      rw [if_neg htaken] at h
      cases hroom : s.room with
      | none =>
          refine ⟨fun room hsome => ?_, rfl, by rw [hroom]; rfl, rfl⟩
          cases hroom.symm.trans hsome
      | some room =>
          simp only [hroom] at h ⊢
          split
          · rename_i hle
            refine ⟨fun room' hsome => ?_, rfl, by rw [hroom]; rfl, rfl⟩
            obtain rfl := Option.some.inj (hroom.symm.trans hsome)
            exact hle
          · rename_i hfull
            rw [if_neg hfull] at h
            cases h

theorem taken_put (h : (s.put n).error = none) : (s.put n).taken = n := by
  unfold put at h ⊢
  split
  · exact Eq.symm ‹n = 0›
  · rename_i hpos
    rw [if_neg hpos] at h
    split
    · rename_i hrefused
      rw [if_pos hrefused] at h
      cases h
    · rename_i htaken
      rw [if_neg htaken] at h
      cases hroom : s.room with
      | none => rfl
      | some room =>
          simp only [hroom] at h ⊢
          split
          · rfl
          · rename_i hfull
            rw [if_neg hfull] at h
            cases h

theorem taken_put_le (s : Sink) (n : Nat) : (s.put n).taken ≤ n := by
  unfold put
  split
  · exact Nat.zero_le n
  · split
    · exact Nat.zero_le n
    · split
      · exact Nat.le_refl n
      · split
        · exact Nat.le_refl n
        · exact Nat.le_of_lt (Nat.lt_of_not_le ‹_›)

/-! ## Piece by piece -/

theorem putAll_cons_of_error {e : SinkError} (h : (s.put n).error = some e) (rest : List Nat) :
    s.putAll (n :: rest) = s.put n := by
  rw [putAll, h]

theorem putAll_cons (h : (s.put n).error = none) (rest : List Nat) :
    s.putAll (n :: rest) =
      { (s.put n).sink.putAll rest with
        taken := (s.put n).taken + ((s.put n).sink.putAll rest).taken } := by
  rw [putAll, h]

/-- Pieces that are all taken take off the room what they have together. -/
theorem takes_putAll {sizes : List Nat} (h : (s.putAll sizes).error = none) :
    s.Takes sizes.sum (s.putAll sizes).sink ∧ (s.putAll sizes).taken = sizes.sum := by
  induction sizes generalizing s with
  | nil => exact ⟨.refl s, rfl⟩
  | cons n rest ih =>
      cases herr : (s.put n).error with
      | some e =>
          rw [putAll_cons_of_error herr, herr] at h
          cases h
      | none =>
          rw [putAll_cons herr] at h ⊢
          obtain ⟨htakes, htaken⟩ := ih h
          refine ⟨(takes_put herr).trans htakes, ?_⟩
          rw [taken_put herr, htaken, List.sum_cons]

theorem putAll_error_iff (h : s.refused = []) (sizes : List Nat) :
    (s.putAll sizes).error = none ↔ s.Fits sizes.sum := by
  induction sizes generalizing s with
  | nil => exact iff_of_true rfl fun room _ => Nat.zero_le room
  | cons n rest ih =>
      have hfirst := put_error_iff h n
      rw [List.sum_cons]
      cases herr : (s.put n).error with
      | some e =>
          rw [putAll_cons_of_error herr, herr]
          refine iff_of_false (by simp) fun hall => ?_
          cases herr.symm.trans (hfirst.mpr (hall.mono (Nat.le_add_right n _)))
      | none =>
          have htakes := takes_put herr
          rw [putAll_cons herr, htakes.fits_add]
          exact ih (htakes.refused_eq.trans h)

/-! ## Open sinks -/

namespace Open

theorem put (h : s.Open) (n : Nat) : (s.put n).error = none ∧ (s.put n).sink.Open := by
  have herror := (put_error_iff h.refused_eq n).mpr (h.fits n)
  exact ⟨herror, h.takes (takes_put herror)⟩

theorem putAll (h : s.Open) (sizes : List Nat) :
    (s.putAll sizes).error = none ∧ (s.putAll sizes).taken = sizes.sum ∧
      (s.putAll sizes).sink.Open := by
  have herror := (putAll_error_iff h.refused_eq sizes).mpr (h.fits _)
  obtain ⟨htakes, htaken⟩ := takes_putAll herror
  exact ⟨herror, htaken, h.takes htakes⟩

theorem flush (h : s.Open) : s.flush.error = none ∧ s.flush.sink.Open := by
  refine ⟨?_, h.refused_eq, h.room_eq, h.refusesFlush_eq⟩
  rw [Sink.flush, h.refusesFlush_eq]
  rfl

end Open

end Sink

end Redaction
