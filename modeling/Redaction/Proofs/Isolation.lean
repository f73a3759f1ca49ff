import Redaction.Proofs.Survival

/-!
# Secrets that stand apart

A byte that does not occur in a pattern fits nowhere, so it makes a tracker fall back and is
lost. Falling back shortens what has been seen, so as many such bytes as the cursor counts
bring it to nothing, wherever it stood and whether or not it stood there rightly
(`Tracker.after_cursor_le_of_apart`). From there the pattern is seen as it comes, byte by byte,
and reported with its last one (`Tracker.mem_hits_pattern`).

A secret with such bytes in front of it is therefore hidden, whatever came before them and
whatever other secrets there are.
-/

namespace Redaction

namespace Tracker

variable {t : Tracker} {bs : Bytes}

/-! ## Bytes that are not in the pattern -/

theorem step_of_notMem {b : UInt8} (h : b ∉ t.pattern.toList) : t.step b = (t.fallBack, false) := by
  have hmiss (u : Tracker) (hu : u.pattern = t.pattern) : ¬u.Fits b := fun hfits => by
    rw [Fits, hu, ← Pattern.getElem?_toList] at hfits
    exact h (List.mem_of_getElem? hfits)
  rw [step, if_neg (hmiss t rfl), if_neg (hmiss t.fallBack rfl)]

theorem after_cursor_le_of_apart (h : ∀ b ∈ bs, b ∉ t.pattern.toList) :
    (t.after bs).cursor ≤ t.cursor - bs.length := by
  induction bs generalizing t with
  | nil => exact Nat.le_refl _
  | cons b bs ih =>
      obtain ⟨hb, hbs⟩ := List.forall_mem_cons.mp h
      have hrest := ih (t := t.fallBack) hbs
      have hback : t.fallBack.cursor ≤ t.cursor - 1 := by
        rcases Nat.eq_zero_or_pos t.cursor with hzero | hpos
        · exact Nat.le_trans t.fallBack_cursor_le (by omega)
        · exact Nat.le_sub_one_of_lt (t.pattern.lap_lt hpos)
      rw [after_cons, step_of_notMem hb, List.length_cons]
      show (t.fallBack.after bs).cursor ≤ _
      omega

theorem hits_of_apart (h : ∀ b ∈ bs, b ∉ t.pattern.toList) : t.hits bs = [] := by
  refine List.eq_nil_iff_forall_not_mem.mpr fun i hi => ?_
  obtain ⟨b, hb, hhit⟩ := mem_hits.mp hi
  have hmiss : b ∉ (t.after (bs.take i)).pattern.toList := by
    rw [after_pattern]
    exact h b (List.mem_of_getElem? hb)
  rw [step_of_notMem hmiss] at hhit
  cases hhit

/-! ## The pattern itself -/

/-- A tracker that has seen nothing reports its pattern with the last byte of it. -/
theorem mem_hits_pattern (ht : t.cursor = 0) {i : Nat} :
    i ∈ t.hits t.pattern.toList ↔ i + 1 = t.pattern.length := by
  have hstep : i < t.pattern.length → ∃ b, t.pattern.toList[i]? = some b ∧
      ((t.after (t.pattern.toList.take i)).step b).2 = decide (i + 1 = t.pattern.length) := by
    intro hi
    have hlt : i < t.pattern.toList.length := hi
    have hb : t.pattern.toList[i]? = some t.pattern.toList[i] := List.getElem?_eq_getElem hlt
    have hfits : Fits { t with cursor := i } t.pattern.toList[i] :=
      (t.pattern.getElem?_toList i).symm.trans hb
    refine ⟨_, hb, ?_⟩
    rw [after_take ht hi, step, if_pos hfits, advance]
    by_cases hlast : i + 1 = t.pattern.length
    · simp [hlast]
    · simp [hlast]
  constructor
  · intro hi
    obtain ⟨b, hb, hhit⟩ := mem_hits.mp hi
    obtain ⟨b', hb', hlast⟩ := hstep (by simpa using lt_length_of_mem_hits hi)
    obtain rfl := Option.some.inj (hb.symm.trans hb')
    exact of_decide_eq_true (hlast.symm.trans hhit)
  · intro hlast
    obtain ⟨b, hb, hhit⟩ := hstep (by omega)
    exact mem_hits.mpr ⟨b, hb, hhit.trans (decide_eq_true hlast)⟩

theorem mem_hits_after_apart (before : Bytes) (h : ∀ b ∈ bs, b ∉ t.pattern.toList)
    (hlen : (t.after before).cursor ≤ bs.length) {i : Nat} :
    (t.after (before ++ bs)).cursor = 0 ∧
      (i ∈ (t.after (before ++ bs)).hits t.pattern.toList ↔ i + 1 = t.pattern.length) := by
  have hdown := after_cursor_le_of_apart (t := t.after before) (by rwa [after_pattern])
  have hzero : (t.after (before ++ bs)).cursor = 0 := by
    rw [after_append]
    omega
  have hpattern := mem_hits_pattern hzero (i := i)
  rw [after_pattern] at hpattern
  exact ⟨hzero, hpattern⟩

end Tracker

namespace Finder

/-- All of a pattern is covered where bytes that are not in it stand in front, one fewer than it
has itself. -/
theorem covers_of_apart {f : Finder} (hf : f.Sound) {t : Tracker} (ht : t ∈ f.trackers)
    {before gap behind : Bytes} (hgap : ∀ b ∈ gap, b ∉ t.pattern.toList)
    (hlen : t.pattern.length ≤ gap.length + 1) {o : Nat}
    (hle : f.consumed + (before ++ gap).length ≤ o)
    (hlt : o < f.consumed + (before ++ gap).length + t.pattern.length) :
    f.Covers (before ++ gap ++ t.pattern.toList ++ behind) o := by
  have hcursor := Tracker.after_cursor_lt (hf t ht).1 before
  have hlast := (Tracker.mem_hits_after_apart (i := t.pattern.length - 1) before hgap
    (by omega)).2.mpr (by omega)
  refine ⟨by omega, t, ht, (before ++ gap).length + (t.pattern.length - 1), ?_, by omega, by omega⟩
  exact Tracker.mem_hits_append.mpr (.inl (Tracker.mem_hits_append.mpr (.inr ⟨_, hlast, rfl⟩)))

end Finder

/-- A secret with as many bytes in front of it that do not occur in it as it has itself, or one
fewer, is left out of what a run hands on, with at most a marker in its place. Its tracker has
seen nothing when it begins, and reports it with its last byte. -/
theorem isolated_secret_hidden {patterns : List Bytes} (h : [] ∉ patterns) :
    ∃ fresh, Finder.ofPatterns patterns = .ok fresh ∧ ∀ p ∈ patterns,
      (∃ t, Tracker.ofPattern p = .ok t ∧ ∀ before gap : Bytes, (∀ b ∈ gap, b ∉ p) →
        (t.after before).cursor ≤ gap.length →
          (t.after (before ++ gap)).cursor = 0 ∧ (t.after before).hits gap = [] ∧
            ∀ i, i ∈ (t.after (before ++ gap)).hits p ↔ i + 1 = p.length) ∧
      ∀ (marker before gap behind : Bytes) (sink : Sink) (portions : List Bytes),
        (∀ b ∈ gap, b ∉ p) → p.length ≤ gap.length + 1 →
        portions.flatten = before ++ gap ++ p ++ behind →
        let run := (Masker.start fresh marker).session sink portions
        let hidden := fresh.Covers portions.flatten
        let start := (before ++ gap).length
        (∀ d ∈ run, d.error = none) →
          (∀ o, start ≤ o → o < start + p.length → hidden o) ∧
            run.flatMap (·.out) =
              render hidden marker 0 (before ++ gap) ++
                (if StartsRun hidden start then marker else []) ++
                render hidden marker (start + p.length) behind := by
  refine ⟨Finder.fresh patterns, Finder.ofPatterns_eq_ok_iff.mpr ⟨h, rfl⟩, fun p hp => ⟨?_, ?_⟩⟩
  · have hne : p ≠ [] := fun hnil => h (hnil ▸ hp)
    refine ⟨{ pattern := Pattern.ofBytes p }, if_neg (by simpa using hne), ?_⟩
    intro before gap hgap hcursor
    have hlast (i : Nat) :=
      Tracker.mem_hits_after_apart (t := { pattern := Pattern.ofBytes p }) (i := i) before hgap hcursor
    refine ⟨(hlast 0).1, Tracker.hits_of_apart ?_, fun i => (hlast i).2⟩
    rw [Tracker.after_pattern]
    exact hgap
  · intro marker before gap behind sink portions hgap hlen hportions run hidden start hok
    have hf := Finder.sound_fresh h
    have hhidden : ∀ o, start ≤ o → o < start + p.length → hidden o := by
      intro o hle hlt
      show (Finder.fresh patterns).Covers portions.flatten o
      rw [hportions]
      refine Finder.covers_of_apart hf (List.mem_map_of_mem hp) hgap hlen ?_ ?_
      · show 0 + start ≤ o
        omega
      · show o < 0 + start + p.length
        omega
    have hne : p ≠ [] := fun hnil => h (hnil ▸ hp)
    have hend : (before ++ gap ++ p).length = start + p.length := List.length_append
    refine ⟨hhidden, (Masker.session_render hf hok).trans ?_⟩
    refine (congrArg (render hidden marker 0) hportions).trans ?_
    rw [render_append, render_append, Nat.zero_add, Nat.zero_add, hend,
      render_of_forall hne hhidden]

/-- The tracker of `abcabc` has lost a byte of `abcaba`, and so it does not stand where the bytes
before it say. Five times `x` makes it forget that; the last of these is hidden with the secret. -/
theorem isolated_secret_hidden_divided :
    ∃ fresh, Finder.ofPatterns [[120, 97], [97, 98, 99, 97, 98, 99]] = .ok fresh ∧
      let portions : List Bytes := [[97, 98, 99, 97, 98, 97, 120, 120], [120, 120, 120, 97, 98, 99],
        [97, 98, 99, 122]]
      let run := (Masker.start fresh [35]).session {} portions
      (∀ d ∈ run, d.error = none) ∧
        (∀ o, 11 ≤ o → o < 17 → fresh.Covers portions.flatten o) ∧
        run.flatMap (·.out) = [97, 98, 99, 97, 98, 97, 120, 120, 120, 120, 35, 122] := by
  have hne : ([] : Bytes) ∉ ([[120, 97], [97, 98, 99, 97, 98, 99]] : List Bytes) := by decide
  obtain ⟨fresh, hfresh, hrun⟩ := isolated_secret_hidden hne
  obtain rfl := (Finder.ofPatterns_eq_ok_iff.mp hfresh).2
  obtain ⟨-, hhidden⟩ := hrun [97, 98, 99, 97, 98, 99] (by decide)
  have hok : ∀ d ∈ (Masker.start (Finder.fresh [[120, 97], [97, 98, 99, 97, 98, 99]]) [35]).session
      {} [[97, 98, 99, 97, 98, 97, 120, 120], [120, 120, 120, 97, 98, 99], [97, 98, 99, 122]],
      d.error = none := by decide +kernel
  obtain ⟨hcovered, hout⟩ := hhidden [35] [97, 98, 99, 97, 98, 97] [120, 120, 120, 120, 120] [122]
    {} [[97, 98, 99, 97, 98, 97, 120, 120], [120, 120, 120, 97, 98, 99], [97, 98, 99, 122]]
    (by decide +kernel) (by decide) (by decide) hok
  exact ⟨_, hfresh, hok, hcovered, hout.trans (by decide +kernel)⟩

end Redaction
