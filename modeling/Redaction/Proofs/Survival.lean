import Redaction.Proofs.Masking

/-!
# Secrets that come out again

A marker that shares no byte with a pattern cannot help to form it, so the pattern comes out
of a run only where it went in, whole, with no byte of it covered. A finder that has read
what was before either notices something while the pattern passes, and then covers some of
it, or it does not, and then the pattern comes out if nothing follows. So a finder hides its
patterns in all runs just when each of them is noticed, whatever came before
(`hides_iff_notices`).

It is not always so. A tracker falls back once and loses the byte when that does not help, and
where its cursor then stands may be a place from which the pattern passes unseen. For a single
pattern the places are few and can be tried one by one (`Pattern.Watertight`), and patterns
that are watertight one by one are hidden together.
-/

namespace Redaction

/-! ## Trackers that see their pattern pass -/

namespace Tracker

theorem after_take {t : Tracker} (ht : t.cursor = 0) {c : Nat} (hc : c < t.pattern.length) :
    t.after (t.pattern.toList.take c) = { t with cursor := c } := by
  induction c with
  | zero =>
      rw [List.take_zero, after_nil, ← ht]
  | succ c ih =>
      have hlt : c < t.pattern.toList.length := by
        rw [Pattern.length_toList]
        omega
      rw [List.take_succ_eq_append_getElem hlt, after_append, ih (by omega), after_cons, after_nil]
      have hfits : Fits { t with cursor := c } t.pattern.toList[c] := by
        rw [Fits, ← Pattern.getElem?_toList]
        exact List.getElem?_eq_getElem hlt
      have hne : c + 1 ≠ t.pattern.length := by omega
      rw [step, if_pos hfits, advance, if_neg hne]

end Tracker

/-- Wherever a tracker of the pattern stands, it reports something while the pattern passes. -/
def Pattern.Watertight (p : Pattern) : Prop :=
  ∀ c < p.length, ({ pattern := p, cursor := c } : Tracker).hits p.toList ≠ []

instance (p : Pattern) : Decidable p.Watertight :=
  inferInstanceAs (Decidable (∀ c < p.length, _))

namespace Finder

variable {f : Finder} {before s : Bytes}

/-- Some pattern is reported while the bytes are read. -/
def Notices (f : Finder) (bs : Bytes) : Prop := ∃ t ∈ f.trackers, t.hits bs ≠ []

theorem notices_iff_covers (hf : f.Sound) :
    (f.feed before).1.Notices s ↔
      ∃ o, f.consumed + before.length ≤ o ∧ o < f.consumed + before.length + s.length ∧
        f.Covers (before ++ s) o := by
  rw [feed_finder, Notices]
  constructor
  · rintro ⟨_, hmem, hhit⟩
    obtain ⟨t, ht, rfl⟩ := List.mem_map.mp hmem
    obtain ⟨i, hi⟩ := List.exists_mem_of_ne_nil _ hhit
    have hlt := Tracker.lt_length_of_mem_hits hi
    have hpos := Nat.zero_lt_of_lt (hf t ht).1
    refine ⟨f.consumed + (before.length + i), by omega, by omega, by omega, t, ht,
      before.length + i, Tracker.mem_hits_append.mpr (.inr ⟨i, hi, rfl⟩), by omega, by omega⟩
  · rintro ⟨o, hle, -, -, t, ht, i, hi, hoi, -⟩
    refine ⟨_, List.mem_map_of_mem ht, ?_⟩
    rcases Tracker.mem_hits_append.mp hi with hbefore | ⟨j, hj, -⟩
    · have := Tracker.lt_length_of_mem_hits hbefore
      omega
    · exact List.ne_nil_of_mem hj

/-- No rendering has the pattern in it just when it is noticed whatever came before. -/
theorem not_isInfix_render_iff_notices (hf : f.Sound) {marker : Bytes} (hs : s ≠ [])
    (hmarker : marker ≠ []) (hapart : ∀ b ∈ s, b ∉ marker) :
    (∀ bs, ¬s <:+: render (f.Covers bs) marker f.consumed bs) ↔
      ∀ before, (f.feed before).1.Notices s := by
  constructor
  · intro h before
    rw [notices_iff_covers hf]
    refine Classical.byContradiction fun hnone => ?_
    refine h (before ++ s) ((isInfix_render_iff hs hmarker hapart).mpr
      ⟨before, [], (List.append_nil _).symm, fun o hle hlt hcov => hnone ⟨o, hle, hlt, hcov⟩⟩)
  · intro h bs hin
    obtain ⟨before, behind, rfl, hclear⟩ := (isInfix_render_iff hs hmarker hapart).mp hin
    obtain ⟨o, hle, hlt, hcov⟩ := (notices_iff_covers hf).mp (h before)
    exact hclear o hle hlt (hcov.append hf behind)

/-! ## Single patterns -/

theorem notices_of_watertight {t : Tracker} (ht : t ∈ f.trackers) (hf : f.Sound)
    (h : t.pattern.Watertight) (before : Bytes) :
    (f.feed before).1.Notices t.pattern.toList := by
  have hlt := Tracker.after_cursor_lt (hf t ht).1 before
  refine ⟨t.after before, ?_, ?_⟩
  · rw [feed_finder]
    exact List.mem_map_of_mem ht
  · have hafter : t.after before = { pattern := t.pattern, cursor := (t.after before).cursor } :=
      congrArg (Tracker.mk · _) (t.after_pattern before)
    rw [hafter]
    exact h _ hlt

/-- Every place that a tracker can stand at is reached, so a pattern on its own is noticed
whatever came before only if it is watertight. -/
theorem notices_singleton_iff {p : Bytes} (h : [] ∉ [p]) :
    (∀ before, ((fresh [p]).feed before).1.Notices p) ↔ (Pattern.ofBytes p).Watertight := by
  constructor
  · intro hall c hc
    obtain ⟨t, ht, hhit⟩ := hall (p.take c)
    rw [feed_finder] at ht
    obtain ⟨u, hu, rfl⟩ := List.mem_map.mp ht
    obtain rfl := List.mem_singleton.mp hu
    have hafter := Tracker.after_take (t := { pattern := Pattern.ofBytes p }) rfl hc
    rw [Pattern.toList_ofBytes] at hafter
    rwa [hafter] at hhit
  · intro hwater before
    exact notices_of_watertight (f := fresh [p]) List.mem_cons_self (sound_fresh h) hwater before

/-! ## Runs -/

/-- None of the patterns comes out of a run in which the sink refuses nothing. -/
def Hides (f : Finder) (marker : Bytes) (patterns : List Bytes) : Prop :=
  ∀ (sink : Sink) (portions : List Bytes),
    let run := (Masker.start f marker).session sink portions
    (∀ d ∈ run, d.error = none) → ∀ p ∈ patterns, ¬p <:+: run.flatMap (·.out)

theorem hides_iff {marker : Bytes} {patterns : List Bytes} (hf : f.Sound) :
    f.Hides marker patterns ↔
      ∀ p ∈ patterns, ∀ bs, ¬p <:+: render (f.Covers bs) marker f.consumed bs := by
  constructor
  · intro h p hp bs
    have hopen : Sink.Open {} := ⟨rfl, rfl, rfl⟩
    have hok := (Masker.faithful_start hf marker).session_open hf Masker.settled_start hopen [bs]
    have hout := h {} [bs] hok p hp
    rwa [Masker.session_render hf hok, List.flatten_singleton] at hout
  · intro h sink portions run hok p hp
    rw [Masker.session_render hf hok]
    exact h p hp portions.flatten

theorem hides_iff_notices {marker : Bytes} {patterns : List Bytes} (hf : f.Sound)
    (hne : [] ∉ patterns) (hmarker : marker ≠ []) (hapart : ∀ p ∈ patterns, ∀ b ∈ p, b ∉ marker) :
    f.Hides marker patterns ↔ ∀ p ∈ patterns, ∀ before, (f.feed before).1.Notices p := by
  rw [hides_iff hf]
  refine forall₂_congr fun p hp => not_isInfix_render_iff_notices hf ?_ hmarker (hapart p hp)
  rintro rfl
  exact hne hp

end Finder

/-- When the patterns are hidden. A pattern comes out of a run where it went in with no byte of it
covered; none ever does just when each is noticed while it passes, whatever came before. It is
enough that each on its own is watertight, and for a single pattern that is what it takes. -/
theorem secrets_hidden_iff {patterns : List Bytes} {marker : Bytes} (hne : [] ∉ patterns)
    (hmarker : marker ≠ []) (hapart : ∀ p ∈ patterns, ∀ b ∈ p, b ∉ marker) :
    ∃ fresh, Finder.ofPatterns patterns = .ok fresh ∧
      (∀ (sink : Sink) (portions : List Bytes),
        let run := (Masker.start fresh marker).session sink portions
        (∀ d ∈ run, d.error = none) → ∀ p ∈ patterns,
          (p <:+: run.flatMap (·.out) ↔
            ∃ before behind, portions.flatten = before ++ p ++ behind ∧
              ∀ o, before.length ≤ o → o < before.length + p.length →
                ¬fresh.Covers portions.flatten o)) ∧
      (fresh.Hides marker patterns ↔ ∀ p ∈ patterns, ∀ before, (fresh.feed before).1.Notices p) ∧
      ((∀ p ∈ patterns, (Pattern.ofBytes p).Watertight) → fresh.Hides marker patterns) ∧
      ∀ p, patterns = [p] → (fresh.Hides marker [p] ↔ (Pattern.ofBytes p).Watertight) := by
  have hsound := Finder.sound_fresh hne
  have hiff := Finder.hides_iff_notices hsound hne hmarker hapart
  refine ⟨Finder.fresh patterns, Finder.ofPatterns_eq_ok_iff.mpr ⟨hne, rfl⟩, ?_, hiff, ?_, ?_⟩
  · intro sink portions run hok p hp
    have hne' : p ≠ [] := fun hnil => hne (hnil ▸ hp)
    rw [Masker.session_render hsound hok, isInfix_render_iff hne' hmarker (hapart p hp)]
    simp only [show (Finder.fresh patterns).consumed = 0 from rfl, Nat.zero_add]
  · intro hwater
    rw [hiff]
    intro p hp
    exact Finder.notices_of_watertight (List.mem_map_of_mem hp) hsound (hwater p hp)
  · rintro p rfl
    rw [hiff, List.forall_mem_singleton]
    exact Finder.notices_singleton_iff hne

/-- A pattern with a beginning that recurs in it, and is hidden all the same. -/
theorem secrets_hidden_iff_recurring :
    ∃ fresh, Finder.ofPatterns [[97, 97, 98]] = .ok fresh ∧ fresh.Hides [35] [[97, 97, 98]] := by
  have hne : ([] : Bytes) ∉ ([[97, 97, 98]] : List Bytes) := by decide
  have hapart : ∀ p ∈ ([[97, 97, 98]] : List Bytes), ∀ b ∈ p, b ∉ ([35] : Bytes) := by
    decide +kernel
  obtain ⟨fresh, hfresh, -, -, -, hsingle⟩ := secrets_hidden_iff hne (by decide) hapart
  exact ⟨fresh, hfresh, (hsingle _ rfl).mpr (by decide +kernel)⟩

/-- The tracker of `abcabc` stands behind `abcab` when an `a` comes. It falls back to `ab`, the
`a` is lost, and of the `abcabc` that begins there only the second half is seen. -/
theorem secret_comes_out :
    ∃ fresh, Finder.ofPatterns [[97, 98, 99, 97, 98, 99]] = .ok fresh ∧
      let run := (Masker.start fresh [35]).session {} [[97, 98, 99, 97, 98, 97, 98, 99, 97, 98, 99]]
      (∀ d ∈ run, d.error = none) ∧ [97, 98, 99, 97, 98, 99] <:+: run.flatMap (·.out) :=
  ⟨_, Finder.ofPatterns_eq_ok_iff.mpr ⟨by decide, rfl⟩, by decide +kernel, by decide +kernel⟩

end Redaction
