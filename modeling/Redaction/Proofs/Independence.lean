import Redaction.Proofs.Hiding
import Redaction.Proofs.Merging

/-!
# Patterns do not interfere

A finder with many patterns runs one tracker for each, and no tracker looks at another. So what it
finds is what finders for some of the patterns and for the others find together (`Finder.Joins`),
portion by portion, and merging their tables loses nothing, because a table keeps the longest span
at a start whichever of the two it came from.

A masker is another matter at first sight: with one pattern more it may have to hold back more,
so it gets to everything later, and joins and goes on with ranges at other points of the stream.
But what it leaves out in the end are the covered offsets (`Masker.hidden_session_iff`), and these
do add up.

Nothing here depends on the order of the patterns or on how often one occurs among them, since
`Finder.Joins` says only which trackers there are.
-/

namespace Redaction

namespace Finder

/-- The finder has the trackers of the two others and no more, in whatever order and however often
each of them. -/
structure Joins (f g h : Finder) : Prop where
  left_consumed : g.consumed = f.consumed
  right_consumed : h.consumed = f.consumed
  mem_trackers : ∀ t, t ∈ f.trackers ↔ t ∈ g.trackers ∨ t ∈ h.trackers

/-- The tables that the portions are reported in. -/
def tables (f : Finder) (portions : List Bytes) : List SpanTable :=
  (f.feedEach portions).map (·.2)

section

variable {f g h : Finder}

theorem Joins.feed (hj : Joins f g h) (portion : Bytes) :
    Joins (f.feed portion).1 (g.feed portion).1 (h.feed portion).1 where
  left_consumed := by rw [feed_consumed, feed_consumed, hj.left_consumed]
  right_consumed := by rw [feed_consumed, feed_consumed, hj.right_consumed]
  mem_trackers := fun t => by
    simp only [feed_finder, List.mem_map, hj.mem_trackers, or_and_right, exists_or]

theorem Joins.mem_hitSpans (hj : Joins f g h) {bs : Bytes} {s : Span} :
    s ∈ f.hitSpans bs ↔ s ∈ g.hitSpans bs ∨ s ∈ h.hitSpans bs := by
  simp only [Finder.mem_hitSpans, hj.mem_trackers, hj.left_consumed, hj.right_consumed,
    or_and_right, exists_or]

theorem Joins.feed_table (hj : Joins f g h) (portion : Bytes) :
    (f.feed portion).2 = (g.feed portion).2.merge (h.feed portion).2 := by
  rw [Finder.feed_table, Finder.feed_table, Finder.feed_table, ← SpanTable.ofList_append]
  refine SpanTable.ofList_congr fun s => ?_
  rw [hj.mem_hitSpans, List.mem_append]

theorem Joins.tables_eq (hj : Joins f g h) (portions : List Bytes) :
    f.tables portions = List.zipWith SpanTable.merge (g.tables portions) (h.tables portions) := by
  induction portions generalizing f g h with
  | nil => rfl
  | cons portion rest ih =>
      simp only [tables, feedEach, List.map_cons, List.zipWith_cons_cons]
      rw [hj.feed_table portion]
      exact congrArg _ (ih (hj.feed portion))

theorem Joins.covers_iff (hj : Joins f g h) {stream : Bytes} {o : Nat} :
    f.Covers stream o ↔ g.Covers stream o ∨ h.Covers stream o := by
  simp only [Covers, hj.mem_trackers, hj.left_consumed, hj.right_consumed, or_and_right, exists_or,
    and_or_left]

end

/-! ## Finders for lists of patterns -/

theorem joins_fresh {patterns as bs : List Bytes}
    (h : ∀ p, p ∈ patterns ↔ p ∈ as ∨ p ∈ bs) :
    Joins (fresh patterns) (fresh as) (fresh bs) where
  left_consumed := rfl
  right_consumed := rfl
  mem_trackers := fun t => by
    simp only [fresh, List.mem_map, h, or_and_right, exists_or]

/-- The patterns are the same but for their order and how often each occurs. -/
theorem tables_fresh_congr {as bs : List Bytes} (h : ∀ p, p ∈ as ↔ p ∈ bs)
    (portions : List Bytes) : (fresh as).tables portions = (fresh bs).tables portions := by
  have hj : Joins (fresh as) (fresh bs) (fresh bs) := joins_fresh fun p => by rw [h, or_self]
  rw [hj.tables_eq, List.zipWith_self]
  simp [SpanTable.merge_self]

theorem covers_fresh_congr {as bs : List Bytes} (h : ∀ p, p ∈ as ↔ p ∈ bs) {stream : Bytes}
    {o : Nat} : (fresh as).Covers stream o ↔ (fresh bs).Covers stream o := by
  have hj : Joins (fresh as) (fresh bs) (fresh bs) := joins_fresh fun p => by rw [h, or_self]
  rw [hj.covers_iff, or_self]

end Finder

/-- What two lists of patterns lead to together. Every portion is reported in the merged tables of
the two; a run leaves out what runs with the one or the other leave out, each with a sink and
portions of its own, and what it hands on is the rest with a marker for each gap. Lists with the
same patterns, in another order or repeated, are reported in the same tables and have the same
runs. -/
theorem patterns_independent {as bs : List Bytes} (has : [] ∉ as) (hbs : [] ∉ bs) :
    ∃ f g both, Finder.ofPatterns as = .ok f ∧ Finder.ofPatterns bs = .ok g ∧
      Finder.ofPatterns (as ++ bs) = .ok both ∧
      (∀ portions : List Bytes, both.tables portions =
        List.zipWith SpanTable.merge (f.tables portions) (g.tables portions)) ∧
      (∀ (marker : Bytes) (sink₁ sink₂ sink₃ : Sink) (portions₁ portions₂ portions₃ : List Bytes),
        portions₂.flatten = portions₁.flatten → portions₃.flatten = portions₁.flatten →
        let run₁ := (Masker.start f marker).session sink₁ portions₁
        let run₂ := (Masker.start g marker).session sink₂ portions₂
        let run₃ := (Masker.start both marker).session sink₃ portions₃
        (∀ d ∈ run₁ ++ run₂ ++ run₃, d.error = none) →
          (∀ o, HiddenIn run₃ o ↔ HiddenIn run₁ o ∨ HiddenIn run₂ o) ∧
          run₃.flatMap (·.out) = render (HiddenIn run₃) marker 0 portions₃.flatten) ∧
      ∀ patterns : List Bytes, (∀ p, p ∈ patterns ↔ p ∈ as) →
        ∃ same, Finder.ofPatterns patterns = .ok same ∧
          (∀ portions : List Bytes, same.tables portions = f.tables portions) ∧
          ∀ (marker : Bytes) (sink₁ sink₂ : Sink) (portions₁ portions₂ : List Bytes),
            portions₂.flatten = portions₁.flatten →
            let run₁ := (Masker.start f marker).session sink₁ portions₁
            let run₂ := (Masker.start same marker).session sink₂ portions₂
            (∀ d ∈ run₁ ++ run₂, d.error = none) →
              run₂.flatMap (·.out) = run₁.flatMap (·.out) := by
  have hboth : [] ∉ as ++ bs := List.not_mem_append has hbs
  have hjoins := Finder.joins_fresh fun p => List.mem_append (a := p) (s := as) (t := bs)
  refine ⟨.fresh as, .fresh bs, .fresh (as ++ bs), Finder.ofPatterns_eq_ok_iff.mpr ⟨has, rfl⟩,
    Finder.ofPatterns_eq_ok_iff.mpr ⟨hbs, rfl⟩, Finder.ofPatterns_eq_ok_iff.mpr ⟨hboth, rfl⟩,
    hjoins.tables_eq, ?_, ?_⟩
  · intro marker sink₁ sink₂ sink₃ portions₁ portions₂ portions₃ h₂ h₃ run₁ run₂ run₃ hok
    obtain ⟨hok, hok₃⟩ := List.forall_mem_append.mp hok
    obtain ⟨hok₁, hok₂⟩ := List.forall_mem_append.mp hok
    have hidden₃ (o : Nat) :
        HiddenIn run₃ o ↔ (Finder.fresh (as ++ bs)).Covers portions₃.flatten o :=
      Masker.hidden_session_iff (Finder.sound_fresh hboth) hok₃
    refine ⟨fun o => ?_, ?_⟩
    · rw [hidden₃, hjoins.covers_iff, Masker.hidden_session_iff (Finder.sound_fresh has) hok₁,
        Masker.hidden_session_iff (Finder.sound_fresh hbs) hok₂, h₂, h₃]
    · rw [Masker.session_render (Finder.sound_fresh hboth) hok₃]
      exact render_congr fun o _ => (hidden₃ o).symm
  · intro patterns hsame
    have hpatterns : [] ∉ patterns := mt (hsame []).mp has
    refine ⟨.fresh patterns, Finder.ofPatterns_eq_ok_iff.mpr ⟨hpatterns, rfl⟩,
      Finder.tables_fresh_congr hsame, ?_⟩
    intro marker sink₁ sink₂ portions₁ portions₂ h₂ run₁ run₂ hok
    obtain ⟨hok₁, hok₂⟩ := List.forall_mem_append.mp hok
    rw [Masker.session_render (Finder.sound_fresh has) hok₁,
      Masker.session_render (Finder.sound_fresh hpatterns) hok₂, h₂]
    exact render_congr fun o _ => Finder.covers_fresh_congr hsame

/-- The ranges of the two patterns overlap, and the three runs are divided in different ways. With
both patterns one marker stands for all five bytes. -/
theorem patterns_independent_overlapping :
    ∃ f g both, Finder.ofPatterns [[97, 98]] = .ok f ∧
      Finder.ofPatterns [[98, 99, 100, 101]] = .ok g ∧
      Finder.ofPatterns [[97, 98], [98, 99, 100, 101]] = .ok both ∧
      let run₁ := (Masker.start f [35]).session {} [[120, 97, 98, 99, 100, 101, 121]]
      let run₂ := (Masker.start g [35]).session {} [[120, 97, 98], [99, 100], [101, 121]]
      let run₃ := (Masker.start both [35]).session {} [[120, 97], [98, 99, 100], [], [101, 121]]
      (∀ d ∈ run₁ ++ run₂ ++ run₃, d.error = none) ∧
        (∀ o, HiddenIn run₃ o ↔ HiddenIn run₁ o ∨ HiddenIn run₂ o) ∧
        HiddenIn run₁ 1 ∧ ¬HiddenIn run₂ 1 ∧ HiddenIn run₂ 5 ∧ ¬HiddenIn run₁ 5 ∧
        run₃.flatMap (·.out) = [120, 35, 121] := by
  have has : ([] : Bytes) ∉ ([[97, 98]] : List Bytes) := by decide
  have hbs : ([] : Bytes) ∉ ([[98, 99, 100, 101]] : List Bytes) := by decide
  obtain ⟨f, g, both, hf, hg, hboth, -, hruns, -⟩ := patterns_independent has hbs
  refine ⟨f, g, both, hf, hg, hboth, ?_⟩
  obtain rfl := (Finder.ofPatterns_eq_ok_iff.mp hf).2
  obtain rfl := (Finder.ofPatterns_eq_ok_iff.mp hg).2
  obtain rfl := (Finder.ofPatterns_eq_ok_iff.mp hboth).2
  have hok : ∀ d ∈ (Masker.start (.fresh [[97, 98]]) [35]).session {}
        [[120, 97, 98, 99, 100, 101, 121]] ++
      (Masker.start (.fresh [[98, 99, 100, 101]]) [35]).session {}
        [[120, 97, 98], [99, 100], [101, 121]] ++
      (Masker.start (.fresh [[97, 98], [98, 99, 100, 101]]) [35]).session {}
        [[120, 97], [98, 99, 100], [], [101, 121]], d.error = none := by decide +kernel
  obtain ⟨hunion, -⟩ := hruns [35] {} {} {} [[120, 97, 98, 99, 100, 101, 121]]
    [[120, 97, 98], [99, 100], [101, 121]] [[120, 97], [98, 99, 100], [], [101, 121]]
    (by decide) (by decide) hok
  exact ⟨hok, hunion, by decide +kernel, by decide +kernel, by decide +kernel, by decide +kernel,
    by decide +kernel⟩

end Redaction
