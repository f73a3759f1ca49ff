import Redaction.Proofs.Refusal

/-!
# What a run leaves out

The acts of a delivery say which offsets it leaves out, and a run leaves out what one of its
deliveries does (`HiddenIn`). Where nothing is refused, a delivery leaves out what the ranges of
the masker cover of the bytes that it lets go (`Masker.Consistent.hides_deliver`): what it does not
get to is still covered behind it.

A delivery may let bytes go before all of the stream has come, but only when they are settled. So
a whole run leaves out what the stream as a whole has covered, and nothing else
(`Masker.hidden_session_iff`).
-/

namespace Redaction

/-- The offset is left out by a delivery of the run. -/
def HiddenIn (run : List Delivery) (o : Nat) : Prop := ∃ d ∈ run, ∃ act ∈ d.done, act.Hides o

instance (run : List Delivery) : DecidablePred (HiddenIn run) := fun _ =>
  inferInstanceAs (Decidable (∃ d ∈ run, _))

@[simp] theorem hiddenIn_cons {d : Delivery} {run : List Delivery} {o : Nat} :
    HiddenIn (d :: run) o ↔ (∃ act ∈ d.done, act.Hides o) ∨ HiddenIn run o :=
  List.exists_mem_cons_iff ..

@[simp] theorem not_hiddenIn_nil {o : Nat} : ¬HiddenIn [] o := by
  rintro ⟨d, hd, -⟩
  cases hd

namespace Masker

section

variable {m m' : Masker} {left left' : Held} {acts : List Act} {o : Nat}

/-- The acts leave out what is to be hidden of the offsets that they deal with. -/
theorem Deals.hides_iff (h : Deals m left acts m' left') (hc : m.Consistent left) :
    (∃ act ∈ acts, act.Hides o) ↔ m.cover.Covers o ∧ o < left'.start := by
  constructor
  · intro ho
    exact ⟨h.covers_iff.mpr (.inl ho), (h.bounds_of_hides ho).2⟩
  · rintro ⟨hcov, hlt⟩
    rcases h.covers_iff.mp hcov with ho | hbehind
    · exact ho
    · have hle := (hc.deals h).canonical.le_of_covers hbehind
      omega

theorem Consistent.hides_deliver (hc : m.Consistent m.held) {upto : Nat}
    (hupto : upto ≤ m.finder.consumed) {sink : Sink}
    (hnone : (m.deliver sink upto).error = none) :
    (∃ act ∈ (m.deliver sink upto).done, act.Hides o) ↔
      m.cover.Covers o ∧ o < (m.deliver sink upto).masker.held.start := by
  obtain ⟨m', left', hdeals, ⟨-, -, hmasker, -⟩ | ⟨hsome, -⟩⟩ := deliver_cases hc hupto sink
  · rw [hmasker, hdeals.hides_iff (hc.refill upto), Cover.covers_refill]
  · exact absurd hnone hsome

end

section

variable {f : Finder} {marker stream out : Bytes} {m : Masker} {o : Nat}

theorem Faithful.covers_cover_iff (hf : Faithful f marker stream out m m.held) :
    m.cover.Covers o ↔ m.held.start ≤ o ∧ f.Covers stream o := by
  constructor
  · intro hcov
    have hle := hf.canonical.le_of_covers hcov
    exact ⟨hle, (hf.covers_iff o hle).mp hcov⟩
  · rintro ⟨hle, hcov⟩
    exact (hf.covers_iff o hle).mpr hcov

theorem Faithful.hides_write (hf : Faithful f marker stream out m m.held) (hsound : f.Sound)
    (hs : f.Settled stream m.held.start) {sink : Sink} {portion : Bytes}
    (hnone : (m.write sink portion).error = none) :
    (∃ act ∈ (m.write sink portion).done, act.Hides o) ↔
      (m.held.start ≤ o ∧ f.Covers (stream ++ portion) o) ∧
        o < (m.write sink portion).masker.held.start := by
  have habsorbed := hf.absorb hsound hs portion
  rw [write_eq] at hnone ⊢
  exact (habsorbed.toConsistent.hides_deliver (Nat.sub_le _ m.lag) hnone).trans
    (and_congr_left' habsorbed.covers_cover_iff)

/-- At the end nothing is left, so all is hidden that is still to be. -/
theorem Faithful.hides_finish (hf : Faithful f marker stream out m m.held) {sink : Sink}
    (hnone : (m.finish sink).error = none) :
    (∃ act ∈ (m.finish sink).done, act.Hides o) ↔ m.held.start ≤ o ∧ f.Covers stream o := by
  rw [Masker.finish] at hnone ⊢
  cases herr : (m.deliver sink m.finder.consumed).error with
  | some e => simp [herr] at hnone
  | none =>
      obtain ⟨-, -, hfar⟩ := hf.toConsistent.deliver (Nat.le_refl _) sink
      have hread : m.finder.consumed = f.consumed + stream.length := by
        rw [hf.finder_eq, Finder.feed_consumed]
      refine (hf.toConsistent.hides_deliver (Nat.le_refl _) herr).trans ?_
      rw [hf.covers_cover_iff]
      refine and_iff_left_of_imp ?_
      rintro ⟨-, hcov⟩
      have hlt := hcov.lt
      have hle := hfar herr
      omega

theorem Faithful.hidden_session_iff (hf : Faithful f marker stream out m m.held)
    (hsound : f.Sound) (hs : f.Settled stream m.held.start) {sink : Sink} {portions : List Bytes}
    (h : ∀ d ∈ m.session sink portions, d.error = none) :
    HiddenIn (m.session sink portions) o ↔
      m.held.start ≤ o ∧ f.Covers (stream ++ portions.flatten) o := by
  induction portions generalizing m sink stream out with
  | nil =>
      rw [session_nil] at h ⊢
      rw [hiddenIn_cons, or_iff_left not_hiddenIn_nil, List.flatten_nil, List.append_nil]
      exact hf.hides_finish (h _ List.mem_cons_self)
  | cons portion rest ih =>
      rw [session_cons] at h ⊢
      obtain ⟨hnone, hrest⟩ := List.forall_mem_cons.mp h
      obtain ⟨piece, -, hdone, -⟩ := hf.write hsound hs sink portion
      obtain ⟨hfaithful, hsettled⟩ := hdone hnone
      have hfar := (hf.toConsistent.absorb portion).start_le_deliver (Nat.sub_le _ m.lag) sink
      have hle : m.held.start ≤ (m.write sink portion).masker.held.start := by
        rw [write_eq]
        exact hfar
      rw [hiddenIn_cons, hf.hides_write hsound hs hnone, ih hfaithful hsettled hrest,
        List.flatten_cons, ← List.append_assoc]
      -- What this portion let go is settled, and what it did not comes later.
      constructor
      · rintro (⟨⟨hge, hcov⟩, hlt⟩ | ⟨hge, hcov⟩)
        · exact ⟨hge, (hsettled.covers_iff hsound rest.flatten hlt).mpr hcov⟩
        · exact ⟨Nat.le_trans hle hge, hcov⟩
      · rintro ⟨hge, hcov⟩
        by_cases hlt : o < (m.write sink portion).masker.held.start
        · exact .inl ⟨⟨hge, (hsettled.covers_iff hsound rest.flatten hlt).mp hcov⟩, hlt⟩
        · exact .inr ⟨Nat.le_of_not_lt hlt, hcov⟩

theorem hidden_session_iff {sink : Sink} {portions : List Bytes} (hsound : f.Sound)
    (h : ∀ d ∈ (start f marker).session sink portions, d.error = none) :
    HiddenIn ((start f marker).session sink portions) o ↔ f.Covers portions.flatten o := by
  rw [(faithful_start hsound marker).hidden_session_iff hsound settled_start h, List.nil_append]
  exact and_iff_right_of_imp fun hcov => hcov.1

end

end Masker

end Redaction
