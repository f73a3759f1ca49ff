import Mathlib.Data.List.Pairwise
import Mathlib.Data.List.Sort
import Redaction.Cover
import Redaction.Proofs.Rendering

/-!
# The runs of what is covered

A run of a set of offsets (`Range.IsRunOf`) is a range in the set with no offset of the set right
in front of it or right behind it. A range in the set that meets a run lies inside it
(`Range.IsRunOf.contains`), so two runs that meet are one.

The ranges of a cover lie apart with at least one offset between them, and so they are the runs of
what the cover covers, each of them and nothing else (`Cover.Canonical.mem_toList_iff`). What is
covered therefore decides which ranges there are and in which order, and nothing is left in the
ranges of how they came in (`Cover.Canonical.toList_eq`).
-/

namespace Redaction

/-- The range is covered and can be made longer at neither end. -/
structure Range.IsRunOf (r : Range) (covered : Nat → Prop) : Prop where
  nonempty : r.start < r.stop
  within : ∀ o, r.start ≤ o → o < r.stop → covered o
  starts : StartsRun covered r.start
  ends : ¬covered r.stop

/-- All of a covered range lies in the run that has one offset of it. -/
theorem Range.IsRunOf.contains {covered : Nat → Prop} {r x : Range} {o : Nat}
    (hr : r.IsRunOf covered) (hx : ∀ o, x.start ≤ o → o < x.stop → covered o)
    (hro : r.start ≤ o ∧ o < r.stop) (hxo : x.start ≤ o ∧ o < x.stop) :
    r.start ≤ x.start ∧ x.stop ≤ r.stop := by
  refine ⟨Nat.le_of_not_lt fun hlt => ?_, Nat.le_of_not_lt fun hlt => ?_⟩
  · rcases hr.starts with hzero | hnot
    · omega
    · exact hnot (hx _ (by omega) (by omega))
  · exact hr.ends (hx _ (by omega) (by omega))

theorem Range.IsRunOf.eq_of_meets {covered : Nat → Prop} {r x : Range} {o : Nat}
    (hr : r.IsRunOf covered) (hx : x.IsRunOf covered) (hro : r.start ≤ o ∧ o < r.stop)
    (hxo : x.start ≤ o ∧ o < x.stop) : r = x := by
  obtain ⟨hstart, hstop⟩ := hr.contains hx.within hro hxo
  obtain ⟨hstart', hstop'⟩ := hx.contains hr.within hxo hro
  cases r
  cases x
  congr
  · exact Nat.le_antisymm hstart hstart'
  · exact Nat.le_antisymm hstop' hstop

namespace Cover

variable {base : Nat} {c : Cover} {r x : Range}

/-- Two ranges of a cover have an offset between them. -/
theorem Canonical.apart (hc : c.Canonical base) (hr : r ∈ c.toList) (hx : x ∈ c.toList) :
    r = x ∨ r.stop < x.start ∨ x.stop < r.start := by
  have hsymm : Std.Symm fun a b : Range => a.stop < b.start ∨ b.stop < a.start :=
    ⟨fun _ _ => Or.symm⟩
  have hpair : c.toList.Pairwise fun a b => a.stop < b.start ∨ b.stop < a.start := hc.2.imp .inl
  exact or_iff_not_imp_left.mpr (hpair.forall hr hx)

theorem Canonical.isRunOf (hc : c.Canonical base) (hr : r ∈ c.toList) : r.IsRunOf c.Covers where
  nonempty := (hc.1 r hr).2
  within := fun o hle hlt => ⟨r, hr, hle, hlt⟩
  starts := by
    rcases Nat.eq_zero_or_pos r.start with hzero | hpos
    · exact .inl hzero
    · refine .inr ?_
      rintro ⟨x, hx, hle, hlt⟩
      have hrlt := (hc.1 r hr).2
      have hxlt := (hc.1 x hx).2
      rcases hc.apart hr hx with rfl | hbehind | hbefore <;> omega
  ends := by
    rintro ⟨x, hx, hle, hlt⟩
    have hrlt := (hc.1 r hr).2
    rcases hc.apart hr hx with rfl | hbehind | hbefore <;> omega

/-- The ranges of a cover are the runs of what it covers. -/
theorem Canonical.mem_toList_iff (hc : c.Canonical base) :
    r ∈ c.toList ↔ r.IsRunOf c.Covers := by
  refine ⟨hc.isRunOf, fun hr => ?_⟩
  obtain ⟨x, hx, hxo⟩ := hr.within r.start (Nat.le_refl _) hr.nonempty
  obtain rfl := hr.eq_of_meets (hc.isRunOf hx) ⟨Nat.le_refl _, hr.nonempty⟩ hxo
  exact hx

theorem Canonical.ascending (hc : c.Canonical base) :
    c.toList.Pairwise fun a b => a.start < b.start :=
  hc.2.imp_of_mem fun ha _ hlt => Nat.lt_trans (hc.1 _ ha).2 hlt

/-- Covers of the same offsets have the same ranges. -/
theorem Canonical.toList_eq {base' : Nat} {c' : Cover} (hc : c.Canonical base)
    (hc' : c'.Canonical base') (h : ∀ o, c.Covers o ↔ c'.Covers o) : c.toList = c'.toList := by
  have hasymm : Std.Asymm fun a b : Range => a.start < b.start := ⟨fun _ _ => Nat.lt_asymm⟩
  have hcovers : c.Covers = c'.Covers := funext fun o => propext (h o)
  refine hc.ascending.eq_of_mem_iff hc'.ascending fun r => ?_
  rw [hc.mem_toList_iff, hc'.mem_toList_iff, hcovers]

end Cover

/-- What the ranges of a cover are when ranges have been added, whatever those are and however many
there are of them. They lie apart and in order as before and cover what was covered and, at or
behind the base, what was added. So they are the runs of these offsets, and it makes no difference
in which order the ranges came or how often. -/
theorem ranges_are_runs {base : Nat} {c : Cover} (hc : c.Canonical base) (added : List Range) :
    let c' := added.foldl (Cover.addRange base) c
    let covered (o : Nat) := c.Covers o ∨ base ≤ o ∧ ∃ r ∈ added, r.start ≤ o ∧ o < r.stop
    c'.Canonical base ∧ (∀ o, c'.Covers o ↔ covered o) ∧
      (∀ r, r ∈ c'.toList ↔ r.IsRunOf covered) ∧
      ∀ again : List Range, (∀ r, r ∈ again ↔ r ∈ added) →
        (again.foldl (Cover.addRange base) c).toList = c'.toList := by
  intro c' covered
  have hc' : c'.Canonical base := Cover.canonical_foldl_addRange hc added
  have hcovers (o : Nat) : c'.Covers o ↔ covered o := Cover.covers_foldl_addRange.trans or_comm
  refine ⟨hc', hcovers, fun r => ?_, fun again hagain => ?_⟩
  · have hcovered : c'.Covers = covered := funext fun o => propext (hcovers o)
    rw [hc'.mem_toList_iff, hcovered]
  · refine (Cover.canonical_foldl_addRange hc again).toList_eq hc' fun o => ?_
    rw [hcovers, Cover.covers_foldl_addRange, or_comm]
    simp only [hagain, covered]

/-- Two ranges with a gap between them. What is added fills the gap, touches the first of them from
before the base, ends before it starts, or stands alone, and some of it comes again. -/
theorem ranges_are_runs_touching :
    let c : Cover := { front := [⟨3, 5⟩], latestFirst := [⟨8, 10⟩] }
    let added : List Range := [⟨12, 11⟩, ⟨5, 8⟩, ⟨0, 2⟩, ⟨14, 15⟩, ⟨1, 3⟩]
    let again : List Range := [⟨1, 3⟩, ⟨14, 15⟩, ⟨5, 8⟩, ⟨14, 15⟩, ⟨0, 2⟩, ⟨12, 11⟩]
    c.Canonical 2 ∧ (added.foldl (Cover.addRange 2) c).toList = [⟨2, 10⟩, ⟨14, 15⟩] ∧
      (again.foldl (Cover.addRange 2) c).toList = [⟨2, 10⟩, ⟨14, 15⟩] ∧
      (⟨2, 10⟩ : Range).IsRunOf fun o =>
        c.Covers o ∨ 2 ≤ o ∧ ∃ r ∈ added, r.start ≤ o ∧ o < r.stop := by
  intro c added again
  have hc : c.Canonical 2 := ⟨by decide, by decide⟩
  have hlist : (added.foldl (Cover.addRange 2) c).toList = [⟨2, 10⟩, ⟨14, 15⟩] := by decide
  obtain ⟨-, -, hruns, hsame⟩ := ranges_are_runs hc added
  have hto : ∀ r ∈ again, r ∈ added := by decide
  have hfrom : ∀ r ∈ added, r ∈ again := by decide
  refine ⟨hc, hlist, (hsame again fun r => ⟨hto r, hfrom r⟩).trans hlist, (hruns _).mp ?_⟩
  rw [hlist]
  exact List.mem_cons_self

end Redaction
