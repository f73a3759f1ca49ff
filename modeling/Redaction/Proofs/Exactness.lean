import Mathlib.Data.List.Perm.Subperm
import Mathlib.Data.List.Sort
import Redaction.Proofs.Isolation
import Redaction.Proofs.Spelling

/-!
# Which patterns are matched exactly

A scan from the left finds a pattern where it first stands, then where it first stands from the end
of that place on, and so on (`Bytes.finds`). A tracker reports just these places if its pattern has
no lap, that is, if nothing but the whole pattern and its last byte can begin with the first byte
(`Pattern.lapFree_iff`). A fallback then leads to the very beginning, so the bytes that the cursor
counts are the last that were read (`Tracker.Ends`), and where the pattern stands the cursor keeps
up with it (`Tracker.le_cursor_of_stands`).

If the pattern has a lap, a byte that fits neither behind the beginning nor behind its lap is lost
between the lap and the rest of the pattern, and the two are reported as if they stood together
(`Tracker.exists_false_hit`).
-/

namespace Redaction

/-! ## Scanning from the left -/

namespace Bytes

/-- The offsets at which a scan finds the pattern. The scan is at `pos`, the bytes are those from
there on, and what was found last ends at `free`. -/
def findsFrom (p : Bytes) (free pos : Nat) : Bytes → List Nat
  | [] => []
  | b :: bs =>
    if free ≤ pos ∧ p <+: b :: bs then pos :: findsFrom p (pos + p.length) (pos + 1) bs
    else findsFrom p free (pos + 1) bs

/-- Where a scan from the left finds the pattern: at the first place where it stands, at the first
from the end of that one on, and so on. -/
def finds (p s : Bytes) : List Nat := findsFrom p 0 0 s

theorem le_of_mem_findsFrom {p s : Bytes} {free pos o : Nat} (h : o ∈ findsFrom p free pos s) :
    pos ≤ o := by
  induction s generalizing free pos with
  | nil => cases h
  | cons b bs ih =>
      rw [findsFrom] at h
      split at h
      · rcases List.mem_cons.mp h with rfl | h
        · exact Nat.le_refl o
        · exact Nat.le_of_succ_le (ih h)
      · exact Nat.le_of_succ_le (ih h)

theorem pairwise_findsFrom (p s : Bytes) (free pos : Nat) :
    (findsFrom p free pos s).Pairwise (· < ·) := by
  induction s generalizing free pos with
  | nil => exact List.Pairwise.nil
  | cons b bs ih =>
      rw [findsFrom]
      split
      · exact List.pairwise_cons.mpr ⟨fun o ho => le_of_mem_findsFrom ho, ih _ _⟩
      · exact ih _ _

/-- The pattern is found where it stands, unless that overlaps with what was found before. -/
theorem mem_findsFrom {p s : Bytes} (hp : p ≠ []) {free pos o : Nat} :
    o ∈ findsFrom p free pos s ↔ free ≤ o ∧ pos ≤ o ∧ p <+: s.drop (o - pos) ∧
      ∀ o' ∈ findsFrom p free pos s, o' < o → o' + p.length ≤ o := by
  induction s generalizing free pos with
  | nil => simp [findsFrom, hp]
  | cons b bs ih =>
      have hdrop (h : pos < o) : (b :: bs).drop (o - pos) = bs.drop (o - (pos + 1)) := by
        rw [show o - pos = o - (pos + 1) + 1 by omega, List.drop_succ_cons]
      rw [findsFrom]
      split
      · rename_i hhere
        rw [List.mem_cons, List.forall_mem_cons, ih]
        constructor
        · rintro (rfl | ⟨hfree, hpos, hstands, hbefore⟩)
          · refine ⟨hhere.1, Nat.le_refl o, by simpa using hhere.2, ?_, ?_⟩
            · exact fun hlt => absurd hlt (Nat.lt_irrefl o)
            · intro o' ho' hlt
              have := le_of_mem_findsFrom ho'
              omega
          · exact ⟨by omega, by omega, hdrop hpos ▸ hstands, fun _ => hfree, hbefore⟩
        · rintro ⟨-, hpos, hstands, hfree, hbefore⟩
          rcases Nat.eq_or_lt_of_le hpos with rfl | hlt
          · exact .inl rfl
          · exact .inr ⟨hfree hlt, hlt, hdrop hlt ▸ hstands, hbefore⟩
      · rename_i hnot
        rw [ih]
        constructor
        · rintro ⟨hfree, hpos, hstands, hbefore⟩
          exact ⟨hfree, by omega, hdrop hpos ▸ hstands, hbefore⟩
        · rintro ⟨hfree, hpos, hstands, hbefore⟩
          rcases Nat.eq_or_lt_of_le hpos with rfl | hlt
          · exact absurd ⟨hfree, by simpa using hstands⟩ hnot
          · exact ⟨hfree, hlt, hdrop hlt ▸ hstands, hbefore⟩

theorem pairwise_finds (p s : Bytes) : (finds p s).Pairwise (· < ·) := pairwise_findsFrom p s 0 0

theorem mem_finds {p s : Bytes} (hp : p ≠ []) {o : Nat} :
    o ∈ finds p s ↔
      p <+: s.drop o ∧ ∀ o' ∈ finds p s, o' < o → o' + p.length ≤ o := by
  have hmem : o ∈ findsFrom p 0 0 s ↔ _ := mem_findsFrom hp
  simpa [finds] using hmem

end Bytes

/-! ## Patterns without laps -/

/-- Falling back always leads to the very beginning. -/
def Pattern.LapFree (p : Pattern) : Prop := ∀ c < p.length, p.lap c = 0

/-- The first byte recurs nowhere but perhaps at the end. -/
theorem Pattern.lapFree_iff {first : UInt8} {rest : Bytes} :
    (ofBytes (first :: rest)).LapFree ↔ first ∉ rest.dropLast := by
  have hlen : (ofBytes (first :: rest)).length = rest.length + 1 := (length_toList _).symm
  constructor
  · intro hfree hmem
    -- Behind the second `first` the cursor has a lap of one byte at least.
    obtain ⟨j, hj, hfirst⟩ := List.getElem_of_mem hmem
    rw [List.length_dropLast] at hj
    have hget : (first :: rest)[j + 1]? = some first := by
      rw [List.getElem?_cons_succ, List.getElem?_eq_getElem (by omega), ← hfirst,
        List.getElem_dropLast]
    have hone : 1 ≤ lapLength (first :: rest) (j + 1 + 1) := by
      refine le_lapLength (by omega) (by rw [List.length_cons]; omega) ?_
      rw [take_succ_of_getElem? hget]
      exact List.suffix_append ..
    have hzero := hfree (j + 1 + 1) (by omega)
    rw [lap_eq (by omega), toList_ofBytes] at hzero
    omega
  · intro hnot c hc
    rw [lap_eq (Nat.le_of_lt hc), toList_ofBytes]
    refine Nat.eq_zero_of_not_pos fun hpos => hnot ?_
    -- Where the lap begins, `first` stands again.
    obtain ⟨front, hfront⟩ := take_lapLength_isSuffix (first :: rest) c
    have hlt : lapLength (first :: rest) c < c := lapLength_lt _ (by
      have := lapLength_le (first :: rest) c
      omega)
    have hsum := congrArg List.length hfront
    rw [List.length_append, List.length_take, List.length_take, List.length_cons] at hsum
    obtain ⟨j, hj⟩ : ∃ j, front.length = j + 1 := ⟨front.length - 1, by omega⟩
    have hget : ((first :: rest).take c)[j + 1]? = some first := by
      rw [← hfront, ← hj, List.getElem?_append_right (Nat.le_refl _), Nat.sub_self,
        List.getElem?_take_of_lt hpos]
      rfl
    rw [List.getElem?_take_of_lt (by omega), List.getElem?_cons_succ] at hget
    refine List.mem_of_getElem? (i := j) ?_
    rw [List.dropLast_eq_take, List.getElem?_take_of_lt (by omega)]
    exact hget

namespace Tracker

/-- The beginning of the pattern up to the cursor is what the bytes end with. -/
def Ends (t : Tracker) (seen : Bytes) : Prop := t.pattern.toList.take t.cursor <:+ seen

variable {t : Tracker} {seen stream : Bytes} {b : UInt8}

theorem ends_of_cursor (h : t.cursor = 0) (seen : Bytes) : t.Ends seen := by
  rw [Ends, h, List.take_zero]
  exact List.nil_suffix

theorem fallBack_cursor_of_lapFree (hfree : t.pattern.LapFree)
    (hlt : t.cursor < t.pattern.length) : t.fallBack.cursor = 0 := hfree t.cursor hlt

theorem Ends.take_succ (h : t.Ends seen) (hfits : t.Fits b) :
    t.pattern.toList.take (t.cursor + 1) <:+ seen ++ [b] := by
  obtain ⟨front, rfl⟩ := h
  rw [take_succ_of_getElem? ((t.pattern.getElem?_toList t.cursor).trans hfits),
    List.append_assoc]
  exact List.suffix_append ..

/-! ## What a tracker without laps has seen -/

/-- The place at which the byte fits, if it fits one, is the end of what the bytes end with. -/
theorem Ends.of_fits (hfree : t.pattern.LapFree) (hlt : t.cursor < t.pattern.length)
    (h : t.Ends seen) {u : Tracker} (hu : u = t ∨ ¬t.Fits b ∧ u = t.fallBack) :
    u.pattern = t.pattern ∧ u.Ends seen := by
  rcases hu with rfl | ⟨-, rfl⟩
  · exact ⟨rfl, h⟩
  · exact ⟨rfl, ends_of_cursor (fallBack_cursor_of_lapFree hfree hlt) seen⟩

theorem Ends.step (hfree : t.pattern.LapFree) (hlt : t.cursor < t.pattern.length)
    (h : t.Ends seen) (b : UInt8) : (t.step b).1.Ends (seen ++ [b]) := by
  rcases t.step_cases b with ⟨u, hu, hfits, hstep⟩ | ⟨-, -, hstep⟩
  · rw [hstep, advance]
    split
    · exact ends_of_cursor rfl _
    · exact (h.of_fits hfree hlt hu).2.take_succ hfits
  · rw [hstep]
    exact ends_of_cursor (fallBack_cursor_of_lapFree hfree hlt) _

theorem Ends.complete (hfree : t.pattern.LapFree) (hlt : t.cursor < t.pattern.length)
    (h : t.Ends seen) (hhit : (t.step b).2 = true) : t.pattern.toList <:+ seen ++ [b] := by
  obtain ⟨u, hu, hfits, hlen, -⟩ := complete_of_step hhit
  obtain ⟨hpattern, hends⟩ := h.of_fits hfree hlt hu
  have hall := hends.take_succ hfits
  rwa [hpattern, ← hlen, ← Pattern.length_toList, List.take_length] at hall

theorem ends_after (hfree : t.pattern.LapFree) (hlt : t.cursor < t.pattern.length)
    (h : t.Ends seen) (bs : Bytes) : (t.after bs).Ends (seen ++ bs) := by
  induction bs generalizing t seen with
  | nil => simpa using h
  | cons b bs ih =>
      have hnext := ih (t := (t.step b).1) (by simpa using hfree)
        (by simpa using step_cursor_lt hlt b) (h.step hfree hlt b)
      simpa using hnext

theorem advance_cursor_of_not (h : t.advance.2 = false) : t.advance.1.cursor = t.cursor + 1 := by
  unfold advance at h ⊢
  split
  · rename_i hlast
    rw [if_pos hlast] at h
    cases h
  · rfl

/-- A cursor that has kept up with the pattern keeps up with one more byte of it. -/
theorem Ends.succ_le_step (hfree : t.pattern.LapFree) (hlt : t.cursor < t.pattern.length)
    (h : t.Ends seen) {m : Nat} (hm : m ≤ t.cursor) (hseen : t.pattern.toList.take m <:+ seen)
    (hb : t.pattern.toList[m]? = some b) (hmiss : (t.step b).2 = false) :
    m + 1 ≤ (t.step b).1.cursor := by
  rw [Pattern.getElem?_toList] at hb
  by_cases hfits : t.Fits b
  · rw [Tracker.step, if_pos hfits] at hmiss ⊢
    rw [advance_cursor_of_not hmiss]
    exact Nat.succ_le_succ hm
  · -- What has been seen of the pattern is shorter than what the cursor counts, with no lap.
    have hne : m ≠ t.cursor := by
      rintro rfl
      exact hfits hb
    have hlap : m ≤ lapLength t.pattern.toList t.cursor := by
      refine le_lapLength (by omega) (by rw [Pattern.length_toList]; omega) ?_
      refine List.suffix_of_suffix_length_le hseen h ?_
      simp only [List.length_take]
      omega
    have hzero : t.fallBack.cursor = 0 := fallBack_cursor_of_lapFree hfree hlt
    rw [← Pattern.lap_eq (Nat.le_of_lt hlt), hfree t.cursor hlt] at hlap
    obtain rfl : m = 0 := Nat.le_zero.mp hlap
    have hback : t.fallBack.Fits b := by
      rw [Fits, hzero]
      exact hb
    rw [Tracker.step, if_neg hfits, if_pos hback] at hmiss ⊢
    rw [advance_cursor_of_not hmiss]
    exact Nat.succ_le_succ (Nat.zero_le _)

/-! ## Hits of a tracker without laps -/

section

variable (hfree : t.pattern.LapFree) (hzero : t.cursor = 0) (hpos : 0 < t.pattern.length)

include hfree hzero hpos

/-- Whatever has been read, the tracker is within its pattern, and the bytes end with what its
cursor counts. -/
theorem after_of_lapFree (bs : Bytes) :
    (t.after bs).pattern.LapFree ∧ (t.after bs).cursor < (t.after bs).pattern.length ∧
      (t.after bs).Ends bs := by
  have hlt : t.cursor < t.pattern.length := hzero ▸ hpos
  refine ⟨?_, ?_, ends_after hfree hlt (ends_of_cursor hzero []) bs⟩
  · rwa [after_pattern]
  · rw [after_pattern]
    exact after_cursor_lt hlt bs

theorem isSuffix_of_mem_hits {i : Nat} (hi : i ∈ t.hits stream) :
    t.pattern.toList <:+ stream.take (i + 1) := by
  obtain ⟨b, hb, hhit⟩ := mem_hits.mp hi
  obtain ⟨hfree', hlt, hends⟩ := after_of_lapFree hfree hzero hpos (stream.take i)
  have hall := hends.complete hfree' hlt hhit
  rwa [after_pattern, ← take_succ_of_getElem? hb] at hall

/-- Where the pattern stands the cursor keeps up with it, as long as there is no hit. -/
theorem le_cursor_of_stands {o m : Nat} (hstands : t.pattern.toList <+: stream.drop o)
    (hm : m ≤ t.pattern.length) (hnone : ∀ k < m, o + k ∉ t.hits stream) :
    m ≤ (t.after (stream.take (o + m))).cursor := by
  induction m with
  | zero => exact Nat.zero_le _
  | succ m ih =>
      have hle := ih (by omega) fun k hk => hnone k (by omega)
      obtain ⟨hfree', hlt, hends⟩ := after_of_lapFree hfree hzero hpos (stream.take (o + m))
      obtain ⟨behind, hbehind⟩ := hstands
      have hlen : m < t.pattern.toList.length := by
        rw [Pattern.length_toList]
        omega
      have hb : t.pattern.toList[m]? = some t.pattern.toList[m] := List.getElem?_eq_getElem hlen
      have hnext : stream[o + m]? = some t.pattern.toList[m] := by
        rw [← List.getElem?_drop, ← hbehind, List.getElem?_append_left hlen, hb]
      have hseen : t.pattern.toList.take m <:+ stream.take (o + m) := by
        rw [List.take_add, ← hbehind, List.take_append_of_le_length (Nat.le_of_lt hlen)]
        exact List.suffix_append ..
      have hmiss : ((t.after (stream.take (o + m))).step t.pattern.toList[m]).2 = false :=
        Bool.eq_false_iff.mpr fun hhit =>
          hnone m (Nat.lt_succ_self m) (mem_hits.mpr ⟨_, hnext, hhit⟩)
      rw [← Nat.add_assoc, take_succ_of_getElem? hnext, after_append, after_cons, after_nil]
      exact hends.succ_le_step hfree' hlt hle (by rwa [after_pattern]) (by rwa [after_pattern])
        hmiss

/-- The pattern does not pass without a hit. -/
theorem exists_hit_of_stands {o : Nat} (hstands : t.pattern.toList <+: stream.drop o) :
    ∃ k < t.pattern.length, o + k ∈ t.hits stream := by
  refine Classical.byContradiction fun hnot => ?_
  have hle := le_cursor_of_stands hfree hzero hpos hstands (Nat.le_refl _) fun k hk hhit =>
    hnot ⟨k, hk, hhit⟩
  have hlt := (after_of_lapFree hfree hzero hpos (stream.take (o + t.pattern.length))).2.1
  rw [after_pattern] at hlt
  omega

/-- The hits are the ends of the places where the pattern stands, but for those that overlap with
one before. -/
theorem mem_hits_iff_stands {o : Nat} :
    o + (t.pattern.length - 1) ∈ t.hits stream ↔ t.pattern.toList <+: stream.drop o ∧
      ∀ j ∈ t.hits stream, j < o + (t.pattern.length - 1) →
        j + t.pattern.length ≤ o + (t.pattern.length - 1) := by
  constructor
  · intro hhit
    refine ⟨?_, fun j hj hlt => le_of_mem_hits hj hhit hlt⟩
    have hlast := lt_length_of_mem_hits hhit
    obtain ⟨front, hfront⟩ := isSuffix_of_mem_hits hfree hzero hpos hhit
    have hlen := congrArg List.length hfront
    rw [List.length_append, Pattern.length_toList, List.length_take] at hlen
    have hstart : front.length = o := by omega
    rw [← List.take_append_drop (o + (t.pattern.length - 1) + 1) stream, ← hfront,
      List.append_assoc, ← hstart, List.drop_left]
    exact List.prefix_append ..
  · rintro ⟨hstands, hbefore⟩
    obtain ⟨k, hk, hhit⟩ := exists_hit_of_stands hfree hzero hpos hstands
    rcases Nat.lt_or_ge k (t.pattern.length - 1) with hlt | hge
    · have := hbefore _ hhit (by omega)
      omega
    · obtain rfl : k = t.pattern.length - 1 := by omega
      exact hhit

/-- A tracker without laps reports what a scan from the left finds. -/
theorem hits_eq_finds (stream : Bytes) :
    t.hits stream =
      (t.pattern.toList.finds stream).map fun o => o + (t.pattern.length - 1) := by
  have hne : t.pattern.toList ≠ [] := by
    rw [← List.length_pos_iff, Pattern.length_toList]
    exact hpos
  have hstart {j : Nat} (hj : j ∈ t.hits stream) : ∃ o, j = o + (t.pattern.length - 1) := by
    have := length_le_of_mem_hits hj
    exact ⟨j - (t.pattern.length - 1), by omega⟩
  have hmem (o : Nat) :
      o ∈ t.pattern.toList.finds stream ↔ o + (t.pattern.length - 1) ∈ t.hits stream := by
    induction o using Nat.strongRecOn with
    | _ o ih =>
        rw [Bytes.mem_finds hne, mem_hits_iff_stands hfree hzero hpos, Pattern.length_toList]
        refine and_congr_right fun _ => ⟨fun h j hj hlt => ?_, fun h o' ho' hlt => ?_⟩
        · obtain ⟨o', rfl⟩ := hstart hj
          have := h o' ((ih o' (by omega)).mpr hj) (by omega)
          omega
        · have := h _ ((ih o' hlt).mp ho') (by omega)
          omega
  refine (t.pairwise_lt_hits stream).eq_of_mem_iff ?_ fun j => ?_
  · exact List.pairwise_map.mpr ((Bytes.pairwise_finds _ _).imp fun h => Nat.add_lt_add_right h _)
  · rw [List.mem_map]
    constructor
    · intro hj
      obtain ⟨o, rfl⟩ := hstart hj
      exact ⟨o, (hmem o).mpr hj, rfl⟩
    · rintro ⟨o, ho, rfl⟩
      exact (hmem o).mp ho

end

/-! ## Hits where the pattern does not stand -/

theorem exists_notMem {bs : Bytes} (h : bs.length < 4) : ∃ b : UInt8, b ∉ bs := by
  refine Classical.byContradiction fun hnot => ?_
  have hall : [0, 1, 2, 3] ⊆ bs := fun b _ => Classical.byContradiction fun hb => hnot ⟨b, hb⟩
  have hle := ((by decide : ([0, 1, 2, 3] : Bytes).Nodup).subperm hall).length_le
  simp only [List.length_cons, List.length_nil] at hle
  omega

/-- Wherever a tracker stands, the rest of its pattern brings it to a hit. -/
theorem mem_hits_drop {p : Pattern} {c : Nat} (hc : c < p.length) :
    p.length - 1 - c ∈ ({ pattern := p, cursor := c } : Tracker).hits (p.toList.drop c) := by
  have hlast : p.length - 1 ∈ ({ pattern := p } : Tracker).hits p.toList :=
    (mem_hits_pattern rfl).mpr (Nat.sub_add_cancel (Nat.zero_lt_of_lt hc))
  have hlen : (p.toList.take c).length = c := by
    rw [List.length_take, Pattern.length_toList]
    omega
  have hafter : ({ pattern := p } : Tracker).after (p.toList.take c) =
      { pattern := p, cursor := c } := after_take rfl hc
  rw [← List.take_append_drop c p.toList, mem_hits_append, hafter, hlen] at hlast
  rcases hlast with hfront | ⟨j, hj, heq⟩
  · have := lt_length_of_mem_hits hfront
    omega
  · rwa [heq, Nat.add_sub_cancel_left]

/-- Behind `c` bytes of the pattern a byte is lost, and then comes what is behind the lap of those.
The tracker takes it for the rest of its pattern. -/
theorem exists_false_hit {p : Pattern} {c : Nat} (hc : c < p.length) (hlap : 0 < p.lap c) :
    ∃ stream : Bytes, ∃ i ∈ ({ pattern := p } : Tracker).hits stream,
      ¬p.toList <:+ stream.take (i + 1) := by
  have hlt : p.lap c < c := by
    refine p.lap_lt (Nat.pos_of_ne_zero ?_)
    rintro rfl
    have := p.lap_le 0
    omega
  -- The byte fits neither at the cursor nor at the lap, and it is not the one before the lap's end.
  obtain ⟨b, hb⟩ : ∃ b, b ∉ (p.get? c).toList ++ (p.get? (p.lap c)).toList ++
      (p.get? (p.lap c - 1)).toList := by
    refine exists_notMem ?_
    have hone (x : Option UInt8) : x.toList.length ≤ 1 := by
      cases x with
      | none => exact Nat.zero_le 1
      | some => exact Nat.le_refl 1
    have h₁ := hone (p.get? c)
    have h₂ := hone (p.get? (p.lap c))
    have h₃ := hone (p.get? (p.lap c - 1))
    simp only [List.length_append]
    omega
  simp only [List.mem_append, Option.mem_toList, not_or] at hb
  obtain ⟨⟨hcursor, hback⟩, hend⟩ := hb
  have hafter : ({ pattern := p } : Tracker).after (p.toList.take c ++ [b]) =
      { pattern := p, cursor := p.lap c } := by
    have htake : ({ pattern := p } : Tracker).after (p.toList.take c) =
        { pattern := p, cursor := c } := after_take rfl hc
    have hlost : ({ pattern := p, cursor := c } : Tracker).step b =
        ({ pattern := p, cursor := p.lap c }, false) := (if_neg hcursor).trans (if_neg hback)
    rw [after_append, htake, after_cons, after_nil, hlost]
  have hlen : (p.toList.take c ++ [b]).length = c + 1 := by
    rw [List.length_append, List.length_take, Pattern.length_toList, List.length_singleton]
    omega
  have hwhole : (p.toList.take c ++ [b] ++ p.toList.drop (p.lap c)).length =
      c + 1 + (p.length - 1 - p.lap c) + 1 := by
    rw [List.length_append, hlen, List.length_drop, Pattern.length_toList]
    omega
  refine ⟨p.toList.take c ++ [b] ++ p.toList.drop (p.lap c), c + 1 + (p.length - 1 - p.lap c),
    ?_, ?_⟩
  · rw [mem_hits_append, hafter, hlen]
    exact .inr ⟨_, mem_hits_drop (Nat.lt_trans hlt hc), rfl⟩
  · rw [← hwhole, List.take_length]
    rintro ⟨front, hfront⟩
    -- If the pattern stood there, the lap in front of its rest would end with the lost byte.
    have hlap' : front ++ p.toList.take (p.lap c) = p.toList.take c ++ [b] := by
      have hall : front ++ p.toList.take (p.lap c) ++ p.toList.drop (p.lap c) =
          p.toList.take c ++ [b] ++ p.toList.drop (p.lap c) := by
        rw [List.append_assoc, List.take_append_drop, hfront]
      exact List.append_cancel_right hall
    obtain ⟨k, hk⟩ := Nat.exists_eq_succ_of_ne_zero (Nat.ne_of_gt hlap)
    obtain ⟨a, ha⟩ : ∃ a, p.toList[k]? = some a :=
      ⟨_, List.getElem?_eq_getElem (by rw [Pattern.length_toList]; omega)⟩
    rw [hk, take_succ_of_getElem? ha, ← List.append_assoc] at hlap'
    obtain rfl := List.singleton_inj.mp (List.append_inj' hlap' rfl).2
    rw [hk, Nat.succ_sub_one, ← Pattern.getElem?_toList] at hend
    exact hend ha

end Tracker

/-- When a fresh tracker is an exact matcher. It reports the places that a scan from the left finds,
by their last bytes and in all streams, just when the first byte of the pattern does not recur
before the last one. Where it does recur, there is a stream in which the tracker reports the pattern
at a byte behind which it does not stand. -/
theorem exact_iff_first_apart (first : UInt8) (rest : Bytes) :
    ∃ t, Tracker.ofPattern (first :: rest) = .ok t ∧
      ((∀ stream : Bytes, t.hits stream =
          (Bytes.finds (first :: rest) stream).map fun o => o + rest.length) ↔
        first ∉ rest.dropLast) ∧
      (first ∈ rest.dropLast → ∃ stream : Bytes, ∃ i ∈ t.hits stream,
        ¬first :: rest <:+ stream.take (i + 1)) := by
  let p := Pattern.ofBytes (first :: rest)
  have hlen : p.length = rest.length + 1 := (Pattern.length_toList p).symm
  have hfalse : first ∈ rest.dropLast → ∃ stream : Bytes,
      ∃ i ∈ ({ pattern := p } : Tracker).hits stream, ¬first :: rest <:+ stream.take (i + 1) := by
    intro hmem
    have hlaps : ¬p.LapFree := fun hfree => Pattern.lapFree_iff.mp hfree hmem
    simp only [Pattern.LapFree, not_forall] at hlaps
    obtain ⟨c, hc, hlap⟩ := hlaps
    exact Tracker.exists_false_hit hc (Nat.pos_of_ne_zero hlap)
  refine ⟨{ pattern := p }, rfl, ⟨fun hexact hmem => ?_, fun hapart stream => ?_⟩, hfalse⟩
  · obtain ⟨stream, i, hi, hnot⟩ := hfalse hmem
    rw [hexact] at hi
    obtain ⟨o, ho, rfl⟩ := List.mem_map.mp hi
    obtain ⟨behind, hstands⟩ := ((Bytes.mem_finds (List.cons_ne_nil first rest)).mp ho).1
    refine hnot ?_
    rw [Nat.add_assoc, List.take_add, ← hstands, ← List.length_cons, List.take_left]
    exact List.suffix_append ..
  · have hpos : 0 < p.length := by omega
    have hexact := Tracker.hits_eq_finds (t := { pattern := p }) (Pattern.lapFree_iff.mpr hapart)
      rfl hpos stream
    rw [hexact, hlen]
    rfl

end Redaction
