import Redaction.Bytes

/-!
# What a stream becomes when offsets are hidden

`render` says byte by byte what a stream becomes when some of its offsets are hidden: a byte
that is not hidden stays, a hidden one goes, and where a run of hidden offsets begins a
marker is left. It looks at one offset and the one before it, so it is the same however the
stream is divided (`render_append`).

A text that shares no byte with the marker is found in what comes out only where it stands,
byte for byte and with none of them hidden, in what went in (`isInfix_render_iff`).
-/

namespace Redaction

/-- No hidden offset stands right before this one. -/
def StartsRun (hidden : Nat → Prop) (pos : Nat) : Prop := pos = 0 ∨ ¬hidden (pos - 1)

instance (hidden : Nat → Prop) [DecidablePred hidden] : DecidablePred (StartsRun hidden) :=
  fun _ => inferInstanceAs (Decidable (_ ∨ _))

/-- What is left of the bytes from offset `pos` on when some offsets are hidden: a marker for
each run of those, and the bytes at the others. -/
def render (hidden : Nat → Prop) [DecidablePred hidden] (marker : Bytes) : Nat → Bytes → Bytes
  | _, [] => []
  | pos, b :: bs =>
    (if hidden pos then if StartsRun hidden pos then marker else [] else [b]) ++
      render hidden marker (pos + 1) bs

theorem startsRun_succ {hidden : Nat → Prop} {pos : Nat} :
    StartsRun hidden (pos + 1) ↔ ¬hidden pos := by
  simp [StartsRun]

theorem startsRun_congr {hidden shown : Nat → Prop} {pos : Nat}
    (h : ∀ o < pos, hidden o ↔ shown o) :
    StartsRun hidden pos ↔ StartsRun shown pos := by
  cases pos with
  | zero => simp [StartsRun]
  | succ pos => rw [startsRun_succ, startsRun_succ, h pos (Nat.lt_succ_self pos)]

section

variable {hidden : Nat → Prop} [DecidablePred hidden] {marker : Bytes} {pos : Nat}

/-! ## Pieces of a stream -/

theorem render_append (xs ys : Bytes) :
    render hidden marker pos (xs ++ ys) =
      render hidden marker pos xs ++ render hidden marker (pos + xs.length) ys := by
  induction xs generalizing pos with
  | nil => rfl
  | cons x xs ih =>
      rw [List.cons_append, render, render, ih, List.append_assoc, List.length_cons,
        Nat.add_assoc, Nat.add_comm 1]

theorem render_take {base stop : Nat} (hbase : base ≤ pos) (hstop : pos ≤ stop) {bs : Bytes}
    (hlen : pos ≤ base + bs.length) :
    render hidden marker base (bs.take (stop - base)) =
      render hidden marker base (bs.take (pos - base)) ++
        render hidden marker pos ((bs.drop (pos - base)).take (stop - pos)) := by
  have hsum : stop - base = (pos - base) + (stop - pos) := by omega
  have hpos : base + (bs.take (pos - base)).length = pos := by
    rw [List.length_take]
    omega
  rw [hsum, List.take_add, render_append, hpos]

theorem render_isPrefix {xs ys : Bytes} (h : xs <+: ys) :
    render hidden marker pos xs <+: render hidden marker pos ys := by
  obtain ⟨zs, rfl⟩ := h
  rw [render_append]
  exact List.prefix_append ..

/-- Only the offsets before the end of the bytes matter. -/
theorem render_congr {shown : Nat → Prop} [DecidablePred shown] {bs : Bytes}
    (h : ∀ o < pos + bs.length, hidden o ↔ shown o) :
    render hidden marker pos bs = render shown marker pos bs := by
  induction bs generalizing pos with
  | nil => rfl
  | cons b bs ih =>
      rw [List.length_cons] at h
      have hpos : hidden pos ↔ shown pos := h pos (by omega)
      have hstart : StartsRun hidden pos ↔ StartsRun shown pos :=
        startsRun_congr fun o ho => h o (by omega)
      have hrest : render hidden marker (pos + 1) bs = render shown marker (pos + 1) bs :=
        ih fun o ho => h o (by omega)
      simp only [render, hpos, hstart, hrest]

theorem render_of_forall_not {bs : Bytes}
    (h : ∀ o, pos ≤ o → o < pos + bs.length → ¬hidden o) : render hidden marker pos bs = bs := by
  induction bs generalizing pos with
  | nil => rfl
  | cons b bs ih =>
      rw [List.length_cons] at h
      have hrest : render hidden marker (pos + 1) bs = bs :=
        ih fun o ho hlt => h o (by omega) (by omega)
      rw [render, if_neg (h pos (Nat.le_refl pos) (by omega)), hrest]
      rfl

theorem render_of_continued {bs : Bytes} (hpos : ¬StartsRun hidden pos)
    (h : ∀ o, pos ≤ o → o < pos + bs.length → hidden o) : render hidden marker pos bs = [] := by
  induction bs generalizing pos with
  | nil => rfl
  | cons b bs ih =>
      rw [List.length_cons] at h
      have hhere := h pos (Nat.le_refl pos) (by omega)
      have hrest : render hidden marker (pos + 1) bs = [] :=
        ih (fun hstart => startsRun_succ.mp hstart hhere) fun o ho hlt => h o (by omega) (by omega)
      rw [render, if_pos hhere, if_neg hpos, hrest]
      rfl

/-- A run of hidden bytes becomes one marker, or nothing if it goes on with one before. -/
theorem render_of_forall {bs : Bytes} (hne : bs ≠ [])
    (h : ∀ o, pos ≤ o → o < pos + bs.length → hidden o) :
    render hidden marker pos bs = if StartsRun hidden pos then marker else [] := by
  cases bs with
  | nil => exact absurd rfl hne
  | cons b bs =>
      rw [List.length_cons] at h
      have hhere := h pos (Nat.le_refl pos) (by omega)
      have hrest : render hidden marker (pos + 1) bs = [] :=
        render_of_continued (fun hstart => startsRun_succ.mp hstart hhere)
          fun o ho hlt => h o (by omega) (by omega)
      rw [render, if_pos hhere, hrest, List.append_nil]

/-! ## Texts in what comes out -/

/-- What shares no byte with the bytes in front is not in them, not even in part. -/
theorem isInfix_of_isInfix_append {s xs ys : Bytes} (hne : s ≠ []) (hs : ∀ b ∈ s, b ∉ xs)
    (h : s <:+: xs ++ ys) : s <:+: ys := by
  induction xs with
  | nil => exact h
  | cons x xs ih =>
      have hxs : ∀ b ∈ s, b ∉ xs := fun b hb hmem => hs b hb (List.mem_cons_of_mem x hmem)
      rcases List.infix_cons_iff.mp h with hpre | hin
      · cases s with
        | nil => exact absurd rfl hne
        | cons a s =>
            obtain rfl : a = x := (List.cons_prefix_cons.mp hpre).1
            exact absurd List.mem_cons_self (hs a List.mem_cons_self)
      · exact ih hxs hin

theorem forall_not_of_isPrefix_render {s bs : Bytes} (hmarker : marker ≠ [])
    (hs : ∀ b ∈ s, b ∉ marker) (hpos : StartsRun hidden pos)
    (h : s <+: render hidden marker pos bs) :
    s <+: bs ∧ ∀ o, pos ≤ o → o < pos + s.length → ¬hidden o := by
  induction s generalizing pos bs with
  | nil => exact ⟨List.nil_prefix, fun o ho hlt => absurd hlt (Nat.not_lt.mpr ho)⟩
  | cons a s ih =>
      obtain ⟨ha, hs⟩ := List.forall_mem_cons.mp hs
      cases bs with
      | nil => cases List.prefix_nil.mp h
      | cons b bs =>
          rw [render] at h
          by_cases hhere : hidden pos
          · -- A marker stands here, and the text does not begin as it does.
            rw [if_pos hhere, if_pos hpos] at h
            cases marker with
            | nil => exact absurd rfl hmarker
            | cons c marker =>
                obtain rfl : a = c := (List.cons_prefix_cons.mp h).1
                exact absurd List.mem_cons_self ha
          · rw [if_neg hhere, List.singleton_append] at h
            obtain ⟨rfl, htail⟩ := List.cons_prefix_cons.mp h
            obtain ⟨hpre, hall⟩ := ih hs (startsRun_succ.mpr hhere) htail
            refine ⟨List.cons_prefix_cons.mpr ⟨rfl, hpre⟩, fun o ho hlt => ?_⟩
            rw [List.length_cons] at hlt
            rcases Nat.eq_or_lt_of_le ho with rfl | ho
            · exact hhere
            · exact hall o ho (by omega)

/-- A text that shares no byte with the marker comes out only if it went in and no byte of it
was hidden. -/
theorem isInfix_render_iff {s bs : Bytes} (hne : s ≠ []) (hmarker : marker ≠ [])
    (hs : ∀ b ∈ s, b ∉ marker) :
    s <:+: render hidden marker pos bs ↔ ∃ before behind, bs = before ++ s ++ behind ∧
      ∀ o, pos + before.length ≤ o → o < pos + before.length + s.length → ¬hidden o := by
  constructor
  · intro h
    induction bs generalizing pos with
    | nil => exact absurd (List.infix_nil.mp h) hne
    | cons b bs ih =>
        -- Wherever the text is found behind the first byte, that byte goes in front.
        have later (hin : s <:+: render hidden marker (pos + 1) bs) :
            ∃ before behind, b :: bs = before ++ s ++ behind ∧
              ∀ o, pos + before.length ≤ o → o < pos + before.length + s.length → ¬hidden o := by
          obtain ⟨before, behind, rfl, hall⟩ := ih hin
          refine ⟨b :: before, behind, rfl, fun o ho hlt => hall o ?_ ?_⟩
          · rw [List.length_cons] at ho
            omega
          · rw [List.length_cons] at hlt
            omega
        rw [render] at h
        by_cases hhere : hidden pos
        · rw [if_pos hhere] at h
          refine later (isInfix_of_isInfix_append hne (fun a ha hmem => hs a ha ?_) h)
          split at hmem
          · exact hmem
          · cases hmem
        · rw [if_neg hhere, List.singleton_append] at h
          rcases List.infix_cons_iff.mp h with hpre | hin
          · cases s with
            | nil => exact absurd rfl hne
            | cons a s =>
                obtain ⟨rfl, htail⟩ := List.cons_prefix_cons.mp hpre
                obtain ⟨⟨behind, rfl⟩, hall⟩ := forall_not_of_isPrefix_render hmarker
                  (fun c hc => hs c (List.mem_cons_of_mem a hc)) (startsRun_succ.mpr hhere) htail
                refine ⟨[], behind, rfl, fun o ho hlt => ?_⟩
                simp only [List.length_nil, List.length_cons, Nat.add_zero] at ho hlt
                rcases Nat.eq_or_lt_of_le ho with rfl | ho
                · exact hhere
                · exact hall o ho (by omega)
          · exact later hin
  · rintro ⟨before, behind, rfl, hall⟩
    refine ⟨render hidden marker pos before,
      render hidden marker (pos + (before ++ s).length) behind, ?_⟩
    rw [render_append, render_append, render_of_forall_not hall]

end

end Redaction
