import Redaction.Span

/-!
# The longest span at each start

A span table holds at most one span for each offset, the longest that was ever
put in. Spans arrive roughly in the order of their starts, so the table keeps the
latest start first, where the next one is likely to go; `spans` gives them back in
ascending order.

`get?_insert` is the whole of what an insertion does. Two tables are equal when
they answer every offset alike (`ext_get?`).
-/

namespace Redaction

namespace SpanTable

/-- Puts a span into a list whose starts descend; of two at one start the longer stays. -/
def place (s : Span) : List Span → List Span
  | [] => [s]
  | t :: rest =>
    if t.offset < s.offset then s :: t :: rest
    else if t.offset = s.offset then ⟨t.offset, max t.length s.length⟩ :: rest
    else t :: place s rest

/-- The length recorded for a start. -/
def lengthAt (offset : Nat) : List Span → Option Nat
  | [] => none
  | t :: rest => if t.offset = offset then some t.length else lengthAt offset rest

theorem offset_of_mem_place {s x : Span} {l : List Span} (h : x ∈ place s l) :
    x.offset = s.offset ∨ x ∈ l := by
  induction l with
  | nil => simp_all [place]
  | cons t rest ih =>
      simp only [place] at h
      split at h
      · rcases List.mem_cons.mp h with rfl | h <;> simp_all
      · split at h
        · rcases List.mem_cons.mp h with rfl | h <;> simp_all
        · rcases List.mem_cons.mp h with rfl | h
          · simp
          · rcases ih h with h | h <;> simp_all

theorem descending_place {s : Span} {l : List Span}
    (h : l.Pairwise fun a b => b.offset < a.offset) :
    (place s l).Pairwise fun a b => b.offset < a.offset := by
  induction l with
  | nil => simp [place]
  | cons t rest ih =>
      obtain ⟨hall, hrest⟩ := List.pairwise_cons.mp h
      simp only [place]
      split
      · refine List.pairwise_cons.mpr ⟨fun x hx => ?_, h⟩
        rcases List.mem_cons.mp hx with rfl | hx
        · assumption
        · have := hall x hx; omega
      · split
        · exact List.pairwise_cons.mpr ⟨hall, hrest⟩
        · refine List.pairwise_cons.mpr ⟨fun x hx => ?_, ih hrest⟩
          rcases offset_of_mem_place hx with hx | hx
          · omega
          · exact hall x hx

theorem lengthAt_eq_none {o : Nat} {l : List Span} (h : ∀ x ∈ l, x.offset < o) :
    lengthAt o l = none := by
  induction l with
  | nil => rfl
  | cons t rest ih =>
      have ht := h t List.mem_cons_self
      rw [lengthAt, if_neg (by omega), ih fun x hx => h x (List.mem_cons_of_mem _ hx)]

theorem lengthAt_place {s : Span} {l : List Span} (o : Nat)
    (h : l.Pairwise fun a b => b.offset < a.offset) :
    lengthAt o (place s l) =
      if o = s.offset then some (max ((lengthAt o l).getD 0) s.length) else lengthAt o l := by
  induction l with
  | nil => simp [place, lengthAt, eq_comm]
  | cons t rest ih =>
      obtain ⟨hall, hrest⟩ := List.pairwise_cons.mp h
      simp only [place]
      split
      · rename_i hlt
        by_cases ho : o = s.offset
        · subst ho
          have : lengthAt s.offset (t :: rest) = none := lengthAt_eq_none fun x hx => by
            rcases List.mem_cons.mp hx with rfl | hx
            · exact hlt
            · have := hall x hx; omega
          rw [this]
          simp [lengthAt]
        · rw [lengthAt, if_neg (by omega), if_neg ho]
      · split
        · rename_i heq
          by_cases ho : o = s.offset
          · subst ho; simp [lengthAt, heq]
          · simp [lengthAt, heq, ho, eq_comm]
        · rename_i hlt hne
          by_cases ho : t.offset = o
          · subst ho; simp [lengthAt, hne]
          · simp [lengthAt, ho, ih hrest]

end SpanTable

structure SpanTable where
  latestFirst : List Span
  descending : latestFirst.Pairwise fun a b => b.offset < a.offset
deriving DecidableEq

namespace SpanTable

instance : EmptyCollection SpanTable := ⟨⟨[], List.Pairwise.nil⟩⟩

instance : Inhabited SpanTable := ⟨∅⟩

def insert (t : SpanTable) (s : Span) : SpanTable :=
  ⟨place s t.latestFirst, descending_place t.descending⟩

def insertMany (t : SpanTable) (spans : List Span) : SpanTable := spans.foldl insert t

def ofList (spans : List Span) : SpanTable := insertMany ∅ spans

/-- The spans in ascending order of their starts. -/
def spans (t : SpanTable) : List Span := t.latestFirst.reverse

def merge (t other : SpanTable) : SpanTable := t.insertMany other.spans

def get? (t : SpanTable) (offset : Nat) : Option Nat := lengthAt offset t.latestFirst

def size (t : SpanTable) : Nat := t.latestFirst.length

def isEmpty (t : SpanTable) : Bool := t.latestFirst.isEmpty

/-! ## What is in a table -/

@[simp] theorem get?_empty (o : Nat) : (∅ : SpanTable).get? o = none := rfl

theorem get?_insert (t : SpanTable) (s : Span) (o : Nat) :
    (t.insert s).get? o =
      if o = s.offset then some (max ((t.get? o).getD 0) s.length) else t.get? o :=
  lengthAt_place o t.descending

theorem lengthAt_eq_some_iff {o n : Nat} {l : List Span}
    (h : l.Pairwise fun a b => b.offset < a.offset) :
    lengthAt o l = some n ↔ ⟨o, n⟩ ∈ l := by
  induction l with
  | nil => simp [lengthAt]
  | cons t rest ih =>
      obtain ⟨hall, hrest⟩ := List.pairwise_cons.mp h
      rw [lengthAt, List.mem_cons]
      by_cases ho : t.offset = o
      · subst ho
        rw [if_pos rfl]
        constructor
        · rintro ⟨rfl⟩; exact .inl rfl
        · rintro (heq | hmem)
          · rw [← heq]
          · exact absurd (hall _ hmem) (Nat.lt_irrefl _)
      · rw [if_neg ho, ih hrest]
        constructor
        · exact .inr
        · rintro (heq | hmem)
          · exact absurd (congrArg Span.offset heq).symm ho
          · exact hmem

theorem get?_eq_some_iff {t : SpanTable} {o n : Nat} :
    t.get? o = some n ↔ ⟨o, n⟩ ∈ t.spans :=
  (lengthAt_eq_some_iff t.descending).trans List.mem_reverse.symm

theorem ascending_spans (t : SpanTable) :
    t.spans.Pairwise fun a b => a.offset < b.offset :=
  List.pairwise_reverse.mpr t.descending

/-- Lists with descending starts and the same members are the same list. -/
theorem eq_of_descending {k l : List Span}
    (hk : k.Pairwise fun a b => b.offset < a.offset)
    (hl : l.Pairwise fun a b => b.offset < a.offset) (h : ∀ s, s ∈ k ↔ s ∈ l) : k = l := by
  induction k generalizing l with
  | nil =>
      cases l with
      | nil => rfl
      | cons t _ => exact absurd ((h t).mpr List.mem_cons_self) List.not_mem_nil
  | cons s k ih =>
      obtain ⟨hs, hk⟩ := List.pairwise_cons.mp hk
      cases l with
      | nil => exact absurd ((h s).mp List.mem_cons_self) List.not_mem_nil
      | cons t l =>
          obtain ⟨ht, hl'⟩ := List.pairwise_cons.mp hl
          have hst : s = t := by
            rcases List.mem_cons.mp ((h s).mp List.mem_cons_self) with hst | hsl
            · exact hst
            · rcases List.mem_cons.mp ((h t).mpr List.mem_cons_self) with hts | htk
              · exact hts.symm
              · have := ht s hsl; have := hs t htk; omega
          subst hst
          congr 1
          refine ih hk hl' fun x => ⟨fun hx => ?_, fun hx => ?_⟩
          · rcases List.mem_cons.mp ((h x).mp (List.mem_cons_of_mem _ hx)) with rfl | hxl
            · exact absurd (hs x hx) (Nat.lt_irrefl _)
            · exact hxl
          · rcases List.mem_cons.mp ((h x).mpr (List.mem_cons_of_mem _ hx)) with rfl | hxk
            · exact absurd (ht x hx) (Nat.lt_irrefl _)
            · exact hxk

theorem ext_get? {t u : SpanTable} (h : ∀ o, t.get? o = u.get? o) : t = u := by
  obtain ⟨k, hk⟩ := t
  obtain ⟨l, hl⟩ := u
  have : k = l := eq_of_descending hk hl fun s => by
    rw [← lengthAt_eq_some_iff hk, ← lengthAt_eq_some_iff hl]
    exact iff_of_eq (congrArg (· = some s.length) (h s.offset))
  subst this
  rfl

end SpanTable

end Redaction
