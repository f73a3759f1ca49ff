import Redaction.Proofs.Merging

/-!
# Keeping the longest

Of the spans put into a table those stay that none with the same start outdoes
(`SpanTable.mem_spans_ofList`). Which these are can be read off the members of the list alone, and
a table is known by what it answers, so the table of a list has forgotten how the list was ordered
and what it repeated (`SpanTable.ofList_congr`).

Merging takes the greater of two answers at each offset (`SpanTable.get?_merge`). That is why it can
be done in any order, in any grouping and more than once (`SpanTable.merge_comm`,
`SpanTable.merge_assoc`, `SpanTable.merge_self`). A span that is forgotten lies inside the longer
one with its start, so nothing that was covered is lost (`SpanTable.covers_ofList`).
-/

namespace Redaction

namespace SpanTable

variable {xs : List Span} {s : Span}

/-! ## What stays in a table -/

theorem mem_spans_ofList :
    s ∈ (ofList xs).spans ↔
      s ∈ xs ∧ ∀ x ∈ xs, x.offset = s.offset → x.length ≤ s.length := by
  have hspan : s ∈ (ofList xs).spans ↔ (lengthsAt s.offset xs).max? = some s.length := by
    rw [← get?_ofList]
    exact get?_eq_some_iff.symm
  rw [hspan, List.max?_eq_some_iff, mem_lengthsAt]
  refine and_congr_right fun _ => ⟨fun h x hx ho => ?_, fun h n hn => ?_⟩
  · exact h x.length (mem_lengthsAt.mpr (ho ▸ hx))
  · exact h ⟨s.offset, n⟩ (mem_lengthsAt.mp hn) rfl

theorem exists_offset_ofList_iff {o : Nat} :
    (∃ s ∈ (ofList xs).spans, s.offset = o) ↔ ∃ s ∈ xs, s.offset = o := by
  constructor
  · rintro ⟨s, hs, rfl⟩
    exact ⟨s, mem_of_mem_ofList hs, rfl⟩
  · rintro ⟨s, hs, rfl⟩
    have hne : (lengthsAt s.offset xs).max? ≠ none :=
      mt List.max?_eq_none_iff.mp (List.ne_nil_of_mem (mem_lengthsAt.mpr hs))
    obtain ⟨n, hn⟩ := Option.ne_none_iff_exists'.mp hne
    exact ⟨⟨s.offset, n⟩, get?_eq_some_iff.mp ((get?_ofList xs s.offset).trans hn), rfl⟩

theorem spans_inj {t u : SpanTable} : t.spans = u.spans ↔ t = u := by
  refine ⟨fun h => ?_, congrArg spans⟩
  cases t
  cases u
  obtain rfl := List.reverse_inj.mp h
  rfl

/-! ## The semilattice of tables -/

theorem merge_comm (t u : SpanTable) : t.merge u = u.merge t := by
  have comm : Std.Commutative (Option.merge (max : Nat → Nat → Nat)) := inferInstance
  exact ext_get? fun o => by rw [get?_merge, get?_merge, comm.comm]

theorem merge_assoc (t u v : SpanTable) : (t.merge u).merge v = t.merge (u.merge v) := by
  have assoc : Std.Associative (Option.merge (max : Nat → Nat → Nat)) := inferInstance
  exact ext_get? fun o => by simp only [get?_merge, assoc.assoc]

end SpanTable

/-- What the table of a list is. It gives the offsets of the list in ascending order, each once and
with the greatest length that the list has for it, and answers for an offset what it gives. Lists
with the same members, in whatever order and however often, have the same table, and lists put
together have their tables merged. Merging does not depend on order, grouping or repetition. And an
offset lies in a span of the table just when it lies in one of the list. -/
theorem longest_kept (xs : List Span) :
    let t := SpanTable.ofList xs
    t.spans.Pairwise (fun a b => a.offset < b.offset) ∧
      (∀ o, (∃ s ∈ t.spans, s.offset = o) ↔ ∃ s ∈ xs, s.offset = o) ∧
      (∀ s, s ∈ t.spans ↔ s ∈ xs ∧ ∀ x ∈ xs, x.offset = s.offset → x.length ≤ s.length) ∧
      (∀ o n, t.get? o = some n ↔ ⟨o, n⟩ ∈ t.spans) ∧
      (∀ ys : List Span, (∀ s, s ∈ ys ↔ s ∈ xs) → SpanTable.ofList ys = t) ∧
      (∀ ys, t.merge (SpanTable.ofList ys) = SpanTable.ofList (xs ++ ys)) ∧
      (∀ u v w : SpanTable, u.merge v = v.merge u ∧
        (u.merge v).merge w = u.merge (v.merge w) ∧ u.merge u = u) ∧
      ∀ o, (∃ s ∈ t.spans, s.offset ≤ o ∧ o < s.offset + s.length) ↔
        ∃ s ∈ xs, s.offset ≤ o ∧ o < s.offset + s.length := by
  refine ⟨SpanTable.ascending_spans _, fun o => SpanTable.exists_offset_ofList_iff,
    fun s => SpanTable.mem_spans_ofList, fun o n => SpanTable.get?_eq_some_iff, ?_, ?_, ?_, ?_⟩
  · intro ys hys
    exact SpanTable.ofList_congr hys
  · intro ys
    exact (SpanTable.ofList_append xs ys).symm
  · intro u v w
    exact ⟨u.merge_comm v, u.merge_assoc v w, u.merge_self⟩
  · intro o
    exact SpanTable.covers_ofList

/-- Two lengths for one start and an empty span, in another order and one of them twice. -/
theorem longest_kept_repeated :
    let xs : List Span := [⟨5, 2⟩, ⟨9, 0⟩, ⟨5, 3⟩]
    let ys : List Span := [⟨5, 3⟩, ⟨5, 2⟩, ⟨5, 3⟩, ⟨9, 0⟩]
    SpanTable.ofList ys = SpanTable.ofList xs ∧
      (SpanTable.ofList xs).spans = [⟨5, 3⟩, ⟨9, 0⟩] ∧ (SpanTable.ofList xs).get? 9 = some 0 := by
  intro xs ys
  obtain ⟨-, -, -, hget, hsame, -⟩ := longest_kept xs
  have hto : ∀ s ∈ ys, s ∈ xs := by decide
  have hfrom : ∀ s ∈ xs, s ∈ ys := by decide
  exact ⟨hsame ys fun s => ⟨hto s, hfrom s⟩, by decide +kernel, (hget 9 0).mpr (by decide +kernel)⟩

end Redaction
