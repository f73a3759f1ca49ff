import Redaction.Proofs.Coverage

/-!
# Tables put together

What a table answers for an offset is the greatest of the lengths that were put in for it
(`get?_ofList`), and a table merged into another adds what it answers (`get?_merge`). So it
makes no difference whether spans are put in one by one or come in tables that have already
forgotten the shorter ones (`merge_ofList`).

That is why a finder may report its hits portion by portion: the tables of the portions, merged
in their order, are the table of the whole (`feedAll_eq`).
-/

namespace Redaction

namespace SpanTable

/-! ## What a table answers -/

/-- The lengths of the spans that start at an offset. -/
def lengthsAt (offset : Nat) (spans : List Span) : List Nat :=
  (spans.filter (·.offset = offset)).map (·.length)

theorem mem_lengthsAt {o n : Nat} {spans : List Span} : n ∈ lengthsAt o spans ↔ ⟨o, n⟩ ∈ spans := by
  simp only [lengthsAt, List.mem_map, List.mem_filter, decide_eq_true_eq]
  constructor
  · rintro ⟨s, ⟨hs, rfl⟩, rfl⟩
    exact hs
  · exact fun hs => ⟨_, ⟨hs, rfl⟩, rfl⟩

theorem max?_lengthsAt_cons (s : Span) (spans : List Span) (o : Nat) :
    (lengthsAt o (s :: spans)).max? =
      (if o = s.offset then some s.length else none).merge max (lengthsAt o spans).max? := by
  by_cases ho : o = s.offset
  · subst ho
    have hcons : lengthsAt s.offset (s :: spans) = s.length :: lengthsAt s.offset spans := by
      simp [lengthsAt]
    rw [hcons, List.max?_cons, if_pos rfl]
    cases (lengthsAt s.offset spans).max? <;> rfl
  · have hskip : lengthsAt o (s :: spans) = lengthsAt o spans := by
      simp [lengthsAt, Ne.symm ho]
    rw [hskip, if_neg ho, Option.merge_none_left]

theorem get?_insert_eq_merge (t : SpanTable) (s : Span) (o : Nat) :
    (t.insert s).get? o =
      (t.get? o).merge max (if o = s.offset then some s.length else none) := by
  rw [get?_insert]
  split
  · cases t.get? o with
    | none => simp [Option.merge]
    | some n => rfl
  · exact Option.merge_none_right.symm

theorem get?_insertMany (t : SpanTable) (spans : List Span) (o : Nat) :
    (t.insertMany spans).get? o = (t.get? o).merge max (lengthsAt o spans).max? := by
  have assoc : Std.Associative (Option.merge (max : Nat → Nat → Nat)) := inferInstance
  induction spans generalizing t with
  | nil => exact Option.merge_none_right.symm
  | cons s spans ih =>
      rw [insertMany, List.foldl_cons, ← insertMany, ih, get?_insert_eq_merge, assoc.assoc,
        max?_lengthsAt_cons]

/-- A table holds one span at most for an offset. -/
theorem max?_lengthsAt_spans (t : SpanTable) (o : Nat) : (lengthsAt o t.spans).max? = t.get? o := by
  have hmem (n : Nat) : n ∈ lengthsAt o t.spans ↔ t.get? o = some n :=
    mem_lengthsAt.trans get?_eq_some_iff.symm
  cases hget : t.get? o with
  | none =>
      rw [List.max?_eq_none_iff, List.eq_nil_iff_forall_not_mem]
      intro n hn
      cases hget.symm.trans ((hmem n).mp hn)
  | some n =>
      refine List.max?_eq_some_iff.mpr ⟨(hmem n).mpr hget, fun k hk => ?_⟩
      obtain rfl := Option.some.inj (hget.symm.trans ((hmem k).mp hk))
      exact Nat.le_refl n

theorem get?_ofList (spans : List Span) (o : Nat) :
    (ofList spans).get? o = (lengthsAt o spans).max? := by
  rw [ofList, get?_insertMany, get?_empty, Option.merge_none_left]

theorem get?_merge (t u : SpanTable) (o : Nat) :
    (t.merge u).get? o = (t.get? o).merge max (u.get? o) := by
  rw [merge, get?_insertMany, max?_lengthsAt_spans]

/-! ## Merging -/

theorem insertMany_append (t : SpanTable) (xs ys : List Span) :
    t.insertMany (xs ++ ys) = (t.insertMany xs).insertMany ys := List.foldl_append

theorem merge_ofList (t : SpanTable) (spans : List Span) :
    t.merge (ofList spans) = t.insertMany spans :=
  ext_get? fun o => by rw [get?_merge, get?_ofList, get?_insertMany]

theorem ofList_append (xs ys : List Span) : ofList (xs ++ ys) = (ofList xs).merge (ofList ys) := by
  rw [merge_ofList, ofList, insertMany_append, ofList]

/-- Neither the order of the spans nor how often they are put in makes a difference. -/
theorem ofList_congr {xs ys : List Span} (h : ∀ s, s ∈ xs ↔ s ∈ ys) : ofList xs = ofList ys := by
  refine ext_get? fun o => ?_
  have hmem (n : Nat) : n ∈ lengthsAt o xs ↔ n ∈ lengthsAt o ys := by
    rw [mem_lengthsAt, mem_lengthsAt, h]
  rw [get?_ofList, get?_ofList]
  refine Option.ext fun n => ?_
  rw [List.max?_eq_some_iff, List.max?_eq_some_iff]
  simp only [hmem]

theorem merge_self (t : SpanTable) : t.merge t = t := by
  refine ext_get? fun o => ?_
  rw [get?_merge]
  cases t.get? o with
  | none => rfl
  | some n => exact congrArg some (Nat.max_self n)

end SpanTable

namespace Finder

/-! ## Portions -/

/-- The finder when it has read the portions. -/
def afterEach (f : Finder) (portions : List Bytes) : Finder :=
  match (f.feedEach portions).getLast? with
  | some step => step.1
  | none => f

theorem afterEach_cons (f : Finder) (portion : Bytes) (rest : List Bytes) :
    f.afterEach (portion :: rest) = (f.feed portion).1.afterEach rest := by
  rw [afterEach, feedEach, List.getLast?_cons, afterEach]
  cases ((f.feed portion).1.feedEach rest).getLast? with
  | none => rfl
  | some step => rfl

theorem afterEach_eq (f : Finder) (portions : List Bytes) :
    f.afterEach portions = (f.feed portions.flatten).1 := by
  induction portions generalizing f with
  | nil => rfl
  | cons portion rest ih =>
      rw [afterEach_cons, ih, List.flatten_cons, feed_append_finder]

theorem foldl_merge_feedEach (f : Finder) (found : SpanTable) (portions : List Bytes) :
    (f.feedEach portions).foldl (fun found step => found.merge step.2) found =
      found.insertMany (f.hitSpans portions.flatten) := by
  induction portions generalizing f found with
  | nil => rfl
  | cons portion rest ih =>
      rw [feedEach, List.foldl_cons, ih, feed_table, SpanTable.merge_ofList, List.flatten_cons,
        hitSpans_append, SpanTable.insertMany_append]

theorem feedAll_eq (f : Finder) (portions : List Bytes) :
    f.feedAll portions = (f.feed portions.flatten).2 := by
  rw [feed_table]
  exact foldl_merge_feedEach f ∅ portions

/-- However a finder has got to where it is, portions read one after another lead to where they
lead when they are read as one, and report, merged in their order, what they report then. -/
theorem feed_in_portions (f : Finder) (portions : List Bytes) :
    f.feedAll portions = (f.feed portions.flatten).2 ∧
      f.afterEach portions = (f.feed portions.flatten).1 ∧
      (f.afterEach portions).trackers = f.trackers.map (·.after portions.flatten) ∧
      (f.afterEach portions).consumed = f.consumed + portions.flatten.length := by
  refine ⟨f.feedAll_eq portions, f.afterEach_eq portions, ?_, ?_⟩
  · rw [afterEach_eq, feed_finder]
  · rw [afterEach_eq, feed_consumed]

end Finder

end Redaction
