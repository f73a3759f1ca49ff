import Mathlib.Data.List.Basic
import Mathlib.Data.List.Induction
import Redaction.Span

/-!
# The grammar of reports

A report is a JSON array of objects with an offset and a length, written without blanks. Its grammar
is said here without the spans (`Report.IsArray`), and a reader of it is beside (`Report.array?`).
The reader takes a text apart from the left: the digits of a number go on until there is no digit
any more, and behind an object there is a comma or the end.

Both come to the same. A number has one numeral without zeros in front, its digits to the base ten
(`Report.IsNumeral.toDigits_eq`), so what can be read, and what the grammar allows, is what
`Span.jsonArray` writes, and it is read as what was written (`Report.array?_eq_some_iff`,
`Report.isArray_iff`).
-/

namespace Redaction

namespace Report

/-! ## The grammar -/

/-- Decimal digits, and no zero in front of others. -/
def IsNumeral (digits : List Char) : Prop :=
  digits ≠ [] ∧ (∀ c ∈ digits, c.isDigit = true) ∧ (digits.head? = some '0' → digits = ['0'])

instance : DecidablePred IsNumeral := fun _ => inferInstanceAs (Decidable (_ ∧ _ ∧ _))

inductive IsObject : List Char → Prop
  | mk {offset length : List Char} : IsNumeral offset → IsNumeral length →
      IsObject ("\x7b\"offset\":".toList ++ (offset ++ (",\"length\":".toList ++
        (length ++ "\x7d".toList))))

/-- One object or more, with commas between them. -/
inductive IsObjects : List Char → Prop
  | single {object : List Char} : IsObject object → IsObjects object
  | more {object objects : List Char} : IsObject object → IsObjects objects →
      IsObjects (object ++ ',' :: objects)

inductive IsArray : List Char → Prop
  | empty : IsArray ['[', ']']
  | full {objects : List Char} : IsObjects objects → IsArray ('[' :: objects ++ [']'])

/-! ## Numbers -/

theorem isNumeral_toDigits (n : Nat) : IsNumeral (Nat.toDigits 10 n) := by
  refine ⟨Nat.toDigits_ne_nil, fun c hc => ?_, ?_⟩
  · exact Nat.isDigit_of_mem_toDigits (by decide) (by decide) hc
  · induction n using Nat.strongRecOn with
    | _ n ih =>
        rw [Nat.toDigits_eq_if (by decide)]
        split
        · intro hhead
          rw [Option.some.inj hhead]
        · intro hhead
          rw [List.head?_append_of_ne_nil _ Nat.toDigits_ne_nil] at hhead
          -- The digits in front would be a zero alone, but the number is at least ten.
          have hfront := congrArg (Nat.ofDigitChars 10 · 0) (ih (n / 10) (by omega) hhead)
          rw [Nat.ofDigitChars_toDigits (by decide) (by decide)] at hfront
          have : Nat.ofDigitChars 10 ['0'] 0 = 0 := rfl
          omega

theorem exists_digitChar {c : Char} (h : c.isDigit = true) : ∃ d < 10, c = Nat.digitChar d := by
  simp only [Char.isDigit, Bool.and_eq_true, decide_eq_true_eq] at h
  have hge : '0'.toNat ≤ c.toNat := h.1
  have hle : c.toNat ≤ '0'.toNat + 9 := h.2
  have hlt : c.toNat - '0'.toNat < 10 := by omega
  refine ⟨c.toNat - '0'.toNat, hlt, Char.toNat_inj.mp ?_⟩
  rw [Nat.toNat_digitChar_of_lt_ten hlt]
  exact (Nat.add_sub_of_le hge).symm

/-- What stands in front of the last digit of a numeral is a numeral, and not zero. -/
theorem IsNumeral.of_append {front : List Char} {c : Char} (h : IsNumeral (front ++ [c]))
    (hne : front ≠ []) : IsNumeral front ∧ front ≠ ['0'] := by
  have hhead : front.head? ≠ some '0' := by
    intro hzero
    have hlen := congrArg List.length
      (h.2.2 ((List.head?_append_of_ne_nil _ hne).trans hzero))
    have := List.length_pos_of_ne_nil hne
    simp only [List.length_append, List.length_singleton] at hlen
    omega
  refine ⟨⟨hne, fun x hx => h.2.1 x (List.mem_append_left _ hx), fun hzero => ?_⟩, ?_⟩
  · exact absurd hzero hhead
  · rintro rfl
    exact hhead rfl

theorem IsNumeral.toDigits_eq {digits : List Char} (h : IsNumeral digits) :
    Nat.toDigits 10 (Nat.ofDigitChars 10 digits 0) = digits := by
  induction digits using List.reverseRecOn with
  | nil => exact absurd rfl h.1
  | append_singleton front c ih =>
      obtain ⟨d, hlt, rfl⟩ := exists_digitChar (h.2.1 c (by simp))
      rw [Nat.ofDigitChars_append, Nat.ofDigitChars_cons_digitChar_of_lt_ten hlt,
        Nat.ofDigitChars_nil]
      rcases eq_or_ne front [] with rfl | hne
      · rw [Nat.ofDigitChars_nil, Nat.mul_zero, Nat.zero_add, Nat.toDigits_of_lt_base hlt,
          List.nil_append]
      · obtain ⟨hfront, hzero⟩ := h.of_append hne
        have hpos : 0 < Nat.ofDigitChars 10 front 0 := by
          refine Nat.pos_of_ne_zero fun h0 => hzero ?_
          rw [← ih hfront, h0, Nat.toDigits_zero]
        rw [← Nat.toDigits_append_toDigits (by decide) hpos hlt, ih hfront,
          Nat.toDigits_of_lt_base hlt]

/-- The number that a text begins with, and what is behind its last digit. -/
def number? (text : List Char) : Option (Nat × List Char) :=
  let digits := text.takeWhile Char.isDigit
  if IsNumeral digits then some (Nat.ofDigitChars 10 digits 0, text.dropWhile Char.isDigit)
  else none

theorem number?_eq_some_iff {text rest : List Char} {n : Nat} :
    number? text = some (n, rest) ↔
      text = Nat.toDigits 10 n ++ rest ∧ ∀ c ∈ rest.head?, c.isDigit = false := by
  unfold number?
  constructor
  · intro h
    dsimp only at h
    split at h
    · rename_i hnumeral
      obtain ⟨rfl, rfl⟩ := Prod.mk.inj (Option.some.inj h)
      refine ⟨?_, fun c hc => ?_⟩
      · rw [hnumeral.toDigits_eq, List.takeWhile_append_dropWhile]
      · have hnot := List.head?_dropWhile_not Char.isDigit text
        rwa [hc] at hnot
    · cases h
  · rintro ⟨rfl, hstop⟩
    have hdigits := (isNumeral_toDigits n).2.1
    have htake : rest.takeWhile Char.isDigit = [] := by
      cases rest with
      | nil => rfl
      | cons c rest => exact List.takeWhile_cons_of_neg (by simp [hstop c rfl])
    have hdrop : rest.dropWhile Char.isDigit = rest := by
      cases rest with
      | nil => rfl
      | cons c rest => exact List.dropWhile_cons_of_neg (by simp [hstop c rfl])
    rw [List.takeWhile_append_of_pos hdigits, List.dropWhile_append_of_pos hdigits, htake, hdrop,
      List.append_nil]
    simp [isNumeral_toDigits]

/-! ## Objects -/

/-- The object that a text begins with, and what is behind it. -/
def object? (text : List Char) : Option (Span × List Char) := do
  let text ← text.dropPrefix? "\x7b\"offset\":".toList
  let (offset, text) ← number? text
  let text ← text.dropPrefix? ",\"length\":".toList
  let (length, text) ← number? text
  let text ← text.dropPrefix? "\x7d".toList
  return (⟨offset, length⟩, text)

theorem toList_json (s : Span) :
    s.json.toList = "\x7b\"offset\":".toList ++ (Nat.toDigits 10 s.offset ++
      (",\"length\":".toList ++ (Nat.toDigits 10 s.length ++ "\x7d".toList))) := by
  simp [Span.json, Span.jsonPieces, Span.member, Nat.toString_eq_repr, Nat.toList_repr]

theorem dropPrefix?_eq_some_iff {text word rest : List Char} :
    text.dropPrefix? word = some rest ↔ text = word ++ rest := by
  simp [List.dropPrefix?_eq_some_iff]

theorem object?_eq_some_iff {text rest : List Char} {s : Span} :
    object? text = some (s, rest) ↔ text = s.json.toList ++ rest := by
  simp only [object?, Option.bind_eq_bind, Option.bind_eq_some_iff, dropPrefix?_eq_some_iff,
    Prod.exists, number?_eq_some_iff, toList_json]
  constructor
  · rintro ⟨_, rfl, offset, _, ⟨rfl, -⟩, _, rfl, length, _, ⟨rfl, -⟩, _, rfl, h⟩
    obtain ⟨rfl, rfl⟩ := Prod.mk.inj (Option.some.inj h)
    simp only [List.append_assoc]
  · rintro rfl
    refine ⟨_, by simp only [List.append_assoc], _, _, ⟨rfl, ?_⟩, _, rfl, _, _, ⟨rfl, ?_⟩, _,
      rfl, rfl⟩
    · rintro c ⟨⟩
      decide
    · rintro c ⟨⟩
      decide

/-- The grammar's objects are those that are written. -/
theorem isObject_iff {text : List Char} : IsObject text ↔ ∃ s : Span, text = s.json.toList := by
  constructor
  · rintro @⟨offset, length, hoffset, hlength⟩
    refine ⟨⟨Nat.ofDigitChars 10 offset 0, Nat.ofDigitChars 10 length 0⟩, ?_⟩
    rw [toList_json, hoffset.toDigits_eq, hlength.toDigits_eq]
  · rintro ⟨s, rfl⟩
    rw [toList_json]
    exact .mk (isNumeral_toDigits _) (isNumeral_toDigits _)

/-! ## Arrays -/

theorem length_lt_of_object? {text rest : List Char} {s : Span}
    (h : object? text = some (s, rest)) : rest.length < text.length := by
  rw [object?_eq_some_iff.mp h, toList_json]
  simp only [List.length_append]
  have : 0 < "\x7d".toList.length := by decide
  omega

/-- One object or more, with commas between them, up to the end of the array and the text. -/
def objects? (text : List Char) : Option (List Span) :=
  match _h : object? text with
  | some (s, [']']) => some [s]
  | some (s, ',' :: rest) => (objects? rest).map (s :: ·)
  | _ => none
termination_by text.length
decreasing_by
  have := length_lt_of_object? _h
  simp only [List.length_cons] at this
  omega

/-- The objects of spans, with commas between them. -/
def written (spans : List Span) : List Char := [','].intercalate (spans.map (·.json.toList))

theorem written_cons_cons (s t : Span) (spans : List Span) :
    written (s :: t :: spans) = s.json.toList ++ ',' :: written (t :: spans) := by
  simp only [written, List.map_cons, List.intercalate_cons_cons, List.append_assoc,
    List.singleton_append]

theorem written_singleton (s : Span) : written [s] = s.json.toList := by
  simp [written]

theorem written_ne_nil (s : Span) (spans : List Span) : written (s :: spans) ≠ [] := by
  cases spans <;> simp [written_singleton, written_cons_cons, toList_json]

theorem toList_jsonArray (spans : List Span) :
    (Span.jsonArray spans).toList = '[' :: written spans ++ [']'] := by
  have hpieces : ([","].intercalate (spans.map Span.jsonPieces)).flatMap String.toList =
      written spans := by
    induction spans with
    | nil => rfl
    | cons s spans ih =>
        cases spans with
        | nil => simp [written_singleton, Span.json]
        | cons t spans =>
            rw [List.map_cons, List.map_cons, List.intercalate_cons_cons, List.flatMap_append,
              List.flatMap_append, ← List.map_cons, ih, written_cons_cons]
            simp [Span.json]
  simp [Span.jsonArray, Span.jsonArrayPieces, hpieces]

theorem objects?_of_single {text : List Char} {s : Span} (h : object? text = some (s, [']'])) :
    objects? text = some [s] := by
  rw [objects?]
  split <;> simp_all

theorem objects?_of_more {text rest : List Char} {s : Span}
    (h : object? text = some (s, ',' :: rest)) :
    objects? text = (objects? rest).map (s :: ·) := by
  rw [objects?]
  split <;> simp_all

theorem objects?_eq_some_iff {text : List Char} {spans : List Span} :
    objects? text = some spans ↔ spans ≠ [] ∧ text = written spans ++ [']'] := by
  constructor
  · fun_induction objects? text generalizing spans with
    | case1 text s h =>
        rintro ⟨⟩
        exact ⟨List.cons_ne_nil _ _, by rw [written_singleton, object?_eq_some_iff.mp h]⟩
    | case2 text s rest h ih =>
        intro hmap
        obtain ⟨more, hmore, rfl⟩ := Option.map_eq_some_iff.mp hmap
        obtain ⟨hne, rfl⟩ := ih hmore
        obtain ⟨t, more, rfl⟩ := List.exists_cons_of_ne_nil hne
        refine ⟨List.cons_ne_nil _ _, ?_⟩
        rw [object?_eq_some_iff.mp h, written_cons_cons, List.append_assoc, List.cons_append]
    | case3 => rintro ⟨⟩
  · rintro ⟨hne, rfl⟩
    -- A comma follows each object but the last, so a list of one is a case of its own.
    induction spans with
    | nil => exact absurd rfl hne
    | cons s spans ih =>
        cases spans with
        | nil => exact objects?_of_single (by rw [object?_eq_some_iff, written_singleton])
        | cons t spans =>
            have hobject : object? (written (s :: t :: spans) ++ [']']) =
                some (s, ',' :: (written (t :: spans) ++ [']'])) := by
              rw [object?_eq_some_iff, written_cons_cons, List.append_assoc, List.cons_append]
            rw [objects?_of_more hobject, ih (List.cons_ne_nil _ _), Option.map_some]

def array? : List Char → Option (List Span)
  | '[' :: text => if text = [']'] then some [] else objects? text
  | _ => none

theorem array?_eq_some_iff {text : List Char} {spans : List Span} :
    array? text = some spans ↔ text = (Span.jsonArray spans).toList := by
  rw [toList_jsonArray]
  constructor
  · fun_cases array? text with
    | case1 =>
        rintro ⟨⟩
        rfl
    | case2 text =>
        intro h
        rw [(objects?_eq_some_iff.mp h).2, List.cons_append]
    | case3 => rintro ⟨⟩
  · rintro rfl
    cases spans with
    | nil => rfl
    | cons s spans =>
        have hne : written (s :: spans) ++ [']'] ≠ [']'] := by
          simp [written_ne_nil]
        rw [List.cons_append, array?, if_neg hne]
        exact objects?_eq_some_iff.mpr ⟨List.cons_ne_nil _ _, rfl⟩

/-! ## The grammar and the reader -/

theorem isObjects_iff {text : List Char} :
    IsObjects text ↔ ∃ spans, spans ≠ [] ∧ text = written spans := by
  constructor
  · intro h
    induction h with
    | single hobject =>
        obtain ⟨s, rfl⟩ := isObject_iff.mp hobject
        exact ⟨[s], List.cons_ne_nil _ _, (written_singleton s).symm⟩
    | more hobject _ ih =>
        obtain ⟨s, rfl⟩ := isObject_iff.mp hobject
        obtain ⟨spans, hne, rfl⟩ := ih
        obtain ⟨t, spans, rfl⟩ := List.exists_cons_of_ne_nil hne
        exact ⟨s :: t :: spans, List.cons_ne_nil _ _, (written_cons_cons s t spans).symm⟩
  · rintro ⟨spans, hne, rfl⟩
    induction spans with
    | nil => exact absurd rfl hne
    | cons s spans ih =>
        have hobject : IsObject s.json.toList := isObject_iff.mpr ⟨s, rfl⟩
        cases spans with
        | nil => exact written_singleton s ▸ .single hobject
        | cons t spans =>
            exact written_cons_cons s t spans ▸ .more hobject (ih (List.cons_ne_nil _ _))

theorem isArray_iff {text : List Char} :
    IsArray text ↔ ∃ spans, text = (Span.jsonArray spans).toList := by
  simp only [toList_jsonArray]
  constructor
  · rintro (_ | hobjects)
    · exact ⟨[], rfl⟩
    · obtain ⟨spans, -, rfl⟩ := isObjects_iff.mp hobjects
      exact ⟨spans, rfl⟩
  · rintro ⟨spans, rfl⟩
    cases spans with
    | nil => exact .empty
    | cons s spans => exact .full (isObjects_iff.mpr ⟨_, List.cons_ne_nil _ _, rfl⟩)

/-- Just what the grammar allows can be read. -/
theorem isArray_iff_array? {text : List Char} :
    IsArray text ↔ ∃ spans, array? text = some spans := by
  simp only [isArray_iff, array?_eq_some_iff]

theorem jsonArray_inj {xs ys : List Span} : Span.jsonArray xs = Span.jsonArray ys ↔ xs = ys := by
  refine ⟨fun h => ?_, congrArg _⟩
  have hread := array?_eq_some_iff.mpr (congrArg String.toList h)
  rw [array?_eq_some_iff.mpr rfl] at hread
  exact Option.some.inj hread

end Report

end Redaction
