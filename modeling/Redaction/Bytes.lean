/-!
# Bytes and text

A stream is a list of bytes, and text enters and leaves it as UTF-8. `Bytes.cut`
divides a run of bytes into the portions in which it is read.
-/

namespace Redaction

abbrev Bytes := List UInt8

namespace Bytes

/-- The UTF-8 bytes of a text. -/
def ofText (s : String) : Bytes := s.toUTF8.data.toList

/-- The text whose UTF-8 bytes these are. -/
def toText? (bs : Bytes) : Option String := String.fromUTF8? ⟨bs.toArray⟩

/-- Text survives being written as bytes and read back. -/
theorem toText?_ofText (s : String) : toText? (ofText s) = some s := by
  have h : (⟨s.toUTF8.data.toList.toArray⟩ : ByteArray) = s.toByteArray := by simp
  rw [toText?, ofText, h, String.fromUTF8?, dif_pos s.isValidUTF8]
  rfl

theorem ofText_append (a b : String) : ofText (a ++ b) = ofText a ++ ofText b := by
  simp [ofText]

theorem flatten_map_ofText (texts : List String) :
    (texts.map ofText).flatten = ofText (String.join texts) := by
  induction texts with
  | nil => rfl
  | cons t rest ih => rw [List.map_cons, List.flatten_cons, ih, String.join_cons, ofText_append]

/-! ## Portions -/

/-- Portions of `n + 1` bytes; the last one may be shorter, and none is empty. -/
def cut (n : Nat) : Bytes → List Bytes
  | [] => []
  | b :: bs => (b :: bs.take n) :: cut n (bs.drop n)
termination_by bs => bs.length
decreasing_by simp only [List.length_drop, List.length_cons]; omega

theorem flatten_cut (n : Nat) (bs : Bytes) : (cut n bs).flatten = bs := by
  fun_induction cut n bs with
  | case1 => rfl
  | case2 b bs ih => simp [ih]

theorem nil_notMem_cut (n : Nat) (bs : Bytes) : [] ∉ cut n bs := by
  fun_induction cut n bs with
  | case1 => simp
  | case2 b bs ih => simp [ih]

end Bytes

end Redaction
