import Redaction.Pattern

/-!
# Tracking one pattern

A tracker reads a stream byte by byte and keeps one number, the length of the
beginning of its pattern that it takes to have just seen. On a byte that does
not fit, it falls back once to the longest shorter beginning and compares once
more; when that fails too it stays there and the byte is lost. A completed
pattern is a hit and starts over from nothing.

One comparison after one fallback is less than a full failure-function search:
patterns whose first byte recurs inside can be reported where they do not stand,
or missed where they do. That is the rule of this machine.
-/

namespace Redaction

inductive PatternError
  | empty
  | emptyAt (index : Nat)
deriving DecidableEq, Repr

def PatternError.message : PatternError → String
  | .empty => "pattern must not be empty"
  | .emptyAt index => s!"pattern at index {index} must not be empty"

structure Tracker where
  pattern : Pattern
  cursor : Nat := 0
deriving DecidableEq, Repr

namespace Tracker

def ofPattern (pattern : Bytes) : Except PatternError Tracker :=
  if pattern.isEmpty then .error .empty else .ok { pattern := Pattern.ofBytes pattern }

def Fits (t : Tracker) (b : UInt8) : Prop := t.pattern.get? t.cursor = some b

instance (t : Tracker) (b : UInt8) : Decidable (t.Fits b) :=
  inferInstanceAs (Decidable (_ = _))

def fallBack (t : Tracker) : Tracker := { t with cursor := t.pattern.lap t.cursor }

/-- One more byte of the pattern has been seen; the flag tells whether it was the last. -/
def advance (t : Tracker) : Tracker × Bool :=
  if t.cursor + 1 = t.pattern.length then ({ t with cursor := 0 }, true)
  else ({ t with cursor := t.cursor + 1 }, false)

/-- Reads one byte; the flag tells whether it completes the pattern. -/
def step (t : Tracker) (b : UInt8) : Tracker × Bool :=
  if t.Fits b then t.advance
  else if t.fallBack.Fits b then t.fallBack.advance
  else (t.fallBack, false)

/-! ## Runs -/

/-- What each byte of a run leads to. -/
def run (t : Tracker) : Bytes → List (Tracker × Bool)
  | [] => []
  | b :: bs => t.step b :: (t.step b).1.run bs

/-- The tracker after a run. -/
def after (t : Tracker) (bs : Bytes) : Tracker := bs.foldl (fun t b => (t.step b).1) t

/-- The positions in a run of the bytes that complete the pattern. -/
def hits (t : Tracker) (bs : Bytes) : List Nat :=
  (t.run bs).zipIdx.filterMap fun ((_, hit), i) => if hit then some i else none

@[simp] theorem after_nil (t : Tracker) : t.after [] = t := rfl

@[simp] theorem after_cons (t : Tracker) (b : UInt8) (bs : Bytes) :
    t.after (b :: bs) = (t.step b).1.after bs := rfl

theorem after_append (t : Tracker) (xs ys : Bytes) :
    t.after (xs ++ ys) = (t.after xs).after ys := List.foldl_append

theorem run_append (t : Tracker) (xs ys : Bytes) :
    t.run (xs ++ ys) = t.run xs ++ (t.after xs).run ys := by
  induction xs generalizing t with
  | nil => rfl
  | cons x xs ih => simp [run, ih]

@[simp] theorem step_pattern (t : Tracker) (b : UInt8) : (t.step b).1.pattern = t.pattern := by
  unfold step advance fallBack
  repeat' split
  all_goals rfl

theorem after_pattern (t : Tracker) (bs : Bytes) : (t.after bs).pattern = t.pattern := by
  induction bs generalizing t with
  | nil => rfl
  | cons b bs ih => simp [ih]

end Tracker

end Redaction
