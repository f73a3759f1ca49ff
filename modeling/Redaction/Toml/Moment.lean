import Redaction.Toml.Number

/-!
# Dates and times

A date, a time of day, or both with a `T` or a blank between them and perhaps an
offset behind. Only days that the calendar has are dates; a minute may have a
61st second.
-/

namespace Redaction.Toml

open Scan

/-- A number of exactly `n` digits between two bounds. -/
def fixed (n low high : Nat) : Scan Nat := fun s => do
  let ds := s.take n
  guard (ds.length = n && ds.all Char.isDigit)
  let value := decimalValue ds
  guard (low ≤ value && value ≤ high)
  return (value, s.drop n)

def isLeapYear (year : Nat) : Bool := year % 4 = 0 && (year % 100 ≠ 0 || year % 400 = 0)

def daysIn (year month : Nat) : Nat :=
  if month = 2 then if isLeapYear year then 29 else 28
  else if month = 4 ∨ month = 6 ∨ month = 9 ∨ month = 11 then 30
  else 31

def date : Scan Unit := do
  let year ← fixed 4 0 9999
  char '-'
  let month ← fixed 2 1 12
  char '-'
  discard (fixed 2 1 (daysIn year month))

def timeOfDay : Scan Unit := do
  discard (fixed 2 0 23)
  char ':'
  discard (fixed 2 0 59)
  char ':'
  discard (fixed 2 0 60)
  discard (perhaps (do char '.'; takeWhile1 Char.isDigit))

def offset : Scan Unit := do
  if ← goesOn (satisfy fun c => c == 'Z' || c == 'z') then return
  discard (satisfy fun c => c == '+' || c == '-')
  discard (fixed 2 0 23)
  char ':'
  discard (fixed 2 0 59)

def dateTime : Scan Unit := do
  date
  discard (perhaps (do
    discard (satisfy fun c => c == 'T' || c == 't' || c == ' ')
    timeOfDay
    discard (perhaps offset)))

def moment : Scan Unit := dateTime <|> timeOfDay

end Redaction.Toml
