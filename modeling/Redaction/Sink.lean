import Redaction.Bytes

/-!
# Sinks

A sink takes bytes, call by call, and may refuse. Some calls can be set to fail
as a whole; or the sink has room for so many bytes, takes of each call what
still fits, and refuses the rest; and the flush at the end can fail. How many bytes
it takes depends on how many there are, not on which.
-/

namespace Redaction

inductive SinkError
  | callRefused
  | full
  | flushRefused
deriving DecidableEq, Repr

def SinkError.message : SinkError → String
  | .callRefused => "sink failed"
  | .full => "sink full"
  | .flushRefused => "flush failed"

structure Sink where
  /-- The calls that fail, counted from 0 over the life of the sink. -/
  refused : List Nat := []
  /-- How many more bytes there is room for, if room is limited. -/
  room : Option Nat := none
  refusesFlush : Bool := false
  calls : Nat := 0
  flushes : Nat := 0
deriving DecidableEq, Repr

/-- What comes of handing bytes to a sink. -/
structure Sink.Reply where
  /-- How many of the bytes it took. -/
  taken : Nat := 0
  sink : Sink
  error : Option SinkError := none
deriving DecidableEq, Repr

namespace Sink

/-- Hands `n` bytes to the sink; no bytes make no call. -/
def put (s : Sink) (n : Nat) : Reply :=
  let next := { s with calls := s.calls + 1 }
  if n = 0 then { sink := s }
  else if s.calls ∈ s.refused then { sink := next, error := some .callRefused }
  else match s.room with
    | none => { taken := n, sink := next }
    | some room =>
      if n ≤ room then { taken := n, sink := { next with room := some (room - n) } }
      else { taken := room, sink := { next with room := some 0 }, error := some .full }

/-- Hands pieces of these sizes to the sink, one call for each, up to the first that it does
not take whole. -/
def putAll (s : Sink) : List Nat → Reply
  | [] => { sink := s }
  | n :: rest =>
    let r := s.put n
    match r.error with
    | some _ => r
    | none =>
      let more := r.sink.putAll rest
      { more with taken := r.taken + more.taken }

def flush (s : Sink) : Reply :=
  { sink := { s with flushes := s.flushes + 1 }
    error := if s.refusesFlush then some .flushRefused else none }

end Sink

end Redaction
