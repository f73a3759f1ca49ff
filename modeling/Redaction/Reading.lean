import Redaction.Bytes

/-!
# Reading an input in portions

An input is a list of pieces. Each read takes up to `size` bytes of the piece at
hand and never joins two pieces; an interrupted read is tried again; a read that
fails ends the input with a reason. An empty piece is a read of no bytes, which
is how an input says that it has ended.

What is read goes to a buffer of `size` bytes, which is there before the first
read. A buffer cannot have more bytes than `bufferLimit`, and for more nothing is
read at all. That there is memory for a smaller one is taken for granted.
-/

namespace Redaction

inductive Piece
  | data (bytes : Bytes)
  | interrupted
  | failing (reason : String)
deriving DecidableEq, Repr

/-! ## An input that comes through a buffer of its own -/

namespace Piece

/-- How many bytes a buffered input takes at a time from where it comes from. -/
def blockSize : Nat := 8192

/-- A piece, divided as a buffered input takes it. -/
def blocks : Piece → List Piece
  | data [] => [data []]
  | data bs => (Bytes.cut (blockSize - 1) bs).map data
  | interrupted => [interrupted]
  | failing reason => [failing reason]

/-- Pieces as a buffered input gives them to one who reads up to `size` bytes at a time. Who
reads as much as the buffer has passes it by. -/
def buffered (size : Nat) (pieces : List Piece) : List Piece :=
  if size < blockSize then pieces.flatMap blocks else pieces

end Piece

/-! ## Reading -/

inductive ReadError
  | failing (reason : String)
  /-- The buffer would have more bytes than a buffer can have. -/
  | overflow
deriving DecidableEq, Repr

def ReadError.message : ReadError → String
  | .failing reason => reason
  | .overflow => "capacity overflow"

/-- The portions that were read, and why reading failed, if it did. -/
structure Reading where
  portions : List Bytes := []
  failure : Option ReadError := none
deriving DecidableEq, Repr

namespace Reading

/-- The most bytes that a buffer can have: the largest signed number in 64 bits. -/
def bufferLimit : Nat := 0x7FFFFFFFFFFFFFFF

/-- Reads all pieces into a buffer of `size` bytes. -/
def fill (size : Nat) : List Piece → Reading
  | [] => {}
  | .data [] :: _ => {}
  | .data (b :: bs) :: rest =>
    let r := fill size rest
    { r with portions := Bytes.cut (size - 1) (b :: bs) ++ r.portions }
  | .interrupted :: rest => fill size rest
  | .failing reason :: _ => { failure := some (.failing reason) }

/-- Reads all pieces, at most `size` bytes at a time. -/
def ofPieces (size : Nat) (pieces : List Piece) : Reading :=
  if size ≤ bufferLimit then fill size pieces else { failure := some .overflow }

/-- All bytes that were read. -/
def bytes (r : Reading) : Bytes := r.portions.flatten

end Reading

end Redaction
