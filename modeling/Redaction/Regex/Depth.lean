/-!
# Depth of nesting

How deep an expression nests is counted while it is read, so that no tree of it is
needed. A single character has depth 0. Repeating something, a group and brackets add
one level each, and so does a row of two or more things, whether they follow each
other, are alternatives or are members of one set.
-/

namespace Redaction.Regex

/-- Things side by side: how many there are, and how deep the deepest is. -/
structure Row where
  count : Nat := 0
  deepest : Nat := 0
deriving DecidableEq, Repr

namespace Row

def depth (r : Row) : Nat := if r.count ≤ 1 then r.deepest else r.deepest + 1

def add (r : Row) (depth : Nat) : Row where
  count := r.count + 1
  deepest := max r.deepest depth

/-- Something in the row gets as deep as this. -/
def deepen (r : Row) (depth : Nat) : Row := { r with deepest := max r.deepest depth }

end Row

/-- Expressions that nest deeper are refused. -/
def depthLimit : Nat := 250

end Redaction.Regex
