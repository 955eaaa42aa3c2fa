/-!
# Sets of characters

A set is given by ranges, or is made of other sets by the operations of set algebra. It is never
computed: `CharSet.contains` asks its parts.
-/

namespace AsyncMarkers

/-- An operation on two sets. -/
inductive SetOperation where
  | union
  | intersection
  | difference
  /-- What belongs to one of the sets but not to both. -/
  | symmetricDifference
deriving DecidableEq

/-- Whether a character belongs to the result of an operation, by whether it belongs to the sets. -/
def SetOperation.apply : SetOperation → Bool → Bool → Bool
  | .union, left, right => left || right
  | .intersection, left, right => left && right
  | .difference, left, right => left && !right
  | .symmetricDifference, left, right => left != right

/-- A set of characters. -/
inductive CharSet where
  /-- The characters between the least and the greatest one of a range. -/
  | ranges (ranges : List (Char × Char))
  /-- The characters that do not belong to a set. -/
  | complement (set : CharSet)
  | combined (operation : SetOperation) (left right : CharSet)
deriving DecidableEq

namespace CharSet

/-- Whether a character belongs to the set. -/
def contains : CharSet → Char → Bool
  | .ranges rs, c => rs.any fun r => r.1 ≤ c && c ≤ r.2
  | .complement s, c => !s.contains c
  | .combined operation s t, c => operation.apply (s.contains c) (t.contains c)

/-- The set of one character. -/
def single (c : Char) : CharSet := .ranges [(c, c)]

/-- Every character but the line feed. -/
def withinLine : CharSet := .complement (single '\n')

/-- The characters that belong to one of the sets. -/
def unionAll (sets : List CharSet) : CharSet :=
  match sets with
  | [] => .ranges []
  | set :: sets => sets.foldl (.combined .union) set

end CharSet

end AsyncMarkers
