import AsyncMarkers.Text.LetterCase

/-!
# Lower-case text

Two names are the same up to case if their lower-case forms are equal. The lower-case form of a text
is that of its characters one by one, except for the letter sigma, which has a form of its own at
the end of a word.
-/

namespace AsyncMarkers

/-- Whether a code point is in one of the ranges. -/
def inRanges (ranges : List (Nat × Nat)) (code : Nat) : Bool :=
  ranges.any fun (first, last) => decide (first ≤ code ∧ code ≤ last)

/-- Whether a code point is one of the letters of a range. -/
def CaseRange.contains (r : CaseRange) (code : Nat) : Bool :=
  decide (r.first ≤ code ∧ code ≤ r.last ∧ (code - r.first) % r.step = 0)

/-- Whether the first character that is not passed over has a case. -/
def meetsCased (cs : List Char) : Bool :=
  match cs.dropWhile fun c => inRanges ignoredRanges c.toNat with
  | [] => false
  | c :: _ => inRanges casedRanges c.toNat

/-- The lower-case form of a character by itself. A capital I with a dot above it keeps the dot. -/
def lowerChar (c : Char) : List Char :=
  if c = 'İ' then ['i', '\u0307']
  else
    match caseRanges.find? (·.contains c.toNat) with
    | some r => [Char.ofNat (r.lower + (c.toNat - r.first))]
    | none => [c]

/-- The lower-case form of the characters `cs`, which stand behind those of `before` (the last of
them first). A sigma ends a word if a letter stands before it and none behind it. -/
def lowerAfter (before : List Char) : List Char → List Char
  | [] => []
  | c :: cs =>
    let lower :=
      if c = 'Σ' ∧ meetsCased before ∧ ¬ meetsCased cs then ['ς'] else lowerChar c
    lower ++ lowerAfter (c :: before) cs

/-- The lower-case form of a text. -/
def lowerCase (s : String) : String := String.ofList (lowerAfter [] s.toList)

end AsyncMarkers
