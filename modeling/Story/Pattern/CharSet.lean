import Story.Text.Blank
import Story.Text.Digit
import Story.Text.LetterCase

/-!
# Sets of characters

What a pattern can ask of one character: that it lies in one of some ranges, perhaps whatever its
case, or that it lies in a set that is put together from others.

`CharSet.contains` says which characters a set holds. Where case is irrelevant, ranges hold all
variants of a letter or none, and the operations on sets keep it so.
-/

namespace Story

/-- A set of characters. -/
inductive CharSet where
  /-- Ranges of characters, by number, both ends included. Case may be irrelevant. -/
  | ranges (ignoresCase : Bool) (ranges : List (Nat × Nat))
  /-- What is not in the set. -/
  | complement (set : CharSet)
  /-- What is in one set or in the other. -/
  | union (first second : CharSet)
  /-- What is in both sets. -/
  | intersection (first second : CharSet)
  /-- What is in the first set only. -/
  | difference (first second : CharSet)
  /-- What is in one set but not in both. -/
  | symmetricDifference (first second : CharSet)
deriving DecidableEq

namespace CharSet

/-- Whether some range holds the number. -/
def inSome (ranges : List (Nat × Nat)) (n : Nat) : Bool :=
  ranges.any fun (first, last) => first ≤ n && n ≤ last

/-- Whether the set holds a character. -/
def contains : CharSet → Char → Bool
  | ranges ignoresCase rs, c =>
    if ignoresCase then (caseVariants c).any (inSome rs) else inSome rs c.toNat
  | complement set, c => !set.contains c
  | union first second, c => first.contains c || second.contains c
  | intersection first second, c => first.contains c && second.contains c
  | difference first second, c => first.contains c && !second.contains c
  | symmetricDifference first second, c => first.contains c != second.contains c

/-- No character. -/
def empty : CharSet := ranges false []

/-- Just one character. -/
def single (ignoresCase : Bool) (c : Char) : CharSet := ranges ignoresCase [(c.toNat, c.toNat)]

/-- All characters but the line feed. -/
def notLineFeed : CharSet := complement (ranges false [(10, 10)])

/-- The decimal digits of all scripts. -/
def digits : CharSet := ranges false digitRanges

/-- White space. -/
def space : CharSet :=
  ranges false
    [(9, 13), (0x20, 0x20), (0x85, 0x85), (0xa0, 0xa0), (0x1680, 0x1680), (0x2000, 0x200a),
     (0x2028, 0x2029), (0x202f, 0x202f), (0x205f, 0x205f), (0x3000, 0x3000)]

/-- The set that a name stands for between `[:` and `:]`. -/
def named? : String → Option (List (Nat × Nat))
  | "alnum" => some [(48, 57), (65, 90), (97, 122)]
  | "alpha" => some [(65, 90), (97, 122)]
  | "ascii" => some [(0, 127)]
  | "blank" => some [(9, 9), (32, 32)]
  | "cntrl" => some [(0, 31), (127, 127)]
  | "digit" => some [(48, 57)]
  | "graph" => some [(33, 126)]
  | "lower" => some [(97, 122)]
  | "print" => some [(32, 126)]
  | "punct" => some [(33, 47), (58, 64), (91, 96), (123, 126)]
  | "space" => some [(9, 13), (32, 32)]
  | "upper" => some [(65, 90)]
  | "word" => some [(48, 57), (65, 90), (95, 95), (97, 122)]
  | "xdigit" => some [(48, 57), (65, 70), (97, 102)]
  | _ => none

/-- How many ranges the set is put together from. -/
def size : CharSet → Nat
  | ranges _ rs => rs.length
  | complement set => set.size
  | union first second | intersection first second | difference first second
  | symmetricDifference first second => first.size + second.size

end CharSet

end Story
