import Story.Pattern.CharSet

/-!
# Patterns

Which files of a project are compiled is said by patterns: letters stand for themselves, `.` for any
character but a line feed, `\d` for a digit and `[a-c]` for one of several characters; `^` and `$`
are the ends of the text; groups, `|`, `*`, `+`, `?` and counts such as `{2}` have their usual
meaning. A pattern matches a text if it matches some stretch of it.

`Pattern.ends` are the places where a match that starts at a given place can end, and
`Pattern.isMatch` asks for a match anywhere. A repetition that prefers few rounds matches the same
texts as one that prefers many, so the two are not told apart.
-/

namespace Story

/-- A pattern. -/
inductive Pattern where
  /-- The empty text. -/
  | nothing
  /-- One character. -/
  | one (set : CharSet)
  /-- The start of the text. -/
  | start
  /-- The end of the text. -/
  | finish
  /-- One pattern after the other. -/
  | seq (first second : Pattern)
  /-- One pattern or the other. -/
  | either (first second : Pattern)
  /-- A pattern a number of times: at least and, if there is a bound, at most. -/
  | times (inner : Pattern) (least : Nat) (most : Option Nat)
deriving DecidableEq

/-- The places that are reached by just so many steps. -/
def reachedAfter (step : Nat → List Nat) : Nat → List Nat → List Nat
  | 0, places => places
  | count + 1, places => reachedAfter step count (places.flatMap step).eraseDups

/-- The places that can be reached by any number of steps, at most `bound` rounds of them. -/
def reachable (step : Nat → List Nat) : Nat → List Nat → List Nat
  | 0, places => places
  | bound + 1, places =>
    let next := (places ++ places.flatMap step).eraseDups
    -- Nothing new was reached, so nothing new will be.
    if next.length = places.length then places else reachable step bound next

namespace Pattern

/-- Where a match that starts before the character with index `i` can end. Without a bound, a
repetition reaches no new place after as many rounds as there are places. -/
def ends (text : List Char) : Pattern → Nat → List Nat
  | nothing, i => [i]
  | one set, i =>
    match text[i]? with
    | some c => if set.contains c then [i + 1] else []
    | none => []
  | start, i => if i = 0 then [i] else []
  | finish, i => if i = text.length then [i] else []
  | seq first second, i => ((first.ends text i).flatMap (second.ends text)).eraseDups
  | either first second, i => (first.ends text i ++ second.ends text i).eraseDups
  | times inner least most, i =>
    let further := match most with
      | none => text.length + 1
      | some n => n - least
    reachable (inner.ends text) further (reachedAfter (inner.ends text) least [i])

/-- Whether some stretch of the text matches. -/
def isMatch (p : Pattern) (text : String) : Bool :=
  let chars := text.toList
  (List.range (chars.length + 1)).any fun i => !(p.ends chars i).isEmpty

/-- How large the pattern is with its repetitions written out. -/
def size : Pattern → Nat
  | nothing | start | finish => 1
  | one set => 1 + set.size
  | seq first second | either first second => first.size + second.size
  -- A repetition without a bound takes one round more than its least count.
  | times inner least most => inner.size * max 1 (most.getD (least + 1))

end Pattern

end Story
