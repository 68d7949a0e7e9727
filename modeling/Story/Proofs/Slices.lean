import Mathlib.Data.String.Basic
import Story.Proofs.Ranges

/-!
# The text of a span

A span is two places, and a place is a number of bytes. Not every two numbers cut a piece out of a text:
the second may be less than the first, beyond the end, or within a character. `Span.IsSlice` says that all is
well, and `Span.slice` is the piece.

* `Spot.StandsIn` — what is left at a spot stands in the text, at the place that the spot says;
* `Spot.StandsIn.isSlice`, `Spot.StandsIn.slice_eq` — so the span between two spots is a piece of the
  text, and it is made up of the tokens that are read between them.
-/

namespace Story

namespace Span

/-- **The span is a piece of the text:** it does not stop before it starts, and it starts and stops between
characters of the text. -/
structure IsSlice (source : String) (r : Span) : Prop where
  start : String.Pos.Raw.IsValid source ⟨r.start.offset⟩
  stop : String.Pos.Raw.IsValid source ⟨r.stop.offset⟩
  le : r.start.offset ≤ r.stop.offset

/-- The piece of the text that the span covers. -/
def slice (source : String) (r : Span) : String :=
  String.Pos.Raw.extract source ⟨r.start.offset⟩ ⟨r.stop.offset⟩

variable {source before middle after : String} {r : Span}

/-- The places before and after a piece of a text. -/
theorem isSlice_of_append (hsource : source = before ++ (middle ++ after))
    (hstart : r.start = Position.zero.advance before) (hstop : r.stop = r.start.advance middle) :
    r.IsSlice source := by
  have hbefore : r.start.offset = before.utf8ByteSize := by
    rw [hstart, Position.offset_advance, Position.zero, Nat.zero_add]
  -- A place is valid if its offset is the number of bytes of a text before it.
  have hmiddle : r.stop.offset = (before ++ middle).utf8ByteSize := by
    rw [hstop, Position.offset_advance, hbefore, String.utf8ByteSize_append]
  refine ⟨?_, ?_, ?_⟩
  · exact String.Pos.Raw.isValid_iff_exists_append.mpr
      ⟨before, middle ++ after, hsource, String.Pos.Raw.ext hbefore⟩
  · exact String.Pos.Raw.isValid_iff_exists_append.mpr
      ⟨before ++ middle, after, by rw [hsource, String.append_assoc], String.Pos.Raw.ext hmiddle⟩
  · rw [hstop, Position.offset_advance]
    exact Nat.le_add_right _ _

theorem slice_of_append (hsource : source = before ++ (middle ++ after))
    (hstart : r.start = Position.zero.advance before) (hstop : r.stop = r.start.advance middle) :
    r.slice source = middle := by
  have hbefore : r.start.offset = String.utf8Len before.toList := by
    rw [hstart, Position.offset_advance, Position.zero, Nat.zero_add, String.utf8Len_toList]
  have hmiddle : r.stop.offset = String.utf8Len before.toList + String.utf8Len middle.toList := by
    rw [hstop, Position.offset_advance, hbefore, String.utf8Len_toList middle]
  have hchars : source = String.ofList (before.toList ++ middle.toList ++ after.toList) := by
    rw [hsource, ← String.toList_append, ← String.toList_append, String.ofList_toList,
      String.append_assoc]
  rw [slice, hbefore, hmiddle, hchars, String.extract_of_valid, String.ofList_toList]

end Span

/-! ### Spots in a text -/

namespace Spot

/-- **A spot in a text:** everything is in its place, and what is left stands in the text at the place of
the spot. -/
structure StandsIn (source : String) (a : Spot) : Prop extends a.Placed where
  split : ∃ before after, source = before ++ (Token.joined a.rest ++ after) ∧
    a.position = Position.zero.advance before

namespace StandsIn

variable {source : String} {a b c : Spot}

/-- What is read between two spots is a piece of the text. -/
theorem piece (h : a.StandsIn source) (h' : a.Onward b) :
    ∃ ts before after, a.rest = ts ++ b.rest ∧
      source = before ++ (Token.joined ts ++ (Token.joined b.rest ++ after)) ∧
      a.position = Position.zero.advance before ∧
      b.position = a.position.advance (Token.joined ts) := by
  obtain ⟨before, after, hsource, hposition⟩ := h.split
  obtain ⟨ts, hts, hpath, -⟩ := h.path_read h'
  refine ⟨ts, before, after, hts, ?_, hposition, hpath.stop_eq_advance⟩
  rw [hsource, hts, Token.joined_append, String.append_assoc]

theorem onward (h : a.StandsIn source) (h' : a.Onward b) : b.StandsIn source where
  toPlaced := h.toPlaced.onward h'
  split := by
    obtain ⟨ts, before, after, -, hsource, hposition, hread⟩ := h.piece h'
    refine ⟨before ++ Token.joined ts, after, ?_, ?_⟩
    · rw [hsource, String.append_assoc]
    · rw [hread, hposition, Position.advance_append]

theorem isSlice (h : a.StandsIn source) (h' : a.Onward b) :
    (Span.mk a.position b.position).IsSlice source := by
  obtain ⟨ts, before, after, -, hsource, hposition, hread⟩ := h.piece h'
  exact Span.isSlice_of_append hsource hposition hread

/-- The text between two spots is that of the tokens between them. -/
theorem slice_eq (h : a.StandsIn source) (h' : a.Onward b) {ts : List Token}
    (hts : a.rest = ts ++ b.rest) : (Span.mk a.position b.position).slice source = Token.joined ts := by
  obtain ⟨us, before, after, hus, hsource, hposition, hread⟩ := h.piece h'
  obtain rfl : ts = us := List.append_cancel_right (hts.symm.trans hus)
  exact Span.slice_of_append hsource hposition hread

end StandsIn

end Spot

namespace State

theorem Extends.onward {s t : State} (h : s.Extends t) : s.spot.Onward t.spot := ⟨h.rest, h.finish⟩

theorem Inside.onward {o s : State} {d : Nat} (h : o.Inside d s) : o.spot.Onward s.spot :=
  ⟨h.rest, h.finish⟩

theorem joined_ofText (source : String) (indentSize : Nat) :
    Token.joined (ofText source indentSize).rest = source := by
  have htokens := congrArg Token.joined (ofText_spec source indentSize).1
  rw [joined_splitComments, joined_scan, Token.joined_append] at htokens
  exact (htokens.trans String.append_empty).symm

/-- Before a text is read, all of it is left. -/
theorem standsIn_ofText (source : String) (indentSize : Nat) :
    (ofText source indentSize).spot.StandsIn source where
  toPlaced := (placed_ofText source indentSize).spot
  split := by
    refine ⟨"", "", ?_, position_ofText source indentSize⟩
    rw [String.empty_append, String.append_empty]
    exact (joined_ofText source indentSize).symm

end State

end Story
