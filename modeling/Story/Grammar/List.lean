import Story.Grammar.Parser

/-!
# Bracketed lists

Parameters, arguments, array elements, object members, the statements of a block and the condition
of an `if` are all lists between brackets. `Grammar.bracketed` reads such a list and never gives up
on one once its bracket is open: a missing separator or closing bracket is reported, and what no
item accepts is reported and passed over, token by token.
-/

namespace Story.Grammar

open Story.Parser

variable {α : Type}

/-- How a bracketed list is written. -/
structure ListStyle where
  /-- The opening bracket. -/
  opening : TokenKind
  /-- The closing bracket. -/
  closing : TokenKind
  /-- What stands between items. -/
  separator : Option TokenKind
  /-- Whether the list may go on in the next line. -/
  multiline : Bool

/-- `(a, b)`. -/
def parenList (multiline : Bool) : ListStyle := ⟨.parenOpen, .parenClose, some .comma, multiline⟩

/-- `[a, b]`. -/
def bracketList (multiline : Bool) : ListStyle :=
  ⟨.bracketOpen, .bracketClose, some .comma, multiline⟩

/-- Braces with commas between the items. -/
def braceList (multiline : Bool) : ListStyle := ⟨.braceOpen, .braceClose, some .comma, multiline⟩

/-- Braces around statements. -/
def statementList : ListStyle := ⟨.braceOpen, .braceClose, none, true⟩

/-- Parentheses around a condition. -/
def conditionList (multiline : Bool) : ListStyle := ⟨.parenOpen, .parenClose, none, multiline⟩

/-- A list that is being read: the items so far, the latest first, and whether a separator is due.
-/
structure ListProgress (α : Type) where
  /-- The items so far, the latest first. -/
  items : List α
  /-- Whether a separator is due. -/
  needsSeparator : Bool

/-- Read an item, or report a token and pass over it. -/
def listItem (style : ListStyle) (item : List α → Parser α) (p : ListProgress α) :
    Parser (Round (ListProgress α) (List α × Option Span)) := do
  let before ← look State.cursor
  match ← attempt (item p.items) with
  | some value =>
    let after ← look State.cursor
    -- An item that read nothing would be read again for ever.
    if after == before then change .advance
    return .again ⟨value :: p.items, style.separator.isSome⟩
  | none =>
    let t ← token
    reportAt t.span .unexpectedToken [t.text]
    return .again p

/-- What comes after trivia, with no closing bracket in sight: a separator or an item. -/
def listElement (style : ListStyle) (item : List α → Parser α) (p : ListProgress α) :
    Parser (Round (ListProgress α) (List α × Option Span)) := do
  match style.separator with
  | none => listItem style item p
  | some separator =>
    let s ← state
    if s.kind = separator then
      -- Two separators, or one before the first item.
      if !p.needsSeparator then report .unexpectedToken [s.current.text]
      change .advance
      return .again ⟨p.items, false⟩
    else
      if p.needsSeparator then expected separator.text
      listItem style item p

/-- One round: the closing bracket, the end of where the list may stand, a separator or an item. -/
def listRound (style : ListStyle) (item : List α → Parser α) (p : ListProgress α) :
    Parser (Round (ListProgress α) (List α × Option Span)) := do
  trivia style.multiline
  let s ← state
  if s.kind = style.closing then
    change .advance
    return .done (p.items.reverse, some s.current.span)
  else if s.isEof || (!style.multiline && s.isLineEnd) then
    expected style.closing.text
    return .done (p.items.reverse, none)
  else
    listElement style item p

/-- A list between brackets. `item` is told the items that have been read, the latest first. Only a
list whose opening bracket is not there fails. -/
def bracketed (style : ListStyle) (item : List α → Parser α) : Parser (Brackets × List α) := do
  let opening ← eat style.opening
  let (items, closing) ← repeated (listRound style item) ⟨[], false⟩
  return (⟨opening.span, closing⟩, items)

end Story.Grammar
