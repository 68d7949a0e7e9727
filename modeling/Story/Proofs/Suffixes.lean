import Story.Proofs.Recursion
import Story.Proofs.TwinStatements
import Story.Proofs.Written

/-!
# What a continuation adds

There is no precedence among the continuations of an expression: each is put on all that stands before it, so
`a + b.c` is read as a member of a sum. This does no harm to the script, since whatever stands before a
continuation is written before it, and what is written for the continuation itself does not depend on it.

* `Suffix` — what a continuation adds, without what it is added to; `Suffix.written_attach` — it is written
  at the end;
* `Grammar.suffix` — a reader of suffixes. `Grammar.continuation_eq` — a continuation reads a suffix and puts
  it on the expression before it. Only a complaint about a bad target of an assignment looks at that
  expression.
-/

namespace Story

open Story.Parser
open Script (commas)

/-! ### Suffixes -/

/-- What one continuation adds to the expression before it. -/
inductive Suffix where
  /-- `.name` or `?.name`. -/
  | member (name : String) (isOptional : Bool)
  /-- Arguments. -/
  | call (brackets : Brackets) (arguments : List Expression) (isOptional : Bool)
  /-- An index between brackets. -/
  | index (inner : Expression) (isOptional : Bool)
  /-- `++` or `--`. -/
  | update (operator : UpdateOperator)
  /-- An operator, which starts at `sign`, with its right operand. -/
  | operation (sign : Span) (operator : BinaryOperator) (right : Expression)
  /-- `? whenTrue : whenFalse`. -/
  | conditional (whenTrue whenFalse : Expression)

namespace Suffix

/-- The expression that an expression becomes. -/
def attach (span : Span) (e : Expression) : Suffix → Expression
  | member name isOptional => .member span e name isOptional
  | call brackets arguments isOptional => .call span e brackets arguments isOptional
  | index inner isOptional => .index span e inner isOptional
  | update operator => .update span operator false e
  | operation _ operator right => .binary span e operator right
  | conditional whenTrue whenFalse => .conditional span e whenTrue whenFalse

/-- What a suffix is written as. -/
def written : Suffix → Writing
  | member name isOptional => .ofText (optionalMark isOptional ++ "[" ++ quoteName name ++ "]")
  | call _ arguments isOptional =>
    .ofText (optionalMark isOptional ++ "(") ++
      .ofScript (fun o level => commas <$> Expression.scripts o level arguments) ++ .ofText ")"
  | index inner isOptional => .ofText (optionalMark isOptional ++ "[") ++ inner.written ++ .ofText "]"
  | update operator => .ofText operator.spelling
  | operation _ operator right => .ofText (" " ++ operator.spelling ++ " ") ++ right.written
  | conditional whenTrue whenFalse =>
    .ofText " ? " ++ whenTrue.written ++ .ofText " : " ++ whenFalse.written

/-- **A suffix is written after the expression, whatever that is.** -/
theorem written_attach (w : Suffix) (span : Span) (e : Expression) :
    (w.attach span e).written = e.written ++ w.written := by
  funext o level s
  cases w <;>
    simp [attach, written, Expression.written, Writing.ofScript, Writing.ofText, Expression.script,
      Writing.append_run, Emit.pure_run, Emit.bind_run, Emit.map_run, Script.text_append,
      String.append_assoc]

/-- Report an assignment to what is no target. -/
def check (e : Expression) : Suffix → Parser Unit
  | operation sign operator _ =>
    if operator.isAssignment && !Grammar.isAssignable e then reportAt sign .invalidTarget [] else return
  | _ => return

/-- Put a suffix on an expression that starts at `start`. -/
def putOn (start : Position) (e : Expression) (w : Suffix) : Parser Expression := do
  w.check e
  return w.attach (← spanFrom start) e

/-- What the expression before a suffix decides is at most a report. -/
theorem check_run (e : Expression) (w : Suffix) (s : State) :
    ∃ reports, w.check e s = (some (), { s with reports := reports }) := by
  cases w with
  | operation =>
    rw [check]
    split
    · exact ⟨_, rfl⟩
    · exact ⟨s.reports, rfl⟩
  | _ => exact ⟨s.reports, rfl⟩

theorem putOn_run (start : Position) (e : Expression) (w : Suffix) (s : State) :
    ∃ reports, w.putOn start e s = (some (w.attach (s.spanFrom start) e), { s with reports := reports }) := by
  obtain ⟨reports, hcheck⟩ := w.check_run e s
  refine ⟨reports, ?_⟩
  change bindRun (w.check e) _ s = _
  rw [bindRun, hcheck]
  rfl

end Suffix

/-! ### Parsers as programs -/

namespace Parser

variable {α β : Type}

instance : LawfulMonad Parser := .mk' Parser
  (fun p => Parser.ext fun s => by
    change bindRun p (fun a => pure a) s = p s
    rcases hp : p s with ⟨_ | a, s'⟩ <;> simp only [bindRun, hp]
    rfl)
  (fun _ _ => rfl)
  fun p f g => Parser.ext fun s => by
    change bindRun ⟨bindRun p f, _⟩ g s = bindRun p (fun a => f a >>= g) s
    rcases hp : p s with ⟨_ | a, s'⟩ <;> simp only [bindRun, hp]
    rfl

/-- What is done after something that is tried, if it never fails, may be tried with it. -/
theorem attempt_bind {p : Parser α} {f : α → Parser β} (hf : ∀ a s, (f a s).1.isSome) :
    attempt (p >>= f) = (do
      match ← attempt p with
      | some a => return some (← f a)
      | none => return none) := by
  refine Parser.ext fun s => ?_
  change (some (rewindRun (p >>= f) s).1, (rewindRun (p >>= f) s).2) =
    bindRun (attempt p) (fun x => match x with | some a => (do return some (← f a)) | none => return none) s
  have hattempt : attempt p s = (some (rewindRun p s).1, (rewindRun p s).2) := rfl
  simp only [bindRun, hattempt, rewindRun_eq]
  -- If `p` fails, both sides go back to `s`; if not, `f` cannot make the attempt fail any more.
  rcases hp : p s with ⟨_ | a, s'⟩
  · have hbind : (p >>= f) s = (none, s') := by
      change bindRun p f s = _
      simp only [bindRun, hp]
    simp only [hbind]
    rfl
  · have hbind : (p >>= f) s = f a s' := by
      change bindRun p f s = _
      simp only [bindRun, hp]
    have hsome := hf a s'
    simp only [hbind, hsome, Option.isSome_some, ↓reduceIte]
    obtain ⟨b, hb⟩ := Option.isSome_iff_exists.mp hsome
    change _ = bindRun (f a) (fun b => pure (some b)) s'
    rcases hfa : f a s' with ⟨_ | b, t⟩
    · rw [hfa] at hb
      cases hb
    · simp only [bindRun, hfa]
      rfl

theorem orElse_bind {p q : Parser α} {f : α → Parser β} (hf : ∀ a s, (f a s).1.isSome) :
    (p >>= f <|> q >>= f) = (p <|> q) >>= f := by
  change (attempt (p >>= f) >>= fun x => match x with | some a => pure a | none => q >>= f) =
    (attempt p >>= fun x => match x with | some a => pure a | none => q) >>= f
  rw [attempt_bind hf, bind_assoc, bind_assoc]
  refine bind_congr fun x => ?_
  cases x <;> simp

end Parser

/-! ### Reading suffixes -/

namespace Grammar

variable (g : Nested) (multiline : Bool)

/-- The name after a dot. -/
def memberSuffix (isOptional : Bool) : Parser Suffix := do
  let name ← eat .word
  require (isIdentifier name.text)
  return .member name.text isOptional

/-- Arguments between parentheses. -/
def callSuffix (isOptional : Bool) : Parser Suffix := do
  let (brackets, items) ← arguments g multiline
  return .call brackets items isOptional

/-- The index between brackets. -/
def indexSuffix (isOptional : Bool) : Parser Suffix := do
  let _ ← eat .bracketOpen
  trivia true
  let index ← expectExpression g true
  trivia true
  let _ ← expect .bracketClose
  return .index index isOptional

/-- `++` or `--`. -/
def updateSuffix (isOptional : Bool) : Parser Suffix := do
  require !isOptional
  return .update (← updateOperator)

/-- What is attached to an operand after `?.`, or without it. -/
def attachmentSuffix (isOptional : Bool) : Parser Suffix := do
  match ← look State.kind with
  | .dot =>
    require !isOptional
    change .advance
    memberSuffix false
  | .word =>
    require isOptional
    memberSuffix true
  | .parenOpen => callSuffix g multiline isOptional
  | .bracketOpen => indexSuffix g isOptional
  | .plus | .minus => updateSuffix isOptional
  | _ => fail

/-- What is attached to an operand. -/
def attachedSuffix : Parser Suffix := do
  if multiline then trivia true
  attachmentSuffix g multiline (← eatsOptional)

/-- An operator with its right operand. -/
def operationSuffix : Parser Suffix := do
  trivia multiline
  let s ← state
  match operatorAt? s.rest with
  | none => fail
  | some operator =>
    change (.advanceBy (operatorLength operator))
    trivia multiline
    return .operation s.current.span operator (← prefixed g multiline)

/-- `? whenTrue : whenFalse`. -/
def conditionalSuffix : Parser Suffix := do
  trivia multiline
  requireState fun s =>
    s.kind == .question && (s.peek 1).kind != .question && (s.peek 1).kind != .dot
  change .advance
  trivia multiline
  let whenTrue ← g.expression multiline true
  trivia multiline
  return .conditional whenTrue (← otherwiseValue g multiline)

/-- What may follow an expression. -/
def suffix (binary : Bool) : Parser Suffix :=
  if binary then attachedSuffix g multiline <|> operationSuffix g multiline <|> conditionalSuffix g multiline
  else attachedSuffix g multiline

variable {g multiline} (start : Position) (e : Expression)

theorem memberName_eq (isOptional : Bool) :
    memberName e start isOptional = memberSuffix isOptional >>= Suffix.putOn start e := by
  simp [memberName, memberSuffix, Suffix.putOn, Suffix.check, Suffix.attach]

theorem called_eq (isOptional : Bool) :
    called g multiline e start isOptional = callSuffix g multiline isOptional >>= Suffix.putOn start e := by
  simp [called, callSuffix, Suffix.putOn, Suffix.check, Suffix.attach]

theorem indexed_eq (isOptional : Bool) :
    indexed g e start isOptional = indexSuffix g isOptional >>= Suffix.putOn start e := by
  simp [indexed, indexSuffix, Suffix.putOn, Suffix.check, Suffix.attach]

theorem attachment_eq (isOptional : Bool) :
    attachment g multiline start e isOptional =
      attachmentSuffix g multiline isOptional >>= Suffix.putOn start e := by
  have hupdate : (do
      require !isOptional
      let operator ← updateOperator
      return Expression.update (← spanFrom start) operator false e) =
        updateSuffix isOptional >>= Suffix.putOn start e := by
    simp [updateSuffix, Suffix.putOn, Suffix.check, Suffix.attach]
  -- By the kind of the next token, as the reader itself does.
  rw [attachment, attachmentSuffix, bind_assoc]
  refine bind_congr fun kind => ?_
  cases kind with
  | dot | word => simp [memberName_eq]
  | parenOpen => exact called_eq start e isOptional
  | bracketOpen => exact indexed_eq start e isOptional
  | plus | minus => exact hupdate
  | _ => rfl

theorem attached_eq :
    attached g multiline start e = attachedSuffix g multiline >>= Suffix.putOn start e := by
  unfold attached attachedSuffix
  simp only [attachment_eq]
  cases multiline <;> simp

theorem operated_eq : operated g multiline start e = operationSuffix g multiline >>= Suffix.putOn start e := by
  unfold operated operationSuffix
  simp only [bind_assoc]
  refine bind_congr fun _ => bind_congr fun s => ?_
  rcases operatorAt? s.rest with _ | operator
  · rfl
  · by_cases hbad : operator.isAssignment = true ∧ isAssignable e = false <;>
      simp [hbad, Suffix.putOn, Suffix.check, Suffix.attach]

theorem conditional_eq :
    conditional g multiline start e = conditionalSuffix g multiline >>= Suffix.putOn start e := by
  simp [conditional, conditionalSuffix, Suffix.putOn, Suffix.check, Suffix.attach]

theorem putOn_isSome (w : Suffix) (s : State) : (w.putOn start e s).1.isSome := by
  obtain ⟨_, hrun⟩ := w.putOn_run start e s
  rw [hrun]
  rfl

/-- **What a continuation reads does not depend on the expression before it.** -/
theorem continuation_eq (binary : Bool) :
    continuation g multiline binary start e = (do
      match ← attempt (suffix g multiline binary) with
      | some w => return .again (← w.putOn start e)
      | none => return .done e) := by
  -- Whatever is tried, putting it on cannot fail, so a failure is one of the reader of the suffix.
  have hall : (if binary then attached g multiline start e <|> operated g multiline start e <|>
      conditional g multiline start e else attached g multiline start e) =
      suffix g multiline binary >>= Suffix.putOn start e := by
    rw [attached_eq, operated_eq, conditional_eq, suffix]
    cases binary
    · rfl
    · simp only [↓reduceIte, orElse_bind (putOn_isSome start e)]
  rw [continuation, hall, attempt_bind (putOn_isSome start e), bind_assoc]
  refine bind_congr fun x => ?_
  cases x <;> simp

end Grammar

end Story
