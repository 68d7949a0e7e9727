import Story.Text.Utf8

/-!
# What shell commands print

The texts of `echo` and `printf`. Both carry out escapes after backslashes; `printf` also fills in
its arguments, and uses its format again as long as arguments remain.

All counts are of bytes: widths, precisions, and the one character of `%c`.
-/

namespace Story.Shell

/-! ### Escapes -/

/-- A byte as a character of the ASCII range. -/
def asciiByte (c : Char) : UInt8 := c.toNat.toUInt8

/-- The bytes of a text. -/
def bytesOf (cs : List Char) : List UInt8 := Utf8.encode (String.ofList cs)

/-- The digit that a character stands for in a base. -/
def digit? (base : Nat) (c : Char) : Option Nat :=
  let value :=
    if c.isDigit then c.toNat - 48
    else if c.isLower then c.toNat - 87
    else if c.isUpper then c.toNat - 55
    else base
  if value < base then some value else none

/-- The digits at the start of a text, and what remains. -/
def digitsAt (base : Nat) : List Char → List Nat × List Char
  | [] => ([], [])
  | c :: cs =>
    match digit? base c with
    | some d => (d :: (digitsAt base cs).1, (digitsAt base cs).2)
    | none => ([], c :: cs)

/-- The number that digits of a base are. -/
def numeral (base : Nat) (digits : List Nat) : Nat := digits.foldl (fun n d => base * n + d) 0

/-- The byte of at most three octal digits, and what remains. -/
def octalByte (cs : List Char) : UInt8 × List Char :=
  let digits := (digitsAt 8 (cs.take 3)).1
  ((numeral 8 digits).toUInt8, cs.drop digits.length)

/-- What a letter means after a backslash. -/
def control? (c : Char) : Option UInt8 :=
  [('a', 7), ('b', 8), ('e', 27), ('f', 12), ('n', 10), ('r', 13), ('t', 9), ('v', 11),
   ('\\', 92)].lookup c

/-- The bytes of what follows a backslash, and what remains. An escape without a meaning stands for
itself. -/
def escape : List Char → List UInt8 × List Char
  | [] => ([asciiByte '\\'], [])
  | c :: cs =>
    if (digit? 8 c).isSome then
      let (byte, rest) := octalByte (c :: cs)
      ([byte], rest)
    else match control? c with
      | some byte => ([byte], cs)
      | none => (bytesOf ['\\', c], cs)

/-- The bytes of a text with its escapes carried out. A zero may stand before an octal number. The
flag tells whether all printing ends here. -/
def unescape : Nat → List Char → List UInt8 × Bool
  | 0, _ => ([], false)
  | fuel + 1, cs =>
    match cs with
    | [] => ([], false)
    | '\\' :: 'c' :: _ => ([], true)
    | '\\' :: '0' :: cs =>
      let (byte, cs) := octalByte cs
      let (rest, stops) := unescape fuel cs
      (byte :: rest, stops)
    | '\\' :: cs =>
      let (bytes, cs) := escape cs
      let (rest, stops) := unescape fuel cs
      (bytes ++ rest, stops)
    | c :: cs =>
      let (rest, stops) := unescape fuel cs
      (bytesOf [c] ++ rest, stops)

/-- What `echo` prints. -/
def echo (arguments : List String) : List UInt8 :=
  let (words, ending) : List String × List UInt8 := match arguments with
    | "-n" :: rest => (rest, [])
    | words => (words, [10])
  let text := (" ".intercalate words).toList
  let (bytes, stops) := unescape (text.length + 1) text
  if stops then bytes else bytes ++ ending

/-! ### Numbers in arguments -/

/-- Why an argument is not quite a number. -/
inductive NumberFault where
  | missing | incomplete | outOfRange
deriving DecidableEq

/-- The fault in words. -/
def NumberFault.message : NumberFault → String
  | missing => "expected numeric value"
  | incomplete => "not completely converted"
  | outOfRange => "Numerical result out of range"

/-- The digits of a number in the base that its start tells, and what remains. -/
def magnitude (cs : List Char) : Option (Nat × List Char) :=
  match cs with
  | '0' :: x :: rest =>
    -- A zero with an `x` but no digit behind it is just a zero.
    if (x = 'x' ∨ x = 'X') ∧ (rest.head?.bind (digit? 16)).isSome then
      some (numeral 16 (digitsAt 16 rest).1, (digitsAt 16 rest).2)
    else some (numeral 8 (digitsAt 8 (x :: rest)).1, (digitsAt 8 (x :: rest)).2)
  | c :: rest =>
    if c.isDigit then
      some (numeral 10 (digitsAt 10 (c :: rest)).1, (digitsAt 10 (c :: rest)).2)
    else none
  | [] => none

/-- The number that an argument is, kept within the range of signed or unsigned words, and what is
wrong with it. After a quote it is the number of a byte. -/
def numberOf (isSigned : Bool) (argument : String) : Int × Option NumberFault :=
  let start := argument.toList.head?
  if start = some '"' ∨ start = some '\x27' then
    ((((Utf8.encode argument).getD 1 0).toNat : Int), none)
  else
    let cs := argument.toList.dropWhile fun c => c = ' ' ∨ ('\t' ≤ c ∧ c ≤ '\r')
    let isNegative := cs.head? = some '-'
    let unsigned := if isNegative ∨ cs.head? = some '+' then cs.tail else cs
    match magnitude unsigned with
    | none => (0, if argument.isEmpty then none else some .missing)
    | some (n, rest) =>
      let value : Int := if isNegative then -n else n
      let most : Int := if isSigned then Int.pow 2 63 - 1 else Int.pow 2 64 - 1
      let least : Int := if isSigned then -Int.pow 2 63 else -most
      let kept :=
        if isSigned then max least (min most value)
        -- An unsigned number that is too large is cut off, and a negative one wraps around.
        else if value < least ∨ most < value then most
        else value % Int.pow 2 64
      let isOut := value < least ∨ most < value
      (kept, if !rest.isEmpty then some .incomplete else if isOut then some .outOfRange else none)

/-! ### Fields of a format -/

/-- How a field of a format is laid out. -/
structure Layout where
  /-- Whether the other spelling of the base is written. -/
  isAlternate : Bool
  /-- Whether it is filled up at its end. -/
  isLeft : Bool
  /-- What stands before a number that is not negative. -/
  plus : List UInt8
  /-- Whether it is filled up with zeros. -/
  hasZeros : Bool
  /-- The least width. -/
  width : Nat
  /-- The least count of digits, or the largest count of bytes. -/
  precision : Option Nat

/-- Fill up to the width. -/
def Layout.fill (l : Layout) (bytes : List UInt8) : List UInt8 :=
  let blanks := List.replicate (l.width - bytes.length) (asciiByte ' ')
  if l.isLeft then bytes ++ blanks else blanks ++ bytes

/-- Bytes, cut off and filled up. -/
def Layout.text (l : Layout) (bytes : List UInt8) : List UInt8 :=
  l.fill (match l.precision with
    | some n => bytes.take n
    | none => bytes)

/-- A number in a base, with a sign or the mark of the base before it. -/
def Layout.number (l : Layout) (sign : List UInt8) (digits : List Char) : List UInt8 :=
  -- With a precision, zeros no longer fill up the width.
  let digits := match l.precision with
    | some n => List.replicate (n - digits.length) '0' ++ digits
    | none =>
      if l.hasZeros && !l.isLeft then
        List.replicate (l.width - sign.length - digits.length) '0' ++ digits
      else digits
  l.fill (sign ++ digits.map asciiByte)

/-- The digits of a number; none for a zero that needs no digit. -/
def Layout.digits (l : Layout) (base n : Nat) : List Char :=
  if n = 0 ∧ l.precision = some 0 then [] else Nat.toDigits base n

/-- A whole number with its sign. -/
def Layout.signed (l : Layout) (value : Int) : List UInt8 :=
  l.number (if value < 0 then [asciiByte '-'] else l.plus) (l.digits 10 value.natAbs)

/-- A natural number as a letter says. -/
def Layout.unsigned (l : Layout) (letter : Char) (n : Nat) : List UInt8 :=
  if letter = 'o' then
    let digits := l.digits 8 n
    l.number [] (if l.isAlternate ∧ digits.head? ≠ some '0' then '0' :: digits else digits)
  else if letter = 'x' ∨ letter = 'X' then
    let mark := if l.isAlternate ∧ n ≠ 0 then [asciiByte '0', asciiByte letter] else []
    let digits := l.digits 16 n
    l.number mark (if letter = 'X' then digits.map Char.toUpper else digits)
  else l.number [] (l.digits 10 n)

/-! ### Formats -/

/-- What a format has printed so far. -/
structure Printed where
  /-- The bytes. -/
  bytes : List UInt8
  /-- What is wrong with arguments, or with the format. -/
  complaints : List String
  /-- The status, unless it is zero. -/
  status : Nat
  /-- Whether printing has ended before the format does. -/
  isOver : Bool
  /-- The arguments that remain. -/
  arguments : List String

namespace Printed

/-- Print bytes. -/
def add (p : Printed) (bytes : List UInt8) : Printed := { p with bytes := p.bytes ++ bytes }

/-- The next argument, as a text. -/
def takeText (p : Printed) : String × Printed :=
  (p.arguments.headD "", { p with arguments := p.arguments.tail })

/-- The next argument, as a number. -/
def takeNumber (p : Printed) (isSigned : Bool) : Int × Printed :=
  let (text, p) := p.takeText
  match numberOf isSigned text with
  | (n, none) => (n, p)
  | (n, some fault) =>
    (n, { p with complaints := p.complaints ++ [text ++ ": " ++ fault.message], status := 1 })

/-- Give up. -/
def giveUp (p : Printed) (complaint : String) : Printed :=
  { p with complaints := p.complaints ++ [complaint], status := 2, isOver := true }

/-- A count in a format: digits, or a star for the next argument, as a word of 32 bits. -/
def takeCount (p : Printed) : List Char → Option Int × Printed × List Char
  | '*' :: cs =>
    let (n, p) := p.takeNumber true
    (some (n.bmod (Nat.pow 2 32)), p, cs)
  | cs =>
    let (digits, rest) := digitsAt 10 cs
    (if digits.isEmpty then none else some (numeral 10 digits), p, rest)

/-- Print a field by its letter. -/
def field (p : Printed) (l : Layout) (spec : List Char) (letter : Char) : Printed :=
  if letter = 's' then
    let (text, p) := p.takeText
    p.add (l.text (Utf8.encode text))
  else if letter = 'b' then
    let (text, p) := p.takeText
    let (bytes, stops) := unescape (text.length + 1) text.toList
    { p.add (l.text bytes) with isOver := stops }
  else if letter = 'c' then
    let (text, p) := p.takeText
    p.add (l.fill [(Utf8.encode text).headD 0])
  else if letter = 'd' ∨ letter = 'i' then
    let (n, p) := p.takeNumber true
    p.add (l.signed n)
  else if letter = 'o' ∨ letter = 'u' ∨ letter = 'x' ∨ letter = 'X' then
    let (n, p) := p.takeNumber false
    p.add (l.unsigned letter n.toNat)
  else p.giveUp ("%" ++ String.ofList spec ++ ": invalid directive")

/-- Print what follows a percent sign. The rest of the format remains. -/
def directive (p : Printed) (cs : List Char) : Printed × List Char :=
  let flags := cs.takeWhile "#-+ 0".toList.contains
  let (width, p, rest) := p.takeCount (cs.drop flags.length)
  let (precision, p, rest) := match rest with
    | '.' :: rest =>
      let (n, p, rest) := p.takeCount rest
      (some (n.getD 0), p, rest)
    | rest => (none, p, rest)
  let width := width.getD 0
  let layout : Layout :=
    { isAlternate := flags.contains '#'
      -- A width that an argument gives may be negative.
      isLeft := flags.contains '-' || width < 0
      plus := if flags.contains '+' then [asciiByte '+']
        else if flags.contains ' ' then [asciiByte ' '] else []
      hasZeros := flags.contains '0'
      width := width.natAbs
      precision := (precision.filter fun n => 0 ≤ n).map Int.toNat }
  match rest with
  | [] => (p.giveUp "missing format character", [])
  | letter :: rest => (p.field layout (cs.take (cs.length - rest.length)) letter, rest)

/-- Print by a format once. -/
def once : Nat → Printed → List Char → Printed
  | 0, p, _ => p
  | fuel + 1, p, cs =>
    if p.isOver then p
    else match cs with
      | [] => p
      | '%' :: '%' :: cs => once fuel (p.add [asciiByte '%']) cs
      | '%' :: cs =>
        let (p, cs) := p.directive cs
        once fuel p cs
      | '\\' :: cs =>
        let (bytes, cs) := escape cs
        once fuel (p.add bytes) cs
      | c :: cs => once fuel (p.add (bytesOf [c])) cs

/-- Print by a format, again and again as long as it takes up arguments. -/
def again (format : List Char) : Nat → Printed → Printed
  | 0, p => p
  | fuel + 1, p =>
    let after := once (format.length + 1) p format
    -- A format that takes no arguments is printed once, whatever there are.
    if after.isOver || after.arguments.isEmpty || after.arguments.length = p.arguments.length then
      after
    else again format fuel after

end Printed

/-- What `printf` prints. -/
def printf (format : String) (arguments : List String) : Printed :=
  Printed.again format.toList (arguments.length + 1) ⟨[], [], 0, false, arguments⟩

end Story.Shell
