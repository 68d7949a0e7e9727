/-!
# UTF-8

Text as bytes. `Utf8.decode` reads bytes as text and puts the replacement character in the place of
what is not UTF-8: one for each longest stretch that could be the start of a character.
`Utf8.decode?` refuses such bytes.
-/

namespace Story.Utf8

/-- The bytes of a text. -/
def encode (text : String) : List UInt8 := text.toByteArray.toList

/-- Whether the byte continues a character. -/
def isContinuation (b : UInt8) : Bool := 0x80 ≤ b && b ≤ 0xbf

/-- Whether `second` may follow the first byte of a character of three bytes. -/
def fitsThree (first second : UInt8) : Bool :=
  -- No longer form than needed, and no half of a pair.
  isContinuation second && (first != 0xe0 || 0xa0 ≤ second) && (first != 0xed || second ≤ 0x9f)

/-- Whether `second` may follow the first byte of a character of four bytes. -/
def fitsFour (first second : UInt8) : Bool :=
  -- No longer form than needed, and nothing above the last character.
  isContinuation second && (first != 0xf0 || 0x90 ≤ second) && (first != 0xf4 || second ≤ 0x8f)

/-- The low bits of a byte that continues a character. -/
def low (b : UInt8) : Nat := b.toNat - 0x80

/-- The first character, and how many bytes it has after the first one. There is none if the bytes
are not UTF-8; the number then tells how many bytes could still be the start of a character. -/
def first (b : UInt8) (rest : List UInt8) : Option Char × Nat :=
  if b < 0x80 then (some (Char.ofNat b.toNat), 0)
  else if 0xc2 ≤ b && b ≤ 0xdf then
    match rest with
    | c :: _ =>
      if isContinuation c then (some (Char.ofNat ((b.toNat - 0xc0) * 64 + low c)), 1) else (none, 0)
    | [] => (none, 0)
  else if 0xe0 ≤ b && b ≤ 0xef then
    match rest with
    | c :: d :: _ =>
      if !fitsThree b c then (none, 0)
      else if !isContinuation d then (none, 1)
      else (some (Char.ofNat (((b.toNat - 0xe0) * 64 + low c) * 64 + low d)), 2)
    | [c] => (none, if fitsThree b c then 1 else 0)
    | [] => (none, 0)
  else if 0xf0 ≤ b && b ≤ 0xf4 then
    match rest with
    | c :: d :: e :: _ =>
      if !fitsFour b c then (none, 0)
      else if !isContinuation d then (none, 1)
      else if !isContinuation e then (none, 2)
      else (some (Char.ofNat ((((b.toNat - 0xf0) * 64 + low c) * 64 + low d) * 64 + low e)), 3)
    | [c, d] => (none, if !fitsFour b c then 0 else if !isContinuation d then 1 else 2)
    | [c] => (none, if fitsFour b c then 1 else 0)
    | [] => (none, 0)
  else (none, 0)

/-- The characters of bytes, with `none` for each stretch that is not UTF-8. -/
def chars : List UInt8 → List (Option Char)
  | [] => []
  | b :: rest =>
    let (c, more) := first b rest
    c :: chars (rest.drop more)
termination_by bytes => bytes.length
decreasing_by simp only [List.length_drop, List.length_cons]; omega

/-- The text of bytes, with the replacement character where they are not UTF-8. -/
def decode (bytes : List UInt8) : String :=
  String.ofList ((chars bytes).map fun c => c.getD '\ufffd')

/-- The text of bytes that are UTF-8. -/
def decode? (bytes : List UInt8) : Option String :=
  let found := chars bytes
  if found.all Option.isSome then some (String.ofList (found.filterMap id)) else none

end Story.Utf8
