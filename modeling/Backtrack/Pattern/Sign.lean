import Backtrack.Pattern.Basic

/-!
# Signs of a written pattern

The text of a pattern is first divided into signs. A backslash joins what follows it to one sign,
which never has a special meaning for the grammar of patterns. An opening brace stands for itself
unless a repetition begins with it.
-/

namespace Backtrack.Pattern

inductive Sign
  /-- A character as it stands; some of these structure the pattern. -/
  | bare (c : Char)
  /-- A code point that stands for itself only. -/
  | escaped (code : Nat)
  /-- A code point whose written form has another meaning outside brackets. -/
  | member (code : Nat)
  | category (k : Category) (negated : Bool)

namespace Sign

/-- The sign of a backslash and one character. Letters and digits without a meaning are refused. -/
def ofEscape (c : Char) : Option Sign :=
  match c with
  | 'd' => some (.category .digit false)
  | 'D' => some (.category .digit true)
  | 'w' => some (.category .word false)
  | 'W' => some (.category .word true)
  | 's' => some (.category .blank false)
  | 'S' => some (.category .blank true)
  | 'n' => some (.escaped 0x0A)
  | 't' => some (.escaped 0x09)
  | 'r' => some (.escaped 0x0D)
  | 'f' => some (.escaped 0x0C)
  | 'v' => some (.escaped 0x0B)
  | 'a' => some (.escaped 0x07)
  | 'b' => some (.member 0x08)
  | c => if c.isAlphanum then none else some (.escaped c.toNat)

def hexValue (c : Char) : Option Nat :=
  if c.isDigit then some (c.toNat - '0'.toNat)
  else if 'a' ≤ c ∧ c ≤ 'f' then some (c.toNat - 'a'.toNat + 10)
  else if 'A' ≤ c ∧ c ≤ 'F' then some (c.toNat - 'A'.toNat + 10)
  else none

/-- The number that digits write in a base. -/
def ofDigits (base : Nat) (digits : List Nat) : Nat :=
  digits.foldl (fun n d => base * n + d) 0

/-- The code point that the first `width` characters write in hexadecimal. -/
def ofHex (width : Nat) (t : Text) : Option Sign := do
  let digits ← (t.take width).mapM hexValue
  let code := ofDigits 16 digits
  if digits.length = width ∧ code ≤ 0x10FFFF then some (.escaped code) else none

def isOctal (c : Char) : Bool := '0' ≤ c && c ≤ '7'

/-- The code point that up to three octal digits write, with the number of digits. It is at most
`0xFF`. Outside brackets the digits have to be three or to begin with a zero. -/
def ofOctal (t : Text) : Option (Sign × Nat) :=
  let digits := (t.take 3).takeWhile isOctal
  let code := ofDigits 8 (digits.map fun c => c.toNat - '0'.toNat)
  if 0xFF < code then none
  else if digits.length = 3 ∨ digits.head? = some '0' then some (.escaped code, digits.length)
  else some (.member code, digits.length)

/-- The sign that a backslash begins, with the number of characters behind the backslash that it
takes. -/
def escape : Text → Option (Sign × Nat)
  | [] => none
  | 'x' :: rest => (ofHex 2 rest).map (·, 3)
  | 'u' :: rest => (ofHex 4 rest).map (·, 5)
  | 'U' :: rest => (ofHex 8 rest).map (·, 9)
  | c :: rest => if isOctal c then ofOctal (c :: rest) else (ofEscape c).map (·, 1)

/-- Whether an opening brace begins a repetition, by what follows it: a closing brace behind one
number, or behind two numbers and a comma, where a number may be left out beside the comma. -/
def opensRepetition (t : Text) : Bool :=
  match t.dropWhile Char.isDigit with
  | '}' :: _ => t.head? != some '}'
  | ',' :: rest => (rest.dropWhile Char.isDigit).head? == some '}'
  | _ => false

/-- The first sign of `c :: rest`, with the number of characters of `rest` that it takes. -/
def first (c : Char) (rest : Text) : Option (Sign × Nat) :=
  if c = '\\' then escape rest
  else if c = '{' ∧ !opensRepetition rest then some (.escaped c.toNat, 0)
  else some (.bare c, 0)

/-- The signs behind the first `taken` characters of a text, which belong to a sign before. -/
def signsAfter : Nat → Text → Option (List Sign)
  | _, [] => some []
  | taken + 1, _ :: rest => signsAfter taken rest
  | 0, c :: rest =>
    match first c rest with
    | none => none
    | some (sign, taken) => (signsAfter taken rest).map (sign :: ·)

/-- The signs of a text, or `none` if a backslash begins nothing that has a meaning. -/
def ofText (t : Text) : Option (List Sign) := signsAfter 0 t

end Sign

end Backtrack.Pattern
