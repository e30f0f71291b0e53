import Concordance.Json.Basic

/-!
# Reading JSON

`Json.parse` reads a text that is one JSON value with white space around it. It accepts exactly
the grammar of RFC 8259: no leading zeros, no comma before a closing bracket, no raw control
character in a string. Half a surrogate pair is accepted as an escape, and the string then stands
for no text.

Each reader takes the characters that are left and gives back those behind what it read. The
readers of nested values carry a bound on their steps, for which the number of characters is
enough.
-/

namespace Concordance.Json.Parser

/-- Whether a character is JSON white space. -/
def isBlank (c : Char) : Bool :=
  c = ' ' || c = '\n' || c = '\t' || c = '\r'

/-- The characters from the first that is not white space. -/
def skipBlanks (chars : List Char) : List Char := chars.dropWhile isBlank

/-- The value of a hexadecimal digit. -/
def hexDigit? (c : Char) : Option Nat :=
  if '0' ≤ c ∧ c ≤ '9' then some (c.toNat - '0'.toNat)
  else if 'a' ≤ c ∧ c ≤ 'f' then some (c.toNat - 'a'.toNat + 10)
  else if 'A' ≤ c ∧ c ≤ 'F' then some (c.toNat - 'A'.toNat + 10)
  else none

/-- The number that four hexadecimal digits write. -/
def hexNumber? (a b c d : Char) : Option Nat := do
  return ((← hexDigit? a) * 16 + (← hexDigit? b)) * 256 + ((← hexDigit? c) * 16 + (← hexDigit? d))

/-- The character that a backslash and a letter write. -/
def simpleEscape? : Char → Option Char
  | '"' => some '"'
  | '\\' => some '\\'
  | '/' => some '/'
  | 'b' => some '\x08'
  | 'f' => some '\x0c'
  | 'n' => some '\n'
  | 'r' => some '\r'
  | 't' => some '\t'
  | _ => none

/-- A unit of a string's text. -/
inductive Unit16 where
  /-- A character. -/
  | char (c : Char)
  /-- The first half of a surrogate pair, as its offset from `0xD800`. -/
  | high (offset : Nat)
  /-- The second half of a surrogate pair, as its offset from `0xDC00`. -/
  | low (offset : Nat)

/-- What an escape of a 16-bit number stands for. -/
def unitOfNumber (n : Nat) : Unit16 :=
  if 0xD800 ≤ n ∧ n < 0xDC00 then .high (n - 0xD800)
  else if 0xDC00 ≤ n ∧ n < 0xE000 then .low (n - 0xDC00)
  else .char (Char.ofNat n)

/-- The units of a string and the characters behind its closing quote. -/
def stringUnits : List Char → Option (List Unit16 × List Char)
  | [] => none
  | '"' :: rest => some ([], rest)
  | '\\' :: 'u' :: a :: b :: c :: d :: rest => do
    let n ← hexNumber? a b c d
    let (units, behind) ← stringUnits rest
    return (unitOfNumber n :: units, behind)
  | '\\' :: c :: rest => do
    let escaped ← simpleEscape? c
    let (units, behind) ← stringUnits rest
    return (.char escaped :: units, behind)
  | c :: rest =>
    if c.toNat < 0x20 ∨ c = '\\' then none
    else do
      let (units, behind) ← stringUnits rest
      return (.char c :: units, behind)

/-- The text of units, if every half of a surrogate pair stands with its other half. -/
def textOfUnits? : List Unit16 → Option (List Char)
  | [] => some []
  | .char c :: rest => (textOfUnits? rest).map (c :: ·)
  | .high high :: .low low :: rest =>
    (textOfUnits? rest).map (Char.ofNat (0x10000 + high * 0x400 + low) :: ·)
  | _ => none

/-- The text of a string whose opening quote has been read. -/
def stringText (chars : List Char) : Option (Option String × List Char) := do
  let (units, rest) ← stringUnits chars
  return ((textOfUnits? units).map String.ofList, rest)

/-- Whether a character is a decimal digit. -/
def isDigit (c : Char) : Bool := '0' ≤ c && c ≤ '9'

/-- The leading decimal digits and the characters behind them. -/
def digits (chars : List Char) : List Nat × List Char :=
  ((chars.takeWhile isDigit).map (·.toNat - '0'.toNat), chars.dropWhile isDigit)

/-- The digits before the point: a zero on its own, or digits that start with another one. -/
def wholePart : List Char → Option (List Nat × List Char)
  | '0' :: rest => some ([0], rest)
  | chars => match digits chars with
    | ([], _) => none
    | found => some found

/-- The digits after the point, if there is a point. -/
def fractionPart : List Char → Option (List Nat × List Char)
  | '.' :: rest => match digits rest with
    | ([], _) => none
    | found => some found
  | chars => some ([], chars)

/-- The digits of an exponent and the characters behind them. -/
def exponentDigits (negative : Bool) (chars : List Char) : Option (Option Int × List Char) :=
  match digits chars with
  | ([], _) => none
  | (found, rest) =>
    let value := (Number.valueOf found : Int)
    some (some (if negative then -value else value), rest)

/-- The exponent, if there is one. -/
def exponentPart : List Char → Option (Option Int × List Char)
  | c :: rest =>
    if c = 'e' ∨ c = 'E' then
      match rest with
      | '+' :: rest => exponentDigits false rest
      | '-' :: rest => exponentDigits true rest
      | _ => exponentDigits false rest
    else some (none, c :: rest)
  | [] => some (none, [])

/-- A number without its sign. -/
def unsignedNumber (negative : Bool) (chars : List Char) : Option (Number × List Char) := do
  let (whole, rest) ← wholePart chars
  let (fraction, rest) ← fractionPart rest
  let (exponent, rest) ← exponentPart rest
  return (⟨negative, whole, fraction, exponent⟩, rest)

/-- A number. -/
def signedNumber : List Char → Option (Number × List Char)
  | '-' :: rest => unsignedNumber true rest
  | chars => unsignedNumber false chars

/-- A value that is not a string, an array or an object. -/
def scalar : List Char → Option (Json × List Char)
  | 'n' :: 'u' :: 'l' :: 'l' :: rest => some (.null, rest)
  | 't' :: 'r' :: 'u' :: 'e' :: rest => some (.bool true, rest)
  | 'f' :: 'a' :: 'l' :: 's' :: 'e' :: rest => some (.bool false, rest)
  | chars => (signedNumber chars).map fun (written, rest) => (.number written, rest)

mutual

/-- A value with white space in front. -/
def value : Nat → List Char → Option (Json × List Char)
  | 0, _ => none
  | steps + 1, chars =>
    match skipBlanks chars with
    | '"' :: rest => (stringText rest).map fun (content, behind) => (.string content, behind)
    | '[' :: rest =>
      match skipBlanks rest with
      | ']' :: behind => some (.array [], behind)
      | _ => do
        let (items, behind) ← items steps rest
        return (.array items, behind)
    | '\x7b' :: rest =>
      match skipBlanks rest with
      | '\x7d' :: behind => some (.object [], behind)
      | _ => do
        let (entries, behind) ← entries steps rest
        return (.object entries, behind)
    | rest => scalar rest

/-- One or more items up to the closing bracket of their array. -/
def items : Nat → List Char → Option (List Json × List Char)
  | 0, _ => none
  | steps + 1, chars => do
    let (item, rest) ← value steps chars
    match skipBlanks rest with
    | ',' :: rest =>
      let (later, behind) ← items steps rest
      return (item :: later, behind)
    | ']' :: behind => return ([item], behind)
    | _ => none

/-- One or more entries up to the closing brace of their object. -/
def entries : Nat → List Char → Option (List (Option String × Json) × List Char)
  | 0, _ => none
  | steps + 1, chars => do
    let '"' :: rest := skipBlanks chars | none
    let (key, rest) ← stringText rest
    let ':' :: rest := skipBlanks rest | none
    let (found, rest) ← value steps rest
    match skipBlanks rest with
    | ',' :: rest =>
      let (later, behind) ← entries steps rest
      return ((key, found) :: later, behind)
    | '\x7d' :: behind => return ([(key, found)], behind)
    | _ => none

end

end Parser

/-- The value that a text writes. -/
def parse (text : String) : Option Json := do
  let (found, rest) ← Parser.value (text.length + 1) text.toList
  if (Parser.skipBlanks rest).isEmpty then return found else none

/-- The value that the UTF-8 bytes of a text write. -/
def parseBytes (bytes : ByteArray) : Option Json := do
  parse (← String.fromUTF8? bytes)

end Concordance.Json
