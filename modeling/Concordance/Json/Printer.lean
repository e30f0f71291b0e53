import Concordance.Json.Basic

/-!
# Writing JSON

Two layouts of a value: `Json.compact` has no white space at all; `Json.pretty` puts every item
and every entry on a line of its own, two spaces deeper than its brackets, with a space after the
colon. Empty arrays and objects are a pair of brackets in both.

Strings escape the quote, the backslash and the control characters below a space, those with a
letter of their own by it and the others by four hexadecimal digits.
-/

namespace Concordance.Json

namespace Printer

/-- The hexadecimal digit of a number below sixteen. -/
def hexDigit (n : Nat) : Char :=
  if n < 10 then Char.ofNat ('0'.toNat + n) else Char.ofNat ('a'.toNat + (n - 10))

/-- The written form of a character of a string. -/
def escape (c : Char) : List Char :=
  match c with
  | '"' => ['\\', '"']
  | '\\' => ['\\', '\\']
  | '\x08' => ['\\', 'b']
  | '\x0c' => ['\\', 'f']
  | '\n' => ['\\', 'n']
  | '\r' => ['\\', 'r']
  | '\t' => ['\\', 't']
  | c =>
    if c.toNat < 0x20 then
      ['\\', 'u', '0', '0', hexDigit (c.toNat / 16), hexDigit (c.toNat % 16)]
    else [c]

/-- The written form of a string. -/
def quoted (text : String) : List Char :=
  '"' :: (text.toList.flatMap escape ++ ['"'])

/-- The written form of digits. -/
def ofDigits (digits : List Nat) : List Char :=
  digits.map fun digit => Char.ofNat ('0'.toNat + digit)

/-- The written form of a number. -/
def ofNumber (number : Number) : List Char :=
  (if number.negative then ['-'] else [])
    ++ ofDigits number.whole
    ++ (if number.fraction.isEmpty then [] else '.' :: ofDigits number.fraction)
    ++ (match number.exponent with
      | none => []
      | some (.ofNat n) => 'e' :: ofDigits (decimalDigits n)
      | some (.negSucc n) => 'e' :: '-' :: ofDigits (decimalDigits (n + 1)))

/-- The written form of a value that holds no other values. A string that stands for no text is
written as an empty one. -/
def scalar : Json → List Char
  | .null => ['n', 'u', 'l', 'l']
  | .bool true => ['t', 'r', 'u', 'e']
  | .bool false => ['f', 'a', 'l', 's', 'e']
  | .number written => ofNumber written
  | .string content => quoted (content.getD "")
  | .array _ => ['[', ']']
  | .object _ => ['\x7b', '\x7d']

/-- What stands between two parts of an array or an object. -/
structure Layout where
  /-- What starts a part at a depth, and the closing bracket at the depth of its brackets. -/
  newline : Nat → List Char
  /-- What stands between a key and its value. -/
  colon : List Char

/-- No white space at all. -/
def compactLayout : Layout := ⟨fun _ => [], [':']⟩

/-- A line for each part, two spaces deeper than its brackets. -/
def prettyLayout : Layout :=
  ⟨fun depth => '\n' :: List.replicate (2 * depth) ' ', [':', ' ']⟩

mutual

/-- The written form of a value whose brackets stand at a depth. -/
def render (layout : Layout) (depth : Nat) : Json → List Char
  | .array (item :: items) =>
    '[' :: (renderItems layout (depth + 1) (item :: items) ++ layout.newline depth ++ [']'])
  | .object (entry :: entries) =>
    '\x7b' :: (renderEntries layout (depth + 1) (entry :: entries)
      ++ layout.newline depth ++ ['\x7d'])
  | value => scalar value

/-- The written form of items, with commas between them. -/
def renderItems (layout : Layout) (depth : Nat) : List Json → List Char
  | [] => []
  | item :: items =>
    layout.newline depth ++ render layout depth item
      ++ (if items.isEmpty then [] else ',' :: renderItems layout depth items)

/-- The written form of entries, with commas between them. -/
def renderEntries (layout : Layout) (depth : Nat) : List (Option String × Json) → List Char
  | [] => []
  | (key, value) :: entries =>
    layout.newline depth ++ quoted (key.getD "") ++ layout.colon ++ render layout depth value
      ++ (if entries.isEmpty then [] else ',' :: renderEntries layout depth entries)

end

end Printer

/-- The text of a value without white space. -/
def compact (value : Json) : String :=
  String.ofList (Printer.render Printer.compactLayout 0 value)

/-- The text of a value on lines. -/
def pretty (value : Json) : String :=
  String.ofList (Printer.render Printer.prettyLayout 0 value)

end Concordance.Json
