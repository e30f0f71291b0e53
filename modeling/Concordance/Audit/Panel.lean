/-!
# Panels

Text in boxes of a fixed width. Escape sequences for colours, from an escape character to the next
`m`, take no room.
-/

namespace Concordance.Panel

/-- The number of columns between the borders of a box. -/
def width : Nat := 72

/-- The characters of a text that take room. `hidden` says whether a sequence has begun. -/
def visibleChars (hidden : Bool) : List Char → List Char
  | [] => []
  | c :: rest =>
    if hidden then visibleChars (c ≠ 'm') rest
    else if c = '\x1b' then visibleChars true rest
    else c :: visibleChars false rest

/-- The number of columns that a text takes. -/
def visibleLength (text : String) : Nat := (visibleChars false text.toList).length

/-- A character several times over. -/
def run (count : Nat) (c : Char) : String := String.ofList (List.replicate count c)

/-- A text behind as many spaces as make it `columns` wide. -/
def padLeft (text : String) (columns : Nat) : String :=
  run (columns - visibleLength text) ' ' ++ text

/-- A text with as many spaces behind it as make it `columns` wide. -/
def padRight (text : String) (columns : Nat) : String :=
  text ++ run (columns - text.length) ' '

/-- A line between the sides of a box. -/
def row (content : String) : String :=
  "│" ++ content ++ run (width - visibleLength content) ' ' ++ "│\n"

/-- The upper side of a box with a title. -/
def top (label : String) : String :=
  let title := "─ " ++ label ++ " "
  "┌" ++ title ++ run (width - visibleLength title) '─' ++ "┐\n"

/-- The lower side of a box. -/
def bottom : String := "└" ++ run width '─' ++ "┘\n"

/-- The mark of a check. -/
def mark (holds : Bool) : String := if holds then "✓" else "✗"

/-- A quotient in tenths, rounded to the nearest, a half to the even neighbour. -/
def tenths (numerator denominator : Nat) : Nat :=
  let quotient := 10 * numerator / denominator
  let left := 10 * numerator % denominator
  if denominator < 2 * left ∨ (denominator = 2 * left ∧ quotient % 2 = 1) then quotient + 1
  else quotient

/-- A number of units with one decimal place. -/
def inUnits (bytes unit : Nat) (name : String) : String :=
  let value := tenths bytes unit
  s!"{value / 10}.{value % 10} " ++ name

/-- A number of bytes as a reader takes it in: from 1024 bytes on in kilobytes, and from 1024 of
those on in megabytes. -/
def size (bytes : Nat) : String :=
  if 1024 * 1024 ≤ bytes then inUnits bytes (1024 * 1024) "MB"
  else if 1024 ≤ bytes then inUnits bytes 1024 "KB"
  else s!"{bytes} B"

end Concordance.Panel
