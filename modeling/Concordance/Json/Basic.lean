/-!
# JSON values

The values of JSON as they are written: an object keeps its entries in order, repeated keys
included, and a number keeps its digits. What a reader makes of them is decided by the reader.

- `Json.Number`: a number as it is written. `Number.natural?` is its value if it is written as a
  natural number of at most 64 bits, and `Number.isFinite` says whether its nearest floating-point
  number is finite.
- `Json`: a value. A string is `none` if its escapes name half of a surrogate pair on its own, so
  that it stands for no text.
- `Json.isPlain`: whether a value has text in all strings, finite numbers, and a depth within
  `Json.maxDepth`.
-/

namespace Concordance

namespace Json

/-- A number as it is written. Digits come most significant first. -/
structure Number where
  /-- Whether a minus sign stands in front. -/
  negative : Bool
  /-- The digits before the point. -/
  whole : List Nat
  /-- The digits after the point, if there is a point. -/
  fraction : List Nat
  /-- The power of ten, if there is one. -/
  exponent : Option Int
  deriving DecidableEq, Repr

/-- The decimal digits of a natural number. -/
def decimalDigits (n : Nat) : List Nat :=
  if n < 10 then [n] else decimalDigits (n / 10) ++ [n % 10]
termination_by n
decreasing_by omega

namespace Number

/-- A natural number. -/
def ofNat (n : Nat) : Number := ⟨false, decimalDigits n, [], none⟩

/-- The natural number with the given digits. -/
def valueOf (digits : List Nat) : Nat := digits.foldl (fun value digit => 10 * value + digit) 0

/-- The value of a number that is written as a natural number of at most 64 bits. -/
def natural? (number : Number) : Option Nat :=
  if number.negative ∨ number.fraction ≠ [] ∨ number.exponent ≠ none then none
  else
    let value := valueOf number.whole
    if value < UInt64.size then some value else none

/-- Appends as many leading digits to a 64-bit significand as it can take: the significand and the
number of digits that were taken. -/
def takeDigits (significand : Nat) : List Nat → Nat × Nat
  | [] => (significand, 0)
  | digit :: digits =>
    if 10 * significand + digit < UInt64.size then
      let (value, taken) := takeDigits (10 * significand + digit) digits
      (value, taken + 1)
    else (significand, 0)

/-- The floating-point number with 53 significant bits that is nearest to a natural number, a half
going to the even neighbour. -/
def roundToDouble (n : Nat) : Nat :=
  let unit := 1 <<< (n.log2 - 52)
  let kept := n / unit
  let left := n % unit
  let up := unit < 2 * left ∨ (unit = 2 * left ∧ kept % 2 = 1)
  (if up then kept + 1 else kept) * unit

/-- Products from here on round to infinity: the middle between the greatest floating-point number
and the next power of two. -/
def infinityThreshold : Nat := 1 <<< 1024 - 1 <<< 970

/-- Whether the number, read with a 64-bit significand and a power of ten, is finite as a
floating-point number. -/
def isFinite (number : Number) : Bool :=
  let (significand, wholeTaken) := takeDigits 0 number.whole
  let (significand, fractionTaken) := takeDigits significand number.fraction
  let power := (number.whole.length : Int) - wholeTaken - fractionTaken + number.exponent.getD 0
  if significand = 0 ∨ power < 0 then true
  else if 308 < power then false
  else roundToDouble significand * roundToDouble (Nat.pow 10 power.toNat) < infinityThreshold

end Number

end Json

/-- A JSON value as it is written. -/
inductive Json where
  | null
  | bool (value : Bool)
  | number (number : Json.Number)
  /-- A string, or `none` if it stands for no text. -/
  | string (text : Option String)
  | array (items : List Json)
  /-- The entries of an object in order, repeated keys included. -/
  | object (entries : List (Option String × Json))

namespace Json

/-- A string that stands for a text. -/
def text (value : String) : Json := .string (some value)

/-- A natural number. -/
def nat (value : Nat) : Json := .number (.ofNat value)

/-- A list of texts. -/
def texts (values : List String) : Json := .array (values.map text)

/-- An object with the given keys. -/
def record (entries : List (String × Json)) : Json :=
  .object (entries.map fun (key, value) => (some key, value))

/-- The depth to which arrays and objects may be nested in a plain value. -/
def maxDepth : Nat := 127

mutual

/-- Whether a value is plain and its arrays and objects are nested at most `depth` deep. -/
def isPlainWithin (depth : Nat) : Json → Bool
  | .null => true
  | .bool _ => true
  | .number written => written.isFinite
  | .string content => content.isSome
  | .array items => 0 < depth && itemsPlainWithin (depth - 1) items
  | .object entries => 0 < depth && entriesPlainWithin (depth - 1) entries

/-- Whether all items are plain within a depth. -/
def itemsPlainWithin (depth : Nat) : List Json → Bool
  | [] => true
  | item :: items => isPlainWithin depth item && itemsPlainWithin depth items

/-- Whether all keys are texts and all values are plain within a depth. -/
def entriesPlainWithin (depth : Nat) : List (Option String × Json) → Bool
  | [] => true
  | (key, value) :: entries =>
    key.isSome && isPlainWithin depth value && entriesPlainWithin depth entries

end

/-- Whether a value has text in all strings, finite numbers, and a depth within `maxDepth`. -/
def isPlain (value : Json) : Bool := value.isPlainWithin maxDepth

/-- The value of a key in an object; of a repeated key, the last. -/
def get? (key : String) : Json → Option Json
  | .object entries => (entries.reverse.find? (·.1 == some key)).map (·.2)
  | _ => none

/-- The value of a natural number of at most 64 bits. -/
def natural? : Json → Option Nat
  | .number written => written.natural?
  | _ => none

end Json

end Concordance
