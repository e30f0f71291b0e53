import Concordance.Json.Basic

/-!
# Reading records from JSON

A record with named fields is written as an object, with the fields in any order and other keys
between them, or as an array of the fields in their own order. A field may come once only.

- `Json.fields?`: the values of a record's fields in either form.
- `Json.text?`, `Json.texts?`, `Json.list?`: values of the simple types.
-/

namespace Concordance.Json

/-- The text of a string. -/
def text? : Json → Option String
  | .string content => content
  | _ => none

/-- The items of an array, each read by `read`. -/
def list? {α : Type} (read : Json → Option α) : Json → Option (List α)
  | .array items => items.mapM read
  | _ => none

/-- The texts of an array. -/
def texts? (value : Json) : Option (List String) := value.list? text?

/-- The value of a field that is given at most once. -/
def field? (entries : List (Option String × Json)) (name : String) : Option (Option Json) :=
  match entries.filter (·.1 == some name) with
  | [] => some none
  | [(_, value)] => some (some value)
  | _ => none

/-- The values of fields in an array: the first items, and nothing for those that are missing. -/
def positional? : List String → List Json → Option (List (Option Json))
  | [], [] => some []
  | [], _ :: _ => none
  | _ :: names, [] => (positional? names []).map (none :: ·)
  | _ :: names, item :: items => (positional? names items).map (some item :: ·)

/-- The values of a record's fields, in the order of their names. -/
def fields? (names : List String) : Json → Option (List (Option Json))
  | .object entries =>
    if entries.all (·.1.isSome) then names.mapM (field? entries) else none
  | .array items => positional? names items
  | _ => none

end Concordance.Json
