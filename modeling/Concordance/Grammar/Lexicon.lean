import Std.Data.TreeMap
import Concordance.Grammar.Analysis
import Concordance.Json.Parser

/-!
# Lexicons

A lexicon gives the analyses of word forms. Forms are looked up as they are: a caller folds the
spelling of a word first. A form that the lexicon does not have has no analyses.
-/

namespace Concordance

/-- The analyses of word forms. -/
structure Lexicon where
  /-- The analyses by form. -/
  entries : Std.TreeMap String (List Analysis)

namespace Lexicon

/-- The lexicon without forms. -/
def empty : Lexicon := ⟨∅⟩

/-- The analyses of a form. -/
def lookup (lexicon : Lexicon) (form : String) : List Analysis :=
  lexicon.entries.getD form []

/-- The lexicon with other analyses for a form. -/
def insert (lexicon : Lexicon) (form : String) (analyses : List Analysis) : Lexicon :=
  ⟨lexicon.entries.insert form analyses⟩

/-- The number of forms. -/
def size (lexicon : Lexicon) : Nat := lexicon.entries.size

/-- Whether there are no forms. -/
def isEmpty (lexicon : Lexicon) : Bool := lexicon.entries.isEmpty

/-- Adds the entries of an object; of a repeated form, the last one counts. -/
def ofEntries? : List (Option String × Json) → Lexicon → Option Lexicon
  | [], lexicon => some lexicon
  | (form, value) :: entries, lexicon => do
    ofEntries? entries (lexicon.insert (← form) (← value.list? Analysis.ofJson?))

/-- The lexicon that a JSON object from forms to lists of analyses writes. -/
def ofJson? : Json → Option Lexicon
  | .object entries => ofEntries? entries empty
  | _ => none

/-- The lexicon that a JSON text writes. -/
def parse (text : String) : Option Lexicon := do
  ofJson? (← Json.parse text)

end Lexicon

end Concordance
