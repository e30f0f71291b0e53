import Concordance.Json.Fields
import Concordance.Json.Parser
import Concordance.Storage.Path

/-!
# Manifests

A manifest lists the files of a build: the works to index, in order, and the lexicon with the
analyses of their words. Its paths start at the directory of the manifest.
-/

namespace Concordance

/-- The files of a build. -/
structure Manifest where
  /-- The paths of the works, in the order in which they are indexed. -/
  works : List String
  /-- The path of the lexicon. -/
  analyses : String
  deriving DecidableEq, Repr

namespace Manifest

/-- The manifest that a JSON value writes. -/
def ofJson? (value : Json) : Option Manifest := do
  match ← value.fields? ["works", "analyses"] with
  | [some works, some analyses] => return ⟨← works.texts?, ← analyses.text?⟩
  | _ => none

/-- The manifest that a JSON text writes. -/
def parse (text : String) : Option Manifest := do
  ofJson? (← Json.parse text)

/-- The paths of the works of a manifest in a directory. -/
def workPaths (manifest : Manifest) (base : String) : List String :=
  manifest.works.map (Path.join base)

/-- The path of the lexicon of a manifest in a directory. -/
def analysesPath (manifest : Manifest) (base : String) : String :=
  Path.join base manifest.analyses

end Manifest

end Concordance
