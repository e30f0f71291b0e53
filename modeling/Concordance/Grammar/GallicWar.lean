import Concordance.Grammar.Lexicon

/-!
# The opening of the Gallic War

A small lexicon for trying things out: the words of "Gallia est omnis divisa in partes tres".
-/

namespace Concordance.Lexicon

/-- The analyses of the first words of the Gallic War. -/
def gallicWar : Lexicon :=
  empty
    |>.insert "gallia" [{
      headword := "Gallia"
      case := some (.many [.nominative, .ablative])
      number := some (.one .singular)
      gender := some (.one .feminine) }]
    |>.insert "est" [{
      headword := "sum"
      person := some (.one .third)
      number := some (.one .singular)
      tense := some (.one .present)
      mood := some (.one .indicative)
      voice := some (.one .active) }]
    |>.insert "omnis" [{
      headword := "omnis"
      case := some (.many [.nominative, .genitive])
      number := some (.one .singular)
      gender := some (.many [.masculine, .feminine]) }]
    |>.insert "divisa" [{
      headword := "divido"
      case := some (.one .nominative)
      number := some (.one .singular)
      gender := some (.one .feminine)
      tense := some (.one .perfect)
      mood := some (.one .participle)
      voice := some (.one .passive) }]
    |>.insert "in" [{ headword := "in" }]
    |>.insert "partes" [{
      headword := "pars"
      case := some (.many [.nominative, .accusative])
      number := some (.one .plural)
      gender := some (.one .feminine) }]
    |>.insert "tres" [{
      headword := "tres"
      case := some (.many [.nominative, .accusative])
      number := some (.one .plural) }]

end Concordance.Lexicon
