import Concordance.Corpus.Basic
import Concordance.Posting.Anchored

/-!
# Queries

A query is a first term and further terms, each of which is combined with the result so far: the
result is the candidates' side throughout, so that the whole query stays in the frame of its first
term.

- `Term`: a value of a dimension at a position of the query.
- `Link`: how a term is combined with the result before it.
- `Corpus.search`: the result after every term.
-/

namespace Concordance

/-- A value that a token is to have, at a position relative to the other terms. -/
structure Term where
  /-- The value. -/
  key : IndexKey
  /-- The position. -/
  position : UInt32
  deriving DecidableEq, Repr

/-- How a term is combined with the result before it. -/
inductive Link where
  /-- Keeps the tokens that have the term as well. -/
  | meet
  /-- Adds the tokens that have the term. -/
  | join
  /-- Keeps the tokens that have the term nearby. -/
  | nearby (radius : UInt32) (direction : Direction)
  deriving DecidableEq, Repr

namespace Corpus

/-- The tokens with the value of a term. A value that does not occur has none. -/
def anchored (corpus : Corpus) (term : Term) : Anchored :=
  ⟨(corpus.posting? term.key).getD .empty, term.position⟩

/-- Combines a result with a further term. -/
def refine (corpus : Corpus) (result : Anchored) (link : Link) (term : Term) :
    Except ContractViolation Anchored :=
  match link with
  | .meet => result.intersect (corpus.anchored term)
  | .join => result.unite (corpus.anchored term)
  | .nearby radius direction => result.near (corpus.anchored term) radius direction

/-- The results after each of the further terms. -/
def refineAll (corpus : Corpus) (result : Anchored) :
    List (Link × Term) → Except ContractViolation (List Anchored)
  | [] => .ok []
  | (link, term) :: later => do
    let next ← corpus.refine result link term
    return next :: (← corpus.refineAll next later)

/-- The results after each term of a query. -/
def search (corpus : Corpus) (first : Term) (later : List (Link × Term)) :
    Except ContractViolation (List Anchored) := do
  let result := corpus.anchored first
  return result :: (← corpus.refineAll result later)

end Corpus

end Concordance
