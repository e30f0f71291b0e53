import Concordance.Proofs.Text.Decomposition
import Concordance.Text.Fold

/-!
# What stands in search keys

A search key holds only code points that decompose no further, are no marks of the removed blocks
and are their own lower case (`Fold.Settled`). The tables fit together for this: the lower case of
a whole code point is whole, no mark and in lower case (`Fold.lowerCase_spec`).

- `CombiningClass.ofCode_of_not_marked`: code points outside the table have class 0.
- `LetterCase.mapByRuns_eq_or`: what a code point maps to.
- `Fold.class_ne_zero_of_mem_ofCode`: a mark of the blocks that comes out of a decomposition has a
  positive class.
-/

namespace Concordance

/-! ## Classes -/

namespace CombiningClass

/-- The code points of the table. -/
def markedSet : Nat := CodeSet.union table.toList fun run => CodeSet.range run.1 run.2.1

theorem testBit_markedSet (code : Nat) :
    markedSet.testBit code ↔ ∃ run ∈ table.toList, run.1 ≤ code ∧ code ≤ run.2.1 := by
  rw [markedSet, CodeSet.testBit_union]
  exact exists_congr fun run => and_congr_right fun _ => CodeSet.testBit_range _ _ _

/-- Code points outside the table have class 0. -/
theorem ofCode_of_not_marked {code : Nat} (h : ¬ markedSet.testBit code) : ofCode code = 0 := by
  unfold ofCode
  split
  next => rfl
  next =>
    split
    next first last value hfound =>
      refine if_neg fun hfirst => h ((testBit_markedSet code).mpr
        ⟨(first, last, value), Array.mem_toList_iff.mpr (Array.mem_of_getElem? hfound), hfirst, ?_⟩)
      exact Nat.le_of_not_lt fun hlt =>
        not_of_getElem?_partitionPoint hfound (decide_eq_true hlt)
    next => rfl

end CombiningClass

/-! ## Letter case -/

namespace LetterCase

/-- The letters of a run. -/
def Run.letters (run : Run) : List Nat :=
  (List.range ((run.last - run.first) / run.stride + 1)).map fun number =>
    run.first + run.stride * number

/-- The letters with another lower case of one letter. -/
def capitalSet : Nat := CodeSet.union lowerRuns.toList fun run => CodeSet.ofList run.letters

theorem Run.mem_letters {run : Run} {code : Nat} (hfirst : run.first ≤ code)
    (hlast : code ≤ run.last) (hstride : (code - run.first) % run.stride = 0) :
    code ∈ run.letters := by
  refine List.mem_map.mpr ⟨(code - run.first) / run.stride, List.mem_range.mpr ?_, ?_⟩
  · exact Nat.lt_succ_of_le (Nat.div_le_div_right (Nat.sub_le_sub_right hlast _))
  · have := Nat.div_add_mod (code - run.first) run.stride
    omega

theorem testBit_capitalSet (code : Nat) :
    capitalSet.testBit code ↔ ∃ run ∈ lowerRuns.toList, code ∈ run.letters := by
  rw [capitalSet, CodeSet.testBit_union]
  exact exists_congr fun run => and_congr_right fun _ => CodeSet.testBit_ofList _ _

/-- What a code point maps to. -/
theorem mapByRuns_eq_or (runs : Array Run) (code : Nat) :
    mapByRuns runs code = code
      ∨ ∃ run ∈ runs.toList, code ∈ run.letters
        ∧ mapByRuns runs code = ((code : Int) + run.distance).toNat := by
  unfold mapByRuns
  split
  next run hfound =>
    have hlast := not_of_getElem?_partitionPoint hfound
    by_cases hletter : run.first ≤ code ∧ (code - run.first) % run.stride = 0
    · refine .inr ⟨run, Array.mem_toList_iff.mpr (Array.mem_of_getElem? hfound), ?_,
        if_pos hletter⟩
      exact Run.mem_letters hletter.1 (Nat.le_of_not_lt fun hlt => hlast (decide_eq_true hlt))
        hletter.2
    · exact .inl (if_neg hletter)
  next => exact .inl rfl

/-- A code point outside the table is its own lower case. -/
theorem mapByRuns_of_not_capital {code : Nat} (h : ¬ capitalSet.testBit code) :
    mapByRuns lowerRuns code = code := by
  rcases mapByRuns_eq_or lowerRuns code with hself | ⟨run, hrun, hletter, -⟩
  · exact hself
  · exact absurd ((testBit_capitalSet code).mpr ⟨run, hrun, hletter⟩) h

end LetterCase

/-! ## Code points of search keys -/

namespace Fold

open Decomposition (Whole IsSyllable keySet whole_of_not_key)
open LetterCase (lower mapByRuns lowerRuns capitalSet)
open CombiningClass (markedSet)

/-- The code point stays as it is in a search key. -/
structure Settled (code : Nat) : Prop where
  whole : Whole code
  not_mark : isMark code = false
  lower_eq : lower code = [code]

/-! ### What the tables say -/

/-- A letter that can be decomposed never gets to its lower case. The lower case of any other letter
is settled, and both have class 0. -/
theorem letters_checked : ∀ run ∈ lowerRuns.toList, ∀ code ∈ run.letters,
    keySet.testBit code ∨ ¬ markedSet.testBit code
      ∧ (let small := ((code : Int) + run.distance).toNat
        small.isValidChar ∧ ¬ keySet.testBit small ∧ ¬ IsSyllable small ∧ isMark small = false
          ∧ ¬ capitalSet.testBit small ∧ small ≠ 0x130 ∧ ¬ markedSet.testBit small) := by
  decide +kernel

/-- The marks in decompositions are of one block. -/
theorem marks_of_parts : ∀ row ∈ Decomposition.table.toList, ∀ part ∈ row.2, isMark part = true →
    0x300 ≤ part ∧ part < 0x370 ∧ part ≠ 0x34F := by
  decide +kernel

/-- The marks of that block have positive classes, but for one. -/
theorem marks_classed : ∀ place < 0x70, place ≠ 0x4F →
    CombiningClass.ofCode (0x300 + place) ≠ 0 := by
  decide +kernel

/-- The letters of syllables are no marks. -/
theorem isMark_of_letter {code : Nat} (hfirst : 0x1100 ≤ code) (hlast : code < 0x1200) :
    isMark code = false := by
  have hblocks : ∀ block ∈ markBlocks, block.2 < 0x1100 ∨ 0x1200 ≤ block.1 := by decide
  refine List.any_eq_false.mpr fun block hblock => ?_
  have hapart := hblocks block hblock
  simp only [Bool.and_eq_true, decide_eq_true_eq]
  omega

/-! ### What comes out of a decomposition -/

/-- A mark of the blocks that comes out of the decomposition of another code point has a positive
class. -/
theorem class_ne_zero_of_mem_ofCode {code part : Nat} (hpart : part ∈ Decomposition.ofCode code)
    (hne : part ≠ code) (hmark : isMark part = true) : CombiningClass.ofCode part ≠ 0 := by
  rcases Decomposition.whole_or_isSyllable_or_row code with hwhole | hsyllable | hrow
  · exact absurd (hwhole.eq_of_mem hpart) hne
  · have hletter := hsyllable.mem_ofCode hpart
    rw [isMark_of_letter hletter.1 hletter.2] at hmark
    cases hmark
  · obtain ⟨hfirst, hlast, hjoiner⟩ := marks_of_parts _ hrow part hpart hmark
    have hclass := marks_classed (part - 0x300) (by omega) (by omega)
    rwa [Nat.add_sub_cancel' hfirst] at hclass

/-- The lower case of a whole code point that is no mark is settled, and its class is the same. -/
theorem lowerCase_spec {code : Nat} (hwhole : Whole code) (hmark : isMark code = false) :
    lower code = [mapByRuns lowerRuns code] ∧ Settled (mapByRuns lowerRuns code)
      ∧ CombiningClass.ofCode (mapByRuns lowerRuns code) = CombiningClass.ofCode code
      ∧ (code.isValidChar → (mapByRuns lowerRuns code).isValidChar) := by
  have hdot : code ≠ 0x130 := fun h => (h ▸ hwhole).not_key (by decide +kernel)
  have hlower : lower code = [mapByRuns lowerRuns code] := if_neg hdot
  rcases LetterCase.mapByRuns_eq_or lowerRuns code with hself | ⟨run, hrun, hletter, hsmall⟩
  · rw [hself] at hlower ⊢
    exact ⟨hlower, ⟨hwhole, hmark, hlower⟩, rfl, id⟩
  · rcases letters_checked run hrun code hletter with hkey | ⟨hclass, hvalid, hkey, hsyllable,
      hsmallMark, hcapital, hsmallDot, hsmallClass⟩
    · exact absurd hkey hwhole.not_key
    rw [← hsmall] at hvalid hkey hsyllable hsmallMark hcapital hsmallDot hsmallClass
    refine ⟨hlower, ⟨whole_of_not_key hkey hsyllable, hsmallMark, ?_⟩, ?_, fun _ => hvalid⟩
    · rw [lower, if_neg hsmallDot, LetterCase.mapByRuns_of_not_capital hcapital]
    · rw [CombiningClass.ofCode_of_not_marked hsmallClass,
        CombiningClass.ofCode_of_not_marked hclass]

end Fold

end Concordance
