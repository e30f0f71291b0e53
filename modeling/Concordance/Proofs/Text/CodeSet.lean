import Mathlib.Tactic

/-!
# Sets of code points as numbers

A set of code points is the number with these bits. A number of some ten thousand bits is made in
one evaluation, and whether it holds a code point is one step, so that statements about all rows of
a table can be evaluated.

- `CodeSet.ofList`: the set of the code points of a list.
- `CodeSet.range`: the set of the code points of a range.
- `CodeSet.union`: the union of the sets of items.
-/

namespace Concordance.CodeSet

/-- The set of the code points of a list. -/
def ofList (codes : List Nat) : Nat := codes.foldr (fun code set => set ||| 1 <<< code) 0

/-- The set of the code points from `first` to `last`. -/
def range (first last : Nat) : Nat := (2 ^ (last + 1 - first) - 1) <<< first

/-- The union of the sets of items. -/
def union {α : Type} (items : List α) (setOf : α → Nat) : Nat :=
  items.foldr (fun item set => setOf item ||| set) 0

theorem testBit_ofList (codes : List Nat) (code : Nat) :
    (ofList codes).testBit code ↔ code ∈ codes := by
  induction codes with
  | nil => simp [ofList]
  | cons first codes ih =>
    have hset : ofList (first :: codes) = ofList codes ||| 1 <<< first := rfl
    rw [hset, Nat.testBit_or, Bool.or_eq_true, ih, Nat.one_shiftLeft, Nat.testBit_two_pow,
      decide_eq_true_eq, List.mem_cons, or_comm, eq_comm]

theorem testBit_range (first last code : Nat) :
    (range first last).testBit code ↔ first ≤ code ∧ code ≤ last := by
  rw [range, Nat.testBit_shiftLeft, Nat.testBit_two_pow_sub_one, Bool.and_eq_true,
    decide_eq_true_eq, decide_eq_true_eq]
  omega

theorem testBit_union {α : Type} (items : List α) (setOf : α → Nat) (code : Nat) :
    (union items setOf).testBit code ↔ ∃ item ∈ items, (setOf item).testBit code := by
  induction items with
  | nil => simp [union]
  | cons item items ih =>
    have hset : union (item :: items) setOf = setOf item ||| union items setOf := rfl
    rw [hset, Nat.testBit_or, Bool.or_eq_true, ih, List.exists_mem_cons_iff]

end Concordance.CodeSet
