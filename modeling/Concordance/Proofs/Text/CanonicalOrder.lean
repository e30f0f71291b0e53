import Mathlib.Data.List.Chain
import Concordance.Text.Fold

/-!
# The canonical order of marks

A text is in canonical order when no mark stands directly behind one of a higher class
(`InOrder`). `Fold.reorder` brings every text into canonical order, keeps its characters
(`reorder_inOrder`, `reorder_perm`), and changes just the texts that are not in order
(`reorder_eq_self_iff`).

Leaving out characters of positive class keeps a text in order (`InOrder.filter`). A character of
class 0 stands between marks that need not be in order without it.
-/

namespace Concordance.Fold

/-- The character `next` may stand directly behind `code`. -/
def MayPrecede (code next : Nat) : Prop :=
  CombiningClass.ofCode next = 0 ∨ CombiningClass.ofCode code ≤ CombiningClass.ofCode next

/-- No mark stands directly behind one of a higher class. -/
def InOrder (codes : List Nat) : Prop := codes.IsChain MayPrecede

instance (code next : Nat) : Decidable (MayPrecede code next) :=
  inferInstanceAs (Decidable (_ ∨ _))

instance (codes : List Nat) : Decidable (InOrder codes) :=
  inferInstanceAs (Decidable (codes.IsChain MayPrecede))

/-- A character does not pass the one behind it exactly if it may precede it. -/
theorem not_passes_iff (code next : Nat) :
    ¬ (0 < CombiningClass.ofCode next ∧ CombiningClass.ofCode next < CombiningClass.ofCode code)
      ↔ MayPrecede code next := by
  unfold MayPrecede
  omega

/-! ## Placing one character -/

theorem place_perm (code : Nat) (codes : List Nat) : (place code codes).Perm (code :: codes) := by
  induction codes with
  | nil => exact .refl _
  | cons next rest ih =>
    rw [place]
    split
    · exact (ih.cons next).trans (.swap code next rest)
    · exact .refl _

/-- A character that may precede all that follows stays in front. -/
theorem place_of_inOrder {code : Nat} {codes : List Nat} (h : InOrder (code :: codes)) :
    place code codes = code :: codes := by
  cases codes with
  | nil => rfl
  | cons next rest => rw [place, if_neg ((not_passes_iff code next).mpr h.rel)]

/-- Placing a character keeps the order. -/
theorem place_inOrder {code : Nat} {codes : List Nat} (h : InOrder codes) :
    InOrder (place code codes) := by
  induction codes with
  | nil => exact .singleton code
  | cons next rest ih =>
    rw [place]
    split
    next hpasses =>
      -- what comes behind `next` is the character that has passed it, or what was there before
      have hrest := ih h.tail
      cases rest with
      | nil => exact .cons_cons (.inr (Nat.le_of_lt hpasses.2)) hrest
      | cons third rest =>
        rw [place] at hrest ⊢
        split at hrest
        next hfurther =>
          rw [if_pos hfurther]
          exact .cons_cons h.rel hrest
        next hstays =>
          rw [if_neg hstays]
          exact .cons_cons (.inr (Nat.le_of_lt hpasses.2)) hrest
    next hstays => exact .cons_cons ((not_passes_iff code next).mp hstays) h

/-! ## Whole texts -/

/-- Reordering keeps the characters. -/
theorem reorder_perm (codes : List Nat) : (reorder codes).Perm codes := by
  induction codes with
  | nil => exact .refl _
  | cons code codes ih => exact (place_perm code _).trans (ih.cons code)

/-- Reordering brings a text into canonical order. -/
theorem reorder_inOrder (codes : List Nat) : InOrder (reorder codes) := by
  induction codes with
  | nil => exact .nil
  | cons code codes ih => exact place_inOrder ih

/-- A text in canonical order stays as it is. -/
theorem reorder_of_inOrder {codes : List Nat} (h : InOrder codes) : reorder codes = codes := by
  induction codes with
  | nil => rfl
  | cons code codes ih =>
    show place code (reorder codes) = _
    rw [ih h.tail, place_of_inOrder h]

/-- The texts that reordering leaves as they are. -/
theorem reorder_eq_self_iff (codes : List Nat) : reorder codes = codes ↔ InOrder codes :=
  ⟨fun h => h ▸ reorder_inOrder codes, reorder_of_inOrder⟩

/-- Characters may be put in the place of others of the same class. -/
theorem inOrder_map_iff {f : Nat → Nat} {codes : List Nat}
    (h : ∀ code ∈ codes, CombiningClass.ofCode (f code) = CombiningClass.ofCode code) :
    InOrder (codes.map f) ↔ InOrder codes := by
  unfold InOrder
  rw [List.isChain_map]
  refine List.IsChain.iff_of_mem_imp fun code next hcode hnext => ?_
  unfold MayPrecede
  rw [h code hcode, h next hnext]

/-- Without a character of positive class, its neighbours are in order. -/
theorem InOrder.drop_second {code mark : Nat} {rest : List Nat}
    (h : InOrder (code :: mark :: rest)) (hmark : CombiningClass.ofCode mark ≠ 0) :
    InOrder (code :: rest) := by
  cases rest with
  | nil => exact .singleton code
  | cons next rest =>
    have hbefore : MayPrecede code mark := h.rel
    have hbehind : MayPrecede mark next := h.tail.rel
    refine .cons_cons ?_ h.tail.tail
    unfold MayPrecede at hbefore hbehind ⊢
    omega

/-- Behind a character that stays, characters of positive class may be left out. -/
theorem InOrder.filter_tail {code : Nat} {rest : List Nat} (h : InOrder (code :: rest))
    (keep : Nat → Bool)
    (hkeep : ∀ mark ∈ rest, keep mark = false → CombiningClass.ofCode mark ≠ 0) :
    InOrder (code :: rest.filter keep) := by
  induction rest generalizing code with
  | nil => exact .singleton code
  | cons next rest ih =>
    have hrest : ∀ mark ∈ rest, keep mark = false → CombiningClass.ofCode mark ≠ 0 :=
      fun mark hmark => hkeep mark (.tail _ hmark)
    cases hnext : keep next with
    | true =>
      rw [List.filter_cons_of_pos hnext]
      exact .cons_cons h.rel (ih h.tail hrest)
    | false =>
      rw [List.filter_cons_of_neg (Bool.not_eq_true _ ▸ hnext)]
      exact ih (h.drop_second (hkeep next (.head _) hnext)) hrest

/-- A text stays in order when characters of positive class are left out. -/
theorem InOrder.filter {codes : List Nat} (h : InOrder codes) (keep : Nat → Bool)
    (hkeep : ∀ code ∈ codes, keep code = false → CombiningClass.ofCode code ≠ 0) :
    InOrder (codes.filter keep) := by
  induction codes with
  | nil => exact .nil
  | cons code rest ih =>
    have hrest : ∀ mark ∈ rest, keep mark = false → CombiningClass.ofCode mark ≠ 0 :=
      fun mark hmark => hkeep mark (.tail _ hmark)
    cases hcode : keep code with
    | true =>
      rw [List.filter_cons_of_pos hcode]
      exact h.filter_tail keep hrest
    | false =>
      rw [List.filter_cons_of_neg (Bool.not_eq_true _ ▸ hcode)]
      exact ih h.tail hrest

end Concordance.Fold
