import Mathlib.Tactic
import Concordance.Search

/-!
# What binary search finds

In an array whose elements with a property all come first, `partitionPoint` is where they end
(`getElem_iff_lt_partitionPoint`). The search keeps one invariant: all elements below its range have
the property and none from its end on has it. A place with just the elements that have the property
before it is the partition point (`partitionPoint_eq_of_forall`).

Whatever the array, an element that is found lacks the property (`not_of_getElem?_partitionPoint`).
-/

namespace Concordance

variable {α : Type} {items : Array α} {p : α → Bool}

/-- The search goes on above an element with the property. -/
theorem partitionPointIn_of_any {low high : Nat} (hlt : low < high)
    (hmiddle : items[low + (high - low) / 2]?.any p) :
    partitionPointIn items p low high
      = partitionPointIn items p (low + (high - low) / 2 + 1) high := by
  rw [partitionPointIn, dif_pos hlt]
  exact if_pos hmiddle

/-- The search goes on below an element without the property. -/
theorem partitionPointIn_of_not_any {low high : Nat} (hlt : low < high)
    (hmiddle : ¬ items[low + (high - low) / 2]?.any p) :
    partitionPointIn items p low high
      = partitionPointIn items p low (low + (high - low) / 2) := by
  rw [partitionPointIn, dif_pos hlt]
  exact if_neg hmiddle

/-- Searching a range finds where the property ends, if it ends nowhere else. -/
theorem partitionPointIn_spec (low high : Nat)
    (hfirst : ∀ (i j : Nat) (hi : i < items.size) (hj : j < items.size), i ≤ j → p items[j] →
      p items[i])
    (hle : low ≤ high) (hsize : high ≤ items.size)
    (hbelow : ∀ (i : Nat) (hi : i < items.size), i < low → p items[i])
    (habove : ∀ (i : Nat) (hi : i < items.size), high ≤ i → ¬ p items[i]) :
    partitionPointIn items p low high ≤ items.size
      ∧ ∀ (i : Nat) (hi : i < items.size), p items[i] ↔ i < partitionPointIn items p low high := by
  induction low, high using partitionPointIn.induct items p with
  | case1 low high hlt middle hmiddle ih =>
    have hsearch := partitionPointIn_of_any hlt hmiddle
    have hinside : middle < items.size := by omega
    rw [Array.getElem?_eq_getElem hinside, Option.any_some] at hmiddle
    rw [hsearch]
    refine ih (by omega) hsize (fun i hi hlow => ?_) habove
    exact hfirst i middle hi hinside (by omega) hmiddle
  | case2 low high hlt middle hmiddle ih =>
    have hsearch := partitionPointIn_of_not_any hlt hmiddle
    have hinside : middle < items.size := by omega
    rw [Array.getElem?_eq_getElem hinside, Option.any_some] at hmiddle
    rw [hsearch]
    refine ih (by omega) (by omega) hbelow fun i hi hhigh hp => ?_
    exact hmiddle (hfirst middle i hinside hi hhigh hp)
  | case3 low high hlt =>
    have heq : low = high := by omega
    subst heq
    rw [partitionPointIn, dif_neg hlt]
    refine ⟨hsize, fun i hi => ⟨fun hp => ?_, hbelow i hi⟩⟩
    exact Nat.lt_of_not_le fun hle => habove i hi hle hp

/-- The elements with the property are the ones before the partition point. -/
theorem getElem_iff_lt_partitionPoint (items : Array α) (p : α → Bool)
    (hfirst : ∀ (i j : Nat) (hi : i < items.size) (hj : j < items.size), i ≤ j → p items[j] →
      p items[i]) :
    partitionPoint items p ≤ items.size
      ∧ ∀ (i : Nat) (hi : i < items.size), p items[i] ↔ i < partitionPoint items p :=
  partitionPointIn_spec 0 items.size hfirst (Nat.zero_le _) (Nat.le_refl _)
    (fun i _ hlow => absurd hlow (Nat.not_lt_zero i))
    fun _ hi hle => absurd hi (Nat.not_lt_of_le hle)

/-- The partition point is the place with all elements that have the property before it. -/
theorem partitionPoint_eq_of_forall {index : Nat} (hindex : index ≤ items.size)
    (hbefore : ∀ (i : Nat) (hi : i < items.size), i < index → p items[i])
    (hbehind : ∀ (i : Nat) (hi : i < items.size), index ≤ i → ¬ p items[i]) :
    partitionPoint items p = index := by
  obtain ⟨hsize, hpoint⟩ := getElem_iff_lt_partitionPoint items p fun i j hi hj hij hp =>
    hbefore i hi (Nat.lt_of_le_of_lt hij (Nat.lt_of_not_le fun hle => hbehind j hj hle hp))
  refine Nat.le_antisymm (Nat.le_of_not_lt fun hlt => ?_) (Nat.le_of_not_lt fun hlt => ?_)
  · have hinside := Nat.lt_of_lt_of_le hlt hsize
    exact hbehind index hinside (Nat.le_refl _) ((hpoint index hinside).mpr hlt)
  · have hinside := Nat.lt_of_lt_of_le hlt hindex
    exact Nat.lt_irrefl _ ((hpoint _ hinside).mp (hbefore _ hinside hlt))

/-- In an ascending array, the search for the place of an element finds the element. -/
theorem partitionPoint_of_ascending {precedes : α → α → Prop} [DecidableRel precedes]
    (hasymm : ∀ a b, precedes a b → ¬ precedes b a) (hasc : items.toList.Pairwise precedes)
    {index : Nat} (hindex : index < items.size) :
    partitionPoint items (fun item => precedes item items[index]) = index := by
  have hbefore : ∀ {i j : Nat} (hi : i < items.size) (hj : j < items.size), i < j →
      precedes items[i] items[j] :=
    fun hi hj hij => List.pairwise_iff_getElem.mp hasc _ _ hi hj hij
  refine partitionPoint_eq_of_forall (Nat.le_of_lt hindex)
    (fun i hi hlt => decide_eq_true (hbefore hi hindex hlt)) fun i hi hle hprecedes => ?_
  have hprecedes := of_decide_eq_true hprecedes
  rcases Nat.eq_or_lt_of_le hle with rfl | hlt
  · exact hasymm _ _ hprecedes hprecedes
  · exact hasymm _ _ hprecedes (hbefore hindex hi hlt)

/-- A search ends where its range ended or at an element that it has seen to lack the property. -/
theorem partitionPointIn_eq_or_not (low high : Nat) (hle : low ≤ high) :
    partitionPointIn items p low high = high
      ∨ ¬ items[partitionPointIn items p low high]?.any p := by
  induction low, high using partitionPointIn.induct items p with
  | case1 low high hlt middle hmiddle ih =>
    rw [partitionPointIn_of_any hlt hmiddle]
    exact ih (by omega)
  | case2 low high hlt middle hmiddle ih =>
    rw [partitionPointIn_of_not_any hlt hmiddle]
    refine .inr ?_
    rcases ih (by omega) with hend | hlacks
    · rwa [hend]
    · exact hlacks
  | case3 low high hlt =>
    rw [partitionPointIn, dif_neg hlt]
    exact .inl (by omega)

/-- The element at the partition point lacks the property. -/
theorem not_of_getElem?_partitionPoint {item : α}
    (hitem : items[partitionPoint items p]? = some item) : ¬ p item := by
  rcases partitionPointIn_eq_or_not 0 items.size (Nat.zero_le _) with hend | hlacks
  · rw [show partitionPoint items p = items.size from hend,
      Array.getElem?_eq_none (Nat.le_refl _)] at hitem
    cases hitem
  · rwa [show partitionPointIn items p 0 items.size = partitionPoint items p from rfl, hitem,
      Option.any_some] at hlacks

end Concordance
