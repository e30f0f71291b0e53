import Mathlib.Data.List.GetD
import Mathlib.Data.List.Perm.Subperm
import Concordance.Ascending

/-!
# Ascending lists

Sorting and dropping repeats neither loses nor invents a value (`mem_ascending`) and leaves a list
that ascends (`ascending_pairwise`), and the last member of a list that ascends is its greatest
(`le_last_of_mem`). Looking for a range in a list that
ascends needs one look, at the first member that is not below it (`find?_any_of_ascending`).

A list that ascends has a number of members that 32 bits can say, unless it has every 32-bit number
(`length_lt_of_notMem`, `size_le_length_of_forall_mem`).
-/

namespace Concordance

/-- The last member of an ascending list is the greatest. -/
theorem le_last_of_mem {members : List UInt32} {last member : UInt32}
    (hasc : members.Pairwise (· < ·)) (hlast : members.getLast? = some last)
    (hmember : member ∈ members) : member ≤ last := by
  obtain ⟨before, rfl⟩ := List.getLast?_eq_some_iff.mp hlast
  rcases List.mem_append.mp hmember with hbefore | hsame
  · exact UInt32.le_of_lt ((List.pairwise_append.mp hasc).2.2 member hbefore last
      (List.mem_singleton_self _))
  · rw [List.mem_singleton.mp hsame]
    exact UInt32.le_refl _

/-- A member of an ascending list is smaller than those behind it. -/
theorem getD_lt_getD {members : List UInt32} (hasc : members.Pairwise (· < ·)) {first second : Nat}
    (hlt : first < second) (hsecond : second < members.length) :
    members.getD first 0 < members.getD second 0 := by
  rw [List.getD_eq_getElem _ _ (by omega), List.getD_eq_getElem _ _ hsecond]
  exact List.pairwise_iff_getElem.mp hasc _ _ _ _ hlt

/-- The first member of an ascending list is the smallest. -/
theorem getD_zero_le_of_mem {members : List UInt32} (hasc : members.Pairwise (· < ·))
    {member : UInt32} (hmember : member ∈ members) : members.getD 0 0 ≤ member := by
  obtain ⟨index, hindex, rfl⟩ := List.mem_iff_getElem.mp hmember
  rw [← List.getD_eq_getElem _ 0 hindex]
  rcases Nat.eq_zero_or_pos index with rfl | hpos
  · exact UInt32.le_refl _
  · exact UInt32.le_of_lt (getD_lt_getD hasc hpos hindex)

/-! ## How many members there can be -/

/-- An ascending list repeats no member. -/
theorem nodup_map_toNat {members : List UInt32} (hasc : members.Pairwise (· < ·)) :
    (members.map UInt32.toNat).Nodup := by
  refine List.pairwise_map.mpr (hasc.imp fun {a b} hlt => ?_)
  have hnat : a.toNat < b.toNat := hlt
  exact Nat.ne_of_lt hnat

/-- Ascending members that leave out a 32-bit number are fewer than these. -/
theorem length_lt_of_notMem {members : List UInt32} (hasc : members.Pairwise (· < ·))
    {value : UInt32} (hvalue : value ∉ members) : members.length < UInt32.size := by
  have hnodup : ((value :: members).map UInt32.toNat).Nodup := by
    refine List.nodup_cons.mpr ⟨fun hmem => hvalue ?_, nodup_map_toNat hasc⟩
    obtain ⟨member, hmember, hsame⟩ := List.mem_map.mp hmem
    rwa [← UInt32.toNat_inj.mp hsame]
  have hrange : (value :: members).map UInt32.toNat ⊆ List.range UInt32.size := by
    intro number hnumber
    obtain ⟨member, -, rfl⟩ := List.mem_map.mp hnumber
    exact List.mem_range.mpr member.toNat_lt_size
  have hle := (List.subperm_of_subset hnodup hrange).length_le
  rw [List.length_map, List.length_cons, List.length_range] at hle
  exact hle

/-- Ascending members below a number are fewer than the 32-bit numbers. -/
theorem length_lt_of_forall_lt {members : List UInt32} (hasc : members.Pairwise (· < ·))
    {limit : UInt32} (hlimit : ∀ member ∈ members, member < limit) :
    members.length < UInt32.size :=
  length_lt_of_notMem hasc fun hmem => UInt32.lt_irrefl _ (hlimit limit hmem)

/-- A list that has every 32-bit number has at least as many members as there are. -/
theorem size_le_length_of_forall_mem {members : List UInt32} (hall : ∀ value, value ∈ members) :
    UInt32.size ≤ members.length := by
  have hrange : List.range UInt32.size ⊆ members.map UInt32.toNat := by
    intro number hnumber
    refine List.mem_map.mpr ⟨UInt32.ofNat number, hall _, ?_⟩
    exact UInt32.toNat_ofNat_of_lt' (List.mem_range.mp hnumber)
  have hle := (List.subperm_of_subset List.nodup_range hrange).length_le
  rwa [List.length_range, List.length_map] at hle

/-! ## Looking for a range -/

/-- In an ascending list the first member from a bound on tells whether any lies in a range. -/
theorem find?_any_of_ascending {members : List UInt32} (hasc : members.Pairwise (· < ·))
    (first final : UInt32) :
    (members.find? (first ≤ ·)).any (· ≤ final)
      = decide (∃ member ∈ members, first ≤ member ∧ member ≤ final) := by
  induction members with
  | nil => simp
  | cons member members ih =>
    rw [List.pairwise_cons] at hasc
    by_cases hfirst : first ≤ member
    · rw [List.find?_cons_of_pos (by simpa using hfirst), Option.any_some]
      refine decide_eq_decide.mpr ⟨fun hfinal => ⟨member, List.mem_cons_self, hfirst, hfinal⟩, ?_⟩
      rintro ⟨other, hother, -, hfinal⟩
      -- whatever else lies in the range is not smaller
      rcases List.mem_cons.mp hother with rfl | hbehind
      · exact hfinal
      · exact UInt32.le_trans (UInt32.le_of_lt (hasc.1 other hbehind)) hfinal
    · rw [List.find?_cons_of_neg (by simpa using hfirst), ih hasc.2]
      simp [hfirst]

/-! ## Sorting -/

section

variable {α : Type} [DecidableEq α]

theorem mem_dropRepeats {values : List α} {value : α} :
    value ∈ dropRepeats values ↔ value ∈ values := by
  induction values using dropRepeats.induct with
  | case1 => rfl
  | case2 first => rfl
  | case3 next rest ih =>
    rw [dropRepeats, if_pos rfl, ih]
    simp only [List.mem_cons, or_self_left]
  | case4 first next rest hne ih =>
    rw [dropRepeats, if_neg hne]
    simp only [List.mem_cons] at ih ⊢
    rw [ih]

theorem mem_ascending [LE α] [DecidableLE α] {values : List α} {value : α} :
    value ∈ ascending values ↔ value ∈ values := by
  rw [ascending, mem_dropRepeats, List.mem_mergeSort]

end

section

variable {α : Type} [DecidableEq α] [LE α] [LT α] [Std.IsLinearOrder α] [Std.LawfulOrderLT α]

/-- Without repeats, a list that does not fall ascends. -/
theorem dropRepeats_ascending {values : List α} (h : values.Pairwise (· ≤ ·)) :
    (dropRepeats values).Pairwise (· < ·) := by
  induction values using dropRepeats.induct with
  | case1 => exact .nil
  | case2 first => exact List.pairwise_singleton _ _
  | case3 next rest ih =>
    rw [dropRepeats, if_pos rfl]
    exact ih h.of_cons
  | case4 first next rest hne ih =>
    rw [dropRepeats, if_neg hne]
    have hnext : first < next :=
      Std.lt_of_le_of_ne ((List.pairwise_cons.mp h).1 next List.mem_cons_self) hne
    refine List.pairwise_cons.mpr ⟨fun member hmember => ?_, ih h.of_cons⟩
    rcases List.mem_cons.mp (mem_dropRepeats.mp hmember) with rfl | hbehind
    · exact hnext
    · exact Std.lt_of_lt_of_le hnext ((List.pairwise_cons.mp h.of_cons).1 member hbehind)

/-- Sorted values ascend. -/
theorem ascending_pairwise [DecidableLE α] (values : List α) :
    (ascending values).Pairwise (· < ·) := by
  refine dropRepeats_ascending ?_
  have hsorted := @List.pairwise_mergeSort _ (fun a b : α => decide (a ≤ b))
    (fun a b c hab hbc => decide_eq_true (Std.le_trans (of_decide_eq_true hab)
      (of_decide_eq_true hbc)))
    (fun a b => by simpa using Std.le_total) values
  exact hsorted.imp of_decide_eq_true

/-- Sorting drops nothing where nothing is repeated. -/
theorem ascending_perm [DecidableLE α] {values : List α} (h : values.Nodup) :
    (ascending values).Perm values := by
  have hne : ∀ {first second : α}, first < second → first ≠ second := by
    rintro first second hlt rfl
    exact Std.lt_irrefl hlt
  have hnodup : (ascending values).Nodup := (ascending_pairwise values).imp hne
  exact (List.perm_ext_iff_of_nodup hnodup h).mpr fun value => mem_ascending

end

end Concordance
