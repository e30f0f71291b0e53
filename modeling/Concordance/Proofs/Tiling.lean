import Mathlib.Data.List.Forall2
import Mathlib.Data.List.Pairwise

/-!
# Ranges end to end

The records of forms, the works of a corpus and the rows of a work each cover a run of places, one
behind the other. `Tiles` says that ranges do so between two places without a gap or an overlap: a
place between the two lies in one of the ranges (`Tiles.exists_mem`) and in no other
(`Tiles.pairwise`). When the parts of a list are as long as the ranges, what stands at a place of
the whole list stands in the part of its range (`Tiles.getElem?_flatten`).
-/

namespace Concordance

/-- Ranges, each given by its first place and the one behind its last, lie end to end from `start`
to `stop`. A range may be empty. -/
def Tiles (stop : Nat) : Nat → List (Nat × Nat) → Prop
  | start, [] => start = stop
  | start, range :: later => range.1 = start ∧ range.1 ≤ range.2 ∧ Tiles stop range.2 later

theorem getElem?_ranges {α : Type} (range : α → Nat × Nat) {items : Array α} {index : Nat}
    {item : α} (h : items[index]? = some item) :
    (items.toList.map range)[index]? = some (range item) := by
  rw [List.getElem?_map, Array.getElem?_toList, h, Option.map_some]

namespace Tiles

variable {start stop : Nat} {ranges : List (Nat × Nat)}

/-- One more range goes to the end. -/
theorem concat (h : Tiles stop start ranges) {behind : Nat} (hle : stop ≤ behind) :
    Tiles behind start (ranges ++ [(stop, behind)]) := by
  induction ranges generalizing start with
  | nil =>
    obtain rfl : start = stop := h
    exact ⟨rfl, hle, rfl⟩
  | cons range later ih =>
    obtain ⟨hfirst, hrange, hlater⟩ := h
    exact ⟨hfirst, hrange, ih hlater⟩

theorem le (h : Tiles stop start ranges) : start ≤ stop := by
  induction ranges generalizing start with
  | nil => exact Nat.le_of_eq h
  | cons range later ih =>
    obtain ⟨rfl, hrange, hlater⟩ := h
    exact Nat.le_trans hrange (ih hlater)

/-- Each of the ranges lies between the two places. -/
theorem bounds (h : Tiles stop start ranges) {range : Nat × Nat} (hrange : range ∈ ranges) :
    start ≤ range.1 ∧ range.1 ≤ range.2 ∧ range.2 ≤ stop := by
  induction ranges generalizing start with
  | nil => cases hrange
  | cons first later ih =>
    obtain ⟨rfl, hle, hlater⟩ := h
    rcases List.mem_cons.mp hrange with rfl | hbehind
    · exact ⟨Nat.le_refl _, hle, hlater.le⟩
    · obtain ⟨hstart, hrest⟩ := ih hlater hbehind
      exact ⟨Nat.le_trans hle hstart, hrest⟩

/-- There are at most as many ranges as places, if every range has a place. -/
theorem length_le (h : Tiles stop start ranges) (hfilled : ∀ range ∈ ranges, range.1 < range.2) :
    ranges.length ≤ stop - start := by
  induction ranges generalizing start with
  | nil => exact Nat.zero_le _
  | cons range later ih =>
    obtain ⟨rfl, -, hlater⟩ := h
    obtain ⟨hfirst, hrest⟩ := List.forall_mem_cons.mp hfilled
    have hcount := ih hlater hrest
    have hle := hlater.le
    rw [List.length_cons]
    omega

/-- A place in one of the ranges lies between the two places. -/
theorem within (h : Tiles stop start ranges) {range : Nat × Nat} (hrange : range ∈ ranges)
    {place : Nat} (hplace : range.1 ≤ place ∧ place < range.2) : start ≤ place ∧ place < stop := by
  obtain ⟨hstart, -, hstop⟩ := h.bounds hrange
  exact ⟨Nat.le_trans hstart hplace.1, Nat.lt_of_lt_of_le hplace.2 hstop⟩

/-- Every range stops before the later ones start. -/
theorem pairwise (h : Tiles stop start ranges) :
    ranges.Pairwise fun first second => first.2 ≤ second.1 := by
  induction ranges generalizing start with
  | nil => exact .nil
  | cons first later ih =>
    obtain ⟨-, -, hlater⟩ := h
    exact List.pairwise_cons.mpr ⟨fun range hrange => (hlater.bounds hrange).1, ih hlater⟩

/-- Every place lies in one of the ranges. -/
theorem exists_mem (h : Tiles stop start ranges) {place : Nat} (hstart : start ≤ place)
    (hstop : place < stop) : ∃ range ∈ ranges, range.1 ≤ place ∧ place < range.2 := by
  induction ranges generalizing start with
  | nil =>
    obtain rfl : start = stop := h
    omega
  | cons first later ih =>
    obtain ⟨rfl, hle, hlater⟩ := h
    rcases Nat.lt_or_ge place first.2 with hlt | hge
    · exact ⟨first, List.mem_cons_self, hstart, hlt⟩
    · obtain ⟨range, hrange, hplace⟩ := ih hlater hge
      exact ⟨range, List.mem_cons_of_mem _ hrange, hplace⟩

/-- A range stops before a later one starts. -/
theorem stop_le_start (h : Tiles stop start ranges) {index other : Nat}
    {range otherRange : Nat × Nat} (hrange : ranges[index]? = some range)
    (hother : ranges[other]? = some otherRange) (hlt : index < other) :
    range.2 ≤ otherRange.1 := by
  obtain ⟨hindex, rfl⟩ := List.getElem?_eq_some_iff.mp hrange
  obtain ⟨hotherIndex, rfl⟩ := List.getElem?_eq_some_iff.mp hother
  exact List.pairwise_iff_getElem.mp h.pairwise index other hindex hotherIndex hlt

/-- Of two ranges, the later one neither starts nor stops before the other. -/
theorem le_of_le (h : Tiles stop start ranges) {index other : Nat}
    {range otherRange : Nat × Nat} (hrange : ranges[index]? = some range)
    (hother : ranges[other]? = some otherRange) (hle : index ≤ other) :
    range.1 ≤ otherRange.1 ∧ range.2 ≤ otherRange.2 := by
  rcases Nat.eq_or_lt_of_le hle with rfl | hlt
  · rw [hrange] at hother
    cases hother
    exact ⟨Nat.le_refl _, Nat.le_refl _⟩
  · have hbefore := h.stop_le_start hrange hother hlt
    have hbounds := h.bounds (List.mem_of_getElem? hrange)
    have hotherBounds := h.bounds (List.mem_of_getElem? hother)
    omega

/-- No place lies in two of the ranges. -/
theorem index_eq (h : Tiles stop start ranges) {place index other : Nat}
    {range otherRange : Nat × Nat} (hrange : ranges[index]? = some range)
    (hother : ranges[other]? = some otherRange)
    (hplace : range.1 ≤ place ∧ place < range.2)
    (hotherPlace : otherRange.1 ≤ place ∧ place < otherRange.2) : index = other := by
  rcases Nat.lt_trichotomy index other with hlt | heq | hgt
  · have := h.stop_le_start hrange hother hlt
    omega
  · exact heq
  · have := h.stop_le_start hother hrange hgt
    omega

/-- Every place lies in the range of an item. -/
theorem exists_getElem? {α : Type} {items : Array α} {range : α → Nat × Nat}
    (h : Tiles stop start (items.toList.map range)) {place : Nat} (hstart : start ≤ place)
    (hstop : place < stop) :
    ∃ (index : Nat) (item : α), items[index]? = some item ∧ (range item).1 ≤ place
      ∧ place < (range item).2 := by
  obtain ⟨found, hfound, hplace⟩ := h.exists_mem hstart hstop
  obtain ⟨item, hitem, rfl⟩ := List.mem_map.mp hfound
  obtain ⟨index, hindex⟩ := List.getElem?_of_mem hitem
  exact ⟨index, item, Array.getElem?_toList ▸ hindex, hplace⟩

/-! ## Parts of a list -/

section

variable {α : Type} {parts : List (List α)}

/-- Ranges that are as long as the parts of a list are together as long as the list. -/
theorem stop_eq (h : Tiles stop start ranges)
    (hparts : List.Forall₂ (fun range part => range.2 = range.1 + part.length) ranges parts) :
    stop = start + parts.flatten.length := by
  induction hparts generalizing start with
  | nil => exact Eq.symm h
  | @cons range part later parts hpart _ ih =>
    obtain ⟨rfl, -, hlater⟩ := h
    rw [ih hlater, hpart, List.flatten_cons, List.length_append, Nat.add_assoc]

/-- What stands at a place of a list is found in the part of its range. -/
theorem getElem?_flatten (h : Tiles stop start ranges)
    (hparts : List.Forall₂ (fun range part => range.2 = range.1 + part.length) ranges parts)
    {index place : Nat} {range : Nat × Nat} {part : List α} (hrange : ranges[index]? = some range)
    (hpart : parts[index]? = some part) (hplace : range.1 ≤ place ∧ place < range.2) :
    parts.flatten[place - start]? = part[place - range.1]? := by
  induction hparts generalizing start index with
  | nil => cases hrange
  | @cons first firstPart later parts hfirst _ ih =>
    obtain ⟨rfl, -, hlater⟩ := h
    rw [List.flatten_cons]
    cases index with
    | zero =>
      cases hrange
      cases hpart
      rw [List.getElem?_append_left (by omega)]
    | succ index =>
      have hbehind := (hlater.bounds (List.mem_of_getElem? hrange)).1
      rw [List.getElem?_append_right (by omega), ← ih hlater hrange hpart, hfirst, Nat.sub_sub]

end

end Tiles

end Concordance
