import Concordance.Mask.Smear
import Concordance.Proofs.Mask.Shifting

/-!
# Smeared masks

A position of a smeared mask is set when a member lies within the radius in the direction of the
smear (`test_smear`, `smear_fills_runs`).

The invariant of the doubling passes is `Runs unit covered start mask`: every member of `start` has
become a run of `covered` further positions, as far as the words go. A pass that shifts by at most
one more than is covered leaves no gap between the two halves of a run (`Runs.pass`).
-/

namespace Concordance

/-- The distances from a member at which a smear by `radius` sets positions. -/
def Direction.Reaches (radius : Nat) (distance : Int) : Direction → Prop
  | .left => -(radius : Int) ≤ distance ∧ distance ≤ 0
  | .right => 0 ≤ distance ∧ distance ≤ radius
  | .both => -(radius : Int) ≤ distance ∧ distance ≤ radius

instance (radius : Nat) (distance : Int) (direction : Direction) :
    Decidable (direction.Reaches radius distance) := by
  cases direction <;> exact inferInstanceAs (Decidable (_ ∧ _))

namespace Mask

/-! ## Growing runs -/

/-- Every member of `start` has become a run of `covered` more positions in the direction of `unit`,
cut at the ends of the words. -/
structure Runs (unit : Int) (covered : Nat) (start mask : Mask) : Prop where
  size : mask.size = start.size
  test_iff : ∀ position, mask.test position = true
    ↔ 0 ≤ position ∧ position < 32 * start.size ∧ ∃ member, start.test member = true
      ∧ 0 ≤ unit * (position - member) ∧ unit * (position - member) ≤ covered

/-- At first every run is its member. -/
theorem Runs.refl {unit : Int} (hunit : unit = 1 ∨ unit = -1) (mask : Mask) :
    Runs unit 0 mask mask where
  size := rfl
  test_iff position := by
    constructor
    · intro h
      refine ⟨(test_bounds h).1, (test_bounds h).2, position, h, ?_⟩
      rw [Int.sub_self, Int.mul_zero]
      exact ⟨Int.le_refl _, Int.le_refl _⟩
    · rintro ⟨_, _, member, hmember, h₁, h₂⟩
      have heq : position = member := by
        rcases hunit with rfl | rfl
        · omega
        · omega
      rw [heq]
      exact hmember

/-- A pass lengthens every run by its step, which is at most one more than the run covers. -/
theorem Runs.pass {unit : Int} (hunit : unit = 1 ∨ unit = -1) {covered step : Nat}
    {start mask : Mask} (h : Runs unit covered start mask) (hstep : step ≤ covered + 1) :
    Runs unit (covered + step) start (mask.addShifted (unit * step)) where
  size := by rw [size_addShifted, h.size]
  test_iff position := by
    rw [test_addShifted, h.test_iff, h.test_iff, h.size]
    constructor
    · rintro (⟨h₁, h₂, member, hmember, h₃, h₄⟩ | ⟨h₁, h₂, -, -, member, hmember, h₃, h₄⟩)
      · exact ⟨h₁, h₂, member, hmember, h₃, by omega⟩
      · refine ⟨h₁, h₂, member, hmember, ?_⟩
        rcases hunit with rfl | rfl
        · omega
        · omega
    · rintro ⟨h₁, h₂, member, hmember, h₃, h₄⟩
      by_cases hnear : unit * (position - member) ≤ covered
      · exact .inl ⟨h₁, h₂, member, hmember, h₃, hnear⟩
      · -- what is shifted here lies between the member and the position, and so inside the words
        have hbounds := test_bounds hmember
        refine .inr ⟨h₁, h₂, ?_⟩
        rcases hunit with rfl | rfl
        · exact ⟨by omega, by omega, member, hmember, by omega, by omega⟩
        · exact ⟨by omega, by omega, member, hmember, by omega, by omega⟩

/-- The passes together make runs of the radius. -/
theorem Runs.extendRuns {unit : Int} (hunit : unit = 1 ∨ unit = -1) {radius covered : Nat}
    {start mask : Mask} (h : Runs unit covered start mask) (hle : covered ≤ radius) :
    Runs unit radius start (mask.extendRuns unit radius covered) := by
  -- the induction follows the passes, and what is covered grows up to the radius
  induction covered, mask using Mask.extendRuns.induct unit radius with
  | case1 covered mask hlt step ih =>
    rw [Mask.extendRuns, if_pos hlt]
    have hstep : step ≤ covered + 1 := Nat.min_le_left _ _
    have hle' : covered + step ≤ radius := by
      have : step ≤ radius - covered := Nat.min_le_right _ _
      omega
    exact ih (h.pass hunit hstep) hle'
  | case2 covered mask hlt =>
    have heq : covered = radius := by omega
    rw [Mask.extendRuns, if_neg hlt, ← heq]
    exact h

/-- The runs of a mask in one direction. -/
theorem runs_extendRuns {unit : Int} (hunit : unit = 1 ∨ unit = -1) (radius : Nat) (mask : Mask) :
    Runs unit radius mask (mask.extendRuns unit radius 0) :=
  (Runs.refl hunit mask).extendRuns hunit (Nat.zero_le _)

/-! ## Smearing -/

/-- Clamping the radius to the width of the mask changes no distance between two positions inside
the words. -/
theorem reaches_min_iff (mask : Mask) (radius : UInt32) (direction : Direction) {distance : Int}
    (hlow : -(32 * mask.size : Int) < distance) (hhigh : distance < 32 * mask.size) :
    direction.Reaches (min radius.toNat mask.width) distance
      ↔ direction.Reaches radius.toNat distance := by
  have hlt := radius.toNat_lt
  have hclamp : ∀ bound : Int, bound < 32 * mask.size →
      (bound ≤ (min radius.toNat mask.width : Nat) ↔ bound ≤ (radius.toNat : Int)) := by
    intro bound hbound
    unfold width wordBits UInt32.size
    omega
  have hleft := hclamp (-distance) (by omega)
  have hright := hclamp distance hhigh
  cases direction with
  | left => simp only [Direction.Reaches]; omega
  | right => simp only [Direction.Reaches]; omega
  | both => simp only [Direction.Reaches]; omega

theorem size_smear (mask : Mask) (radius : UInt32) (direction : Direction) :
    (mask.smear radius direction).size = mask.size := by
  cases direction with
  | left => exact (runs_extendRuns (.inr rfl) _ mask).size
  | right => exact (runs_extendRuns (.inl rfl) _ mask).size
  | both =>
    show (truncate _ _).size = _
    rw [size_truncate, size_addShifted, (runs_extendRuns (.inl rfl) _ _).size, size_extend]
    omega

/-- Smeared both ways, a position is set when a member lies within the reach on either side: the
run to the right of a member, united with its shift to the left, covers both sides. -/
theorem test_smear_both (mask : Mask) (reach : Nat) (position : Int) :
    ((((mask.extend (mask.size + wordsFor reach)).extendRuns 1 reach 0).addShifted
        (-reach)).truncate mask.size).test position = true
      ↔ 0 ≤ position ∧ position < 32 * mask.size ∧ ∃ member, mask.test member = true
        ∧ -(reach : Int) ≤ position - member ∧ position - member ≤ reach := by
  have hruns := runs_extendRuns (.inl rfl) reach (mask.extend (mask.size + wordsFor reach))
  have hsize : 32 * mask.size + reach ≤ 32 * (mask.extend (mask.size + wordsFor reach)).size := by
    rw [size_extend]
    unfold wordsFor wordBits
    omega
  rw [test_truncate, test_addShifted, hruns.test_iff, hruns.test_iff, hruns.size]
  simp only [test_extend]
  constructor
  · rintro ⟨h, ⟨h₁, _, member, hmember, h₂, h₃⟩ | ⟨h₁, _, _, _, member, hmember, h₂, h₃⟩⟩
    · exact ⟨h₁, h, member, hmember, by omega, by omega⟩
    · exact ⟨h₁, h, member, hmember, by omega, by omega⟩
  · rintro ⟨h₁, h, member, hmember, h₂, h₃⟩
    have hbounds := test_bounds hmember
    refine ⟨h, ?_⟩
    by_cases hside : 0 ≤ position - member
    · exact .inl ⟨h₁, by omega, member, hmember, by omega, by omega⟩
    · exact .inr ⟨h₁, by omega, by omega, by omega, member, hmember, by omega, by omega⟩

/-- A smear sets the positions inside the words that it reaches within the clamped radius. -/
theorem test_smear_min (mask : Mask) (radius : UInt32) (direction : Direction) (position : Int) :
    (mask.smear radius direction).test position = true
      ↔ 0 ≤ position ∧ position < 32 * mask.size ∧ ∃ member, mask.test member = true
        ∧ direction.Reaches (min radius.toNat mask.width) (position - member) := by
  cases direction with
  | left =>
    rw [smear, (runs_extendRuns (.inr rfl) _ mask).test_iff]
    simp only [Direction.Reaches]
    refine and_congr_right fun _ => and_congr_right fun _ => exists_congr fun member =>
      and_congr_right fun _ => ?_
    omega
  | right =>
    rw [smear, (runs_extendRuns (.inl rfl) _ mask).test_iff]
    simp only [Direction.Reaches, Int.one_mul]
  | both =>
    show ((((mask.extend _).extendRuns 1 _ 0).addShifted _).truncate _).test position = true ↔ _
    rw [test_smear_both]
    rfl

/-- The positions of a smeared mask: those inside the words that the smear reaches from a member. -/
theorem test_smear (mask : Mask) (radius : UInt32) (direction : Direction) (position : Int) :
    (mask.smear radius direction).test position = true
      ↔ 0 ≤ position ∧ position < 32 * mask.size ∧ ∃ member, mask.test member = true
        ∧ direction.Reaches radius.toNat (position - member) := by
  rw [test_smear_min]
  refine and_congr_right fun _ => and_congr_right fun _ => exists_congr fun member =>
    and_congr_right fun hmember => ?_
  -- both positions lie inside the words, so that the clamp does not matter
  have hbounds := test_bounds hmember
  exact mask.reaches_min_iff radius direction (by omega) (by omega)

/-- A smear leaves the number of words as it is, and turns every member into its run: of the
positions inside the words, those are set that lie within the radius of a member in the direction
of the smear. -/
theorem smear_fills_runs (mask : Mask) (radius : UInt32) (direction : Direction) :
    (mask.smear radius direction).size = mask.size
      ∧ ∀ position : Int, (mask.smear radius direction).test position = true
        ↔ (0 ≤ position ∧ position < 32 * mask.size) ∧ ∃ member, mask.test member = true
          ∧ direction.Reaches radius.toNat (position - member) := by
  refine ⟨mask.size_smear radius direction, fun position => ?_⟩
  rw [mask.test_smear radius direction position, and_assoc]

/-- Runs are cut at the lower end and pass from one word into the next. -/
example : ((Mask.mk #[0x80000001, 0]).smear 2 .both).words = #[0xE0000007, 3] := by cbv

end Mask

end Concordance
