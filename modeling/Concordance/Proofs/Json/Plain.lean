import Concordance.Proofs.Json.RoundTrip

/-!
# Plain values

Readers take no numbers that are infinite as floating-point numbers, and no values that are nested
too deeply. A value of texts and 64-bit natural numbers is taken, if it is not too deep
(`Json.SimpleWithin.isPlain`): all digits of such a number fit into the significand, which is far
from infinity (`Json.Number.isFinite_ofNat`).

- `Json.SimpleWithin`: values of texts and 64-bit natural numbers up to a depth.
-/

namespace Concordance.Json

/-! ## Numbers -/

namespace Number

theorem le_foldl (value : Nat) (digits : List Nat) :
    value ≤ digits.foldl (fun value digit => 10 * value + digit) value := by
  induction digits generalizing value with
  | nil => exact Nat.le_refl _
  | cons digit digits ih =>
    have hstep : value ≤ 10 * value + digit := by omega
    exact Nat.le_trans hstep (ih (10 * value + digit))

/-- If the significand can hold the value of all digits, it takes them all. -/
theorem takeDigits_eq {significand : Nat} {digits : List Nat}
    (h : digits.foldl (fun value digit => 10 * value + digit) significand < UInt64.size) :
    takeDigits significand digits
      = (digits.foldl (fun value digit => 10 * value + digit) significand, digits.length) := by
  induction digits generalizing significand with
  | nil => rfl
  | cons digit digits ih =>
    have hfits : 10 * significand + digit < UInt64.size := Nat.lt_of_le_of_lt (le_foldl _ digits) h
    rw [takeDigits, if_pos hfits, ih h]
    rfl

/-- Rounding up adds less than the unit of the last place that is kept. -/
theorem roundToDouble_le (n : Nat) : roundToDouble n ≤ n + 1 <<< (n.log2 - 52) := by
  have hkept : n / 1 <<< (n.log2 - 52) * 1 <<< (n.log2 - 52) ≤ n := Nat.div_mul_le_self _ _
  unfold roundToDouble
  dsimp only
  split
  · rw [Nat.add_mul, Nat.one_mul]
    exact Nat.add_le_add_right hkept _
  · exact Nat.le_add_right_of_le hkept

/-- Natural numbers of 64 bits are finite. -/
theorem isFinite_ofNat {n : Nat} (h : n < UInt64.size) : (ofNat n).isFinite = true := by
  have hvalue : (decimalDigits n).foldl (fun value digit => 10 * value + digit) 0 = n :=
    valueOf_decimalDigits n
  have htaken : takeDigits 0 (decimalDigits n) = (n, (decimalDigits n).length) := by
    rw [takeDigits_eq (hvalue.symm ▸ h), hvalue]
  have hlog : n.log2 - 52 ≤ 64 := by
    by_cases hzero : n = 0
    · rw [hzero]
      decide
    · have hlt : n.log2 < 64 := (Nat.log2_lt hzero).mpr h
      omega
  have hrounded : roundToDouble n < infinityThreshold := by
    calc roundToDouble n
        ≤ n + 1 <<< (n.log2 - 52) := roundToDouble_le n
      _ ≤ UInt64.size + 1 <<< 64 := by
        refine Nat.add_le_add (Nat.le_of_lt h) ?_
        rw [Nat.one_shiftLeft, Nat.one_shiftLeft]
        exact Nat.pow_le_pow_right (by decide) hlog
      _ < infinityThreshold := by decide +kernel
  have hone : roundToDouble 1 = 1 := by decide
  unfold isFinite ofNat
  simp only [htaken, takeDigits, Option.getD_none]
  split
  · rfl
  · rw [if_neg (by omega)]
    simpa [hone] using hrounded

end Number

/-! ## Values -/

/-- A value of texts and 64-bit natural numbers, nested at most `depth` deep. -/
inductive SimpleWithin : Nat → Json → Prop
  | nat {depth n : Nat} (h : n < UInt64.size) : SimpleWithin depth (.nat n)
  | text {depth : Nat} (value : String) : SimpleWithin depth (.text value)
  | array {depth : Nat} {items : List Json} (h : ∀ item ∈ items, SimpleWithin depth item) :
      SimpleWithin (depth + 1) (.array items)
  | record {depth : Nat} {entries : List (String × Json)}
      (h : ∀ entry ∈ entries, SimpleWithin depth entry.2) :
      SimpleWithin (depth + 1) (.record entries)

theorem itemsPlainWithin_eq_true {depth : Nat} {items : List Json}
    (h : ∀ item ∈ items, item.isPlainWithin depth = true) : itemsPlainWithin depth items = true := by
  induction items with
  | nil => rfl
  | cons item items ih =>
    obtain ⟨hitem, hitems⟩ := List.forall_mem_cons.mp h
    rw [itemsPlainWithin, hitem, ih hitems]
    rfl

theorem entriesPlainWithin_eq_true {depth : Nat} {entries : List (String × Json)}
    (h : ∀ entry ∈ entries, entry.2.isPlainWithin depth = true) :
    entriesPlainWithin depth (entries.map fun (key, value) => (some key, value)) = true := by
  induction entries with
  | nil => rfl
  | cons entry entries ih =>
    obtain ⟨hentry, hentries⟩ := List.forall_mem_cons.mp h
    rw [List.map_cons, entriesPlainWithin, hentry, ih hentries]
    rfl

namespace SimpleWithin

variable {depth : Nat} {value : Json}

/-- Nothing but texts and natural numbers is in such a value. -/
theorem simple (h : SimpleWithin depth value) : value.Simple := by
  induction h with
  | nat _ => exact .nat _
  | text value => exact .text value
  | array _ ih => exact .array ih
  | record _ ih => exact .record ih

/-- Such a value is plain where arrays and objects may be nested as deep. -/
theorem isPlainWithin (h : SimpleWithin depth value) : value.isPlainWithin depth = true := by
  induction h with
  | nat hn => exact Number.isFinite_ofNat hn
  | text _ => rfl
  | array _ ih => exact itemsPlainWithin_eq_true ih
  | record _ ih => exact entriesPlainWithin_eq_true ih

theorem isPlain (h : SimpleWithin maxDepth value) : value.isPlain = true := h.isPlainWithin

end SimpleWithin

end Concordance.Json
