import Concordance.Json.Parser
import Concordance.Json.Printer

/-!
# Strings and numbers read back

What the printer writes for a text or a natural number, the reader reads as that
(`Json.Parser.stringText_escape`, `Json.Parser.scalar_ofNat`), whatever follows it. A number has to
be followed by something that cannot be a part of it.
-/

namespace Concordance.Json

open Printer

/-! ## Digits -/

theorem decimalDigits_of_lt {n : Nat} (h : n < 10) : decimalDigits n = [n] := by
  rw [decimalDigits, if_pos h]

theorem decimalDigits_of_ge {n : Nat} (h : ¬n < 10) :
    decimalDigits n = decimalDigits (n / 10) ++ [n % 10] := by
  rw [decimalDigits, if_neg h]

/-- Numbers are the values of their digits. -/
theorem valueOf_decimalDigits (n : Nat) : Number.valueOf (decimalDigits n) = n := by
  induction n using Nat.strongRecOn with
  | _ n ih =>
    by_cases hone : n < 10
    · rw [decimalDigits_of_lt hone]
      exact Nat.zero_add n
    · have hfirst := ih (n / 10) (by omega)
      unfold Number.valueOf at hfirst ⊢
      rw [decimalDigits_of_ge hone, List.foldl_append, hfirst]
      show 10 * (n / 10) + n % 10 = n
      omega

theorem lt_of_mem_decimalDigits {n digit : Nat} (h : digit ∈ decimalDigits n) : digit < 10 := by
  induction n using Nat.strongRecOn with
  | _ n ih =>
    by_cases hone : n < 10
    · rw [decimalDigits_of_lt hone, List.mem_singleton] at h
      rwa [h]
    · rw [decimalDigits_of_ge hone, List.mem_append, List.mem_singleton] at h
      rcases h with hfirst | hlast
      · exact ih (n / 10) (by omega) hfirst
      · omega

/-- Only zero starts with a zero. -/
theorem exists_decimalDigits {n : Nat} (h : n ≠ 0) :
    ∃ digit digits, decimalDigits n = digit :: digits ∧ digit ≠ 0 := by
  induction n using Nat.strongRecOn with
  | _ n ih =>
    by_cases hone : n < 10
    · exact ⟨n, [], decimalDigits_of_lt hone, h⟩
    · obtain ⟨digit, digits, heq, hne⟩ := ih (n / 10) (by omega) (by omega)
      refine ⟨digit, digits ++ [n % 10], ?_, hne⟩
      rw [decimalDigits_of_ge hone, heq, List.cons_append]

/-- A number that is written out has its value, if 64 bits can say it. -/
theorem natural?_ofNat {n : Nat} (h : n < UInt64.size) : (Number.ofNat n).natural? = some n := by
  unfold Number.natural? Number.ofNat
  simp [valueOf_decimalDigits, h]

namespace Parser

/-! ## Strings -/

theorem hexNumber?_hexDigit : ∀ n < 32,
    hexNumber? '0' '0' (hexDigit (n / 16)) (hexDigit (n % 16)) = some n := by
  decide

/-- A control character is a unit of its own. -/
theorem unitOfNumber_toNat {c : Char} (h : c.toNat < 0x20) : unitOfNumber c.toNat = .char c := by
  rw [unitOfNumber, if_neg (by omega), if_neg (by omega), Char.ofNat_toNat]

/-- Any other character but the quote and the backslash is one too. -/
theorem stringUnits_cons {c : Char} (hquote : c ≠ '"') (hslash : c ≠ '\\')
    (hplain : ¬c.toNat < 0x20) (rest : List Char) :
    stringUnits (c :: rest)
      = (stringUnits rest).map fun found => (.char c :: found.1, found.2) := by
  rw [stringUnits.eq_def]
  split
  case h_5 _ _ _ _ _ heq =>
    cases heq
    rw [if_neg (by simp [hplain, hslash])]
    cases stringUnits rest <;> rfl
  all_goals simp_all

/-- An escaped character is one unit. -/
theorem stringUnits_escape (c : Char) (rest : List Char) :
    stringUnits (escape c ++ rest)
      = (stringUnits rest).map fun found => (.char c :: found.1, found.2) := by
  unfold escape
  split
  case h_8 _ hquote hslash _ _ _ _ _ =>
    split
    case isTrue hcontrol =>
      have hnumber := hexNumber?_hexDigit c.toNat (by omega)
      have hunit := unitOfNumber_toNat hcontrol
      cases hrest : stringUnits rest <;> simp [stringUnits, hnumber, hunit, hrest]
    case isFalse hplain =>
      exact stringUnits_cons hquote hslash hplain rest
  all_goals
    cases hrest : stringUnits rest <;> simp [stringUnits, simpleEscape?, hrest]

/-- An escaped text is its characters, up to the closing quote. -/
theorem stringUnits_flatMap_escape (chars rest : List Char) :
    stringUnits (chars.flatMap escape ++ '"' :: rest) = some (chars.map .char, rest) := by
  induction chars with
  | nil => simp [stringUnits]
  | cons c chars ih =>
    rw [List.flatMap_cons, List.append_assoc, stringUnits_escape, ih]
    rfl

theorem textOfUnits?_map_char (chars : List Char) :
    textOfUnits? (chars.map .char) = some chars := by
  induction chars with
  | nil => rfl
  | cons c chars ih => rw [List.map_cons, textOfUnits?, ih, Option.map_some]

/-- What is written for a text reads back as the text. -/
theorem stringText_escape (text : String) (rest : List Char) :
    stringText (text.toList.flatMap escape ++ '"' :: rest) = some (some text, rest) := by
  unfold stringText
  simp [stringUnits_flatMap_escape, textOfUnits?_map_char]

/-! ## Numbers -/

/-- What stands behind a number: nothing that could be a part of it. -/
def EndsNumber (rest : List Char) : Prop :=
  ∀ c later, rest = c :: later → isDigit c = false ∧ c ≠ '.' ∧ c ≠ 'e' ∧ c ≠ 'E'

theorem isDigit_ofDigit : ∀ digit < 10, isDigit (Char.ofNat ('0'.toNat + digit)) = true := by
  decide

theorem toNat_ofDigit : ∀ digit < 10,
    (Char.ofNat ('0'.toNat + digit)).toNat - '0'.toNat = digit := by
  decide

/-- Written digits read back as the digits. -/
theorem digits_ofDigits {written : List Nat} (hlt : ∀ digit ∈ written, digit < 10)
    {rest : List Char} (hrest : EndsNumber rest) :
    digits (ofDigits written ++ rest) = (written, rest) := by
  have hstop : rest.takeWhile isDigit = [] ∧ rest.dropWhile isDigit = rest := by
    cases rest with
    | nil => exact ⟨rfl, rfl⟩
    | cons c later =>
      have hc := (hrest c later rfl).1
      simp [hc]
  have hall : ∀ c ∈ ofDigits written, isDigit c = true := by
    intro c hc
    obtain ⟨digit, hdigit, rfl⟩ := List.mem_map.mp hc
    exact isDigit_ofDigit digit (hlt digit hdigit)
  unfold digits
  rw [List.takeWhile_append_of_pos hall, List.dropWhile_append_of_pos hall, hstop.1, hstop.2,
    List.append_nil, ofDigits, List.map_map]
  congr 1
  refine (List.map_congr_left ?_).trans (List.map_id written)
  intro digit hdigit
  exact toNat_ofDigit digit (hlt digit hdigit)

/-- A zero stands for itself. -/
theorem wholePart_cons {c : Char} (hzero : c ≠ '0') (rest : List Char) :
    wholePart (c :: rest) = match digits (c :: rest) with
      | ([], _) => none
      | found => some found := by
  rw [wholePart.eq_def]
  split
  case h_1 _ heq =>
    cases heq
    exact absurd rfl hzero
  case h_2 => rfl

theorem wholePart_decimalDigits (n : Nat) {rest : List Char} (hrest : EndsNumber rest) :
    wholePart (ofDigits (decimalDigits n) ++ rest) = some (decimalDigits n, rest) := by
  have hlt : ∀ digit ∈ decimalDigits n, digit < 10 := by
    intro digit hdigit
    exact lt_of_mem_decimalDigits hdigit
  have hdigits := digits_ofDigits hlt hrest
  by_cases hzero : n = 0
  · rw [hzero, decimalDigits_of_lt (by decide)]
    rfl
  · obtain ⟨digit, later, heq, hne⟩ := exists_decimalDigits hzero
    have hchar : ∀ digit < 10, digit ≠ 0 → Char.ofNat ('0'.toNat + digit) ≠ '0' := by decide
    have hfirst := hchar digit (hlt digit (heq ▸ List.mem_cons_self)) hne
    rw [heq] at hdigits ⊢
    rw [ofDigits, List.map_cons, List.cons_append, ← ofDigits] at hdigits ⊢
    rw [wholePart_cons hfirst, hdigits]

theorem ofNumber_ofNat (n : Nat) : ofNumber (.ofNat n) = ofDigits (decimalDigits n) := by
  simp [ofNumber, Number.ofNat]

/-- A number that is written out starts with a digit. -/
theorem exists_ofNumber_ofNat (n : Nat) :
    ∃ c later, ofNumber (.ofNat n) = c :: later ∧ isDigit c = true := by
  rw [ofNumber_ofNat]
  cases hdigits : decimalDigits n with
  | nil =>
    have hvalue := valueOf_decimalDigits n
    rw [hdigits] at hvalue
    subst hvalue
    cases (decimalDigits_of_lt (show (0 : Nat) < 10 by decide)).symm.trans hdigits
  | cons digit digits =>
    refine ⟨_, _, rfl, isDigit_ofDigit digit ?_⟩
    exact lt_of_mem_decimalDigits (hdigits ▸ List.mem_cons_self)

/-- What is written for a natural number reads back as the number. -/
theorem unsignedNumber_ofNat (n : Nat) {rest : List Char} (hrest : EndsNumber rest) :
    unsignedNumber false (ofNumber (.ofNat n) ++ rest) = some (.ofNat n, rest) := by
  have hfraction : fractionPart rest = some ([], rest) := by
    rw [fractionPart.eq_def]
    split
    case h_1 later => exact absurd rfl (hrest '.' later rfl).2.1
    case h_2 => rfl
  have hexponent : exponentPart rest = some (none, rest) := by
    cases rest with
    | nil => rfl
    | cons c later =>
      obtain ⟨-, -, hlower, hupper⟩ := hrest c later rfl
      simp [exponentPart.eq_def, hlower, hupper]
  rw [ofNumber_ofNat]
  unfold unsignedNumber
  simp [wholePart_decimalDigits n hrest, hfraction, hexponent, Number.ofNat]

/-- As a value, a natural number is told from other scalars by its first digit. -/
theorem scalar_ofNat (n : Nat) {rest : List Char} (hrest : EndsNumber rest) :
    Parser.scalar (ofNumber (.ofNat n) ++ rest) = some (.nat n, rest) := by
  have hunsigned := unsignedNumber_ofNat n hrest
  obtain ⟨c, later, hwritten, hdigit⟩ := exists_ofNumber_ofNat n
  rw [hwritten, List.cons_append] at hunsigned ⊢
  have hsigned : signedNumber (c :: (later ++ rest)) = some (.ofNat n, rest) := by
    rw [signedNumber.eq_def]
    split
    case h_1 heq =>
      cases heq
      cases hdigit
    case h_2 => exact hunsigned
  rw [Parser.scalar.eq_def]
  split
  case h_4 => rw [hsigned]; rfl
  -- the other scalars start with a letter
  all_goals
    rename_i heq
    cases (List.cons.inj heq).1
    cases hdigit

end Parser

end Concordance.Json
