import Concordance.Proofs.Text.CanonicalOrder
import Concordance.Proofs.Text.Settled

/-!
# The search key of a search key

A search key is looked up as the search key of what it is looked up by. So a key finds itself if it
is its own search key. What is kept of a word has been decomposed and brought to lower case for
good (`Fold.settled_of_mem_keyOfCodes`), and the one thing that making a key of a key does is to
bring its marks into canonical order once more (`Fold.keyOfCodes_of_settled`).

That changes the key of a word in which a character of class 0 is left out between two marks that
are kept: in the word they stand in an order that nothing can change, in the key they do not.

- `Fold.keptCodes`: the decomposed word without the characters that are left out.
- `Fold.searchKey_of_searchKey`: which keys are their own keys, and that the key of a key is one.
-/

namespace Concordance.Fold

open Decomposition (Whole)
open LetterCase (mapByRuns lowerRuns)

variable {codes : List Nat}

/-- The decomposed word without the characters that keys leave out. -/
def keptCodes (codes : List Nat) : List Nat :=
  (decomposed codes).filter fun code => !isMark code

/-! ## The code points of keys -/

theorem mem_decomposed {code : Nat} :
    code ∈ decomposed codes ↔ ∃ source ∈ codes, code ∈ Decomposition.ofCode source := by
  rw [decomposed, (reorder_perm _).mem_iff, List.mem_flatMap]

theorem whole_of_mem_keptCodes {code : Nat} (h : code ∈ keptCodes codes) :
    Whole code ∧ isMark code = false := by
  obtain ⟨hdecomposed, hmark⟩ := List.mem_filter.mp h
  obtain ⟨source, -, hpart⟩ := mem_decomposed.mp hdecomposed
  exact ⟨Decomposition.whole_of_mem_ofCode hpart, Bool.not_eq_true' _ ▸ hmark⟩

/-- A key is the lower case of what is kept, one code point for each. -/
theorem keyOfCodes_eq (codes : List Nat) :
    keyOfCodes codes = (keptCodes codes).map (mapByRuns lowerRuns) := by
  rw [List.map_eq_flatMap]
  refine List.flatMap_congr fun code hcode => ?_
  obtain ⟨hwhole, hmark⟩ := whole_of_mem_keptCodes hcode
  exact (lowerCase_spec hwhole hmark).1

theorem settled_of_mem_keyOfCodes {code : Nat} (h : code ∈ keyOfCodes codes) : Settled code := by
  rw [keyOfCodes_eq] at h
  obtain ⟨kept, hkept, rfl⟩ := List.mem_map.mp h
  obtain ⟨hwhole, hmark⟩ := whole_of_mem_keptCodes hkept
  exact (lowerCase_spec hwhole hmark).2.1

/-- Lower case moves no mark, so that keys are in canonical order if what is kept is. -/
theorem inOrder_keyOfCodes_iff (codes : List Nat) :
    InOrder (keyOfCodes codes) ↔ InOrder (keptCodes codes) := by
  rw [keyOfCodes_eq]
  refine inOrder_map_iff fun code hcode => ?_
  obtain ⟨hwhole, hmark⟩ := whole_of_mem_keptCodes hcode
  exact (lowerCase_spec hwhole hmark).2.2.1

theorem isValidChar_of_mem_keyOfCodes (hcodes : ∀ code ∈ codes, code.isValidChar) {code : Nat}
    (h : code ∈ keyOfCodes codes) : code.isValidChar := by
  rw [keyOfCodes_eq] at h
  obtain ⟨kept, hkept, rfl⟩ := List.mem_map.mp h
  obtain ⟨hwhole, hmark⟩ := whole_of_mem_keptCodes hkept
  obtain ⟨source, hsource, hpart⟩ := mem_decomposed.mp (List.mem_filter.mp hkept).1
  exact (lowerCase_spec hwhole hmark).2.2.2
    (Decomposition.isValidChar_of_mem_ofCode (hcodes source hsource) hpart)

/-! ## Making a key of settled code points -/

/-- Of settled code points, making a key only brings the marks into canonical order. -/
theorem keyOfCodes_of_settled (h : ∀ code ∈ codes, Settled code) :
    keyOfCodes codes = reorder codes := by
  have hdecomposed : decomposed codes = reorder codes := by
    rw [decomposed, List.flatMap_congr fun code hcode => (h code hcode).whole,
      List.flatMap_singleton']
  have hsettled : ∀ code ∈ reorder codes, Settled code :=
    fun code hcode => h code ((reorder_perm codes).mem_iff.mp hcode)
  have hkept : keptCodes codes = reorder codes := by
    rw [keptCodes, hdecomposed]
    refine List.filter_eq_self.mpr fun code hcode => ?_
    rw [(hsettled code hcode).not_mark, Bool.not_false]
  calc keyOfCodes codes = (reorder codes).flatMap LetterCase.lower := by rw [← hkept]; rfl
    _ = (reorder codes).flatMap fun code => [code] :=
        List.flatMap_congr fun code hcode => (hsettled code hcode).lower_eq
    _ = reorder codes := List.flatMap_singleton' _

/-- The key of a key has the marks in canonical order. -/
theorem keyOfCodes_keyOfCodes (codes : List Nat) :
    keyOfCodes (keyOfCodes codes) = reorder (keyOfCodes codes) :=
  keyOfCodes_of_settled fun _ => settled_of_mem_keyOfCodes

/-! ## What is left out -/

/-- What is kept of a word is in canonical order if all marks of the word that are left out have
positive classes. Those that come out of decompositions have. -/
theorem inOrder_keptCodes
    (h : ∀ code ∈ codes, isMark code = true → CombiningClass.ofCode code ≠ 0) :
    InOrder (keptCodes codes) := by
  refine (reorder_inOrder _).filter _ fun code hcode hout => ?_
  have hmark : isMark code = true := by rwa [Bool.not_eq_false'] at hout
  obtain ⟨source, hsource, hpart⟩ := mem_decomposed.mp hcode
  by_cases heq : code = source
  · exact h code (heq ▸ hsource) hmark
  · exact class_ne_zero_of_mem_ofCode hpart heq hmark

/-! ## Texts -/

/-- The code points of a text. -/
def codesOf (text : String) : List Nat := text.toList.map Char.toNat

theorem codesOf_injective : Function.Injective codesOf := by
  intro text other h
  have hchars := List.map_injective_iff.mpr (fun a b => Char.toNat_inj.mp) h
  exact String.toList_inj.mp hchars

theorem isValidChar_of_mem_codesOf {text : String} {code : Nat} (h : code ∈ codesOf text) :
    code.isValidChar := by
  obtain ⟨c, -, rfl⟩ := List.mem_map.mp h
  exact c.valid

theorem codesOf_ofList (chars : List Char) :
    codesOf (String.ofList chars) = chars.map Char.toNat := by
  rw [codesOf, String.toList_ofList]

/-- The code points of a key are the key of the code points. -/
theorem codesOf_searchKey (word : String) :
    codesOf (searchKey word) = keyOfCodes (codesOf word) := by
  have hchar : ∀ code ∈ keyOfCodes (codesOf word), (Char.ofNat code).toNat = code := by
    intro code hcode
    have hvalid := isValidChar_of_mem_keyOfCodes (fun _ => isValidChar_of_mem_codesOf) hcode
    rw [Char.ofNat, dif_pos hvalid]
    rfl
  calc codesOf (searchKey word)
      = (keyOfCodes (codesOf word)).map fun code => (Char.ofNat code).toNat := by
        rw [searchKey, codesOf_ofList, List.map_map]
        rfl
    _ = keyOfCodes (codesOf word) := by rw [List.map_congr_left hchar, List.map_id']

/-- A text is the key of a word if its code points are. -/
theorem searchKey_eq {word key : String} (h : keyOfCodes (codesOf word) = codesOf key) :
    searchKey word = key :=
  codesOf_injective ((codesOf_searchKey word).trans h)

/-- The search key of a search key is the key with its marks in canonical order. It is the same key
exactly if what is kept of the word is in canonical order, which it is unless a character of class 0
is left out of it. The key of a key is its own key in any case. -/
theorem searchKey_of_searchKey (word : String) :
    codesOf (searchKey (searchKey word)) = reorder (codesOf (searchKey word))
      ∧ (searchKey (searchKey word) = searchKey word ↔ InOrder (keptCodes (codesOf word)))
      ∧ ((∀ code ∈ codesOf word, isMark code = true → CombiningClass.ofCode code ≠ 0) →
        searchKey (searchKey word) = searchKey word)
      ∧ searchKey (searchKey (searchKey word)) = searchKey (searchKey word) := by
  have hkey : ∀ word, codesOf (searchKey (searchKey word)) = reorder (codesOf (searchKey word)) :=
    fun word => by rw [codesOf_searchKey, codesOf_searchKey, keyOfCodes_keyOfCodes]
  have hsame : ∀ word, searchKey (searchKey word) = searchKey word
      ↔ InOrder (codesOf (searchKey word)) := fun word => by
    rw [← codesOf_injective.eq_iff, hkey, reorder_eq_self_iff]
  have hkept : searchKey (searchKey word) = searchKey word
      ↔ InOrder (keptCodes (codesOf word)) := by
    rw [hsame, codesOf_searchKey, inOrder_keyOfCodes_iff]
  refine ⟨hkey word, hkept, fun hmarks => hkept.mpr (inOrder_keptCodes hmarks), ?_⟩
  rw [hsame, hkey]
  exact reorder_inOrder _

/-- A diaeresis is left out, and its class is positive. -/
theorem searchKey_of_searchKey_diaeresis :
    searchKey (searchKey "Poe\u0308ta") = searchKey "Poe\u0308ta" := by
  have hcodes : codesOf "Poe\u0308ta" = [0x50, 0x6F, 0x65, 0x0308, 0x74, 0x61] := codesOf_ofList _
  refine (searchKey_of_searchKey "Poe\u0308ta").2.2.1 ?_
  rw [hcodes]
  decide +kernel

/-- U+034F has class 0 and is left out. It stands between two Hebrew points, of which the second has
the lower class. -/
theorem searchKey_of_searchKey_points :
    searchKey "\u05b1\u034f\u05b0" = "\u05b1\u05b0" ∧ searchKey "\u05b1\u05b0" = "\u05b0\u05b1"
      ∧ ¬ ∀ word, searchKey (searchKey word) = searchKey word := by
  have hjoined : codesOf "\u05b1\u034f\u05b0" = [0x05B1, 0x034F, 0x05B0] := codesOf_ofList _
  have hfalling : codesOf "\u05b1\u05b0" = [0x05B1, 0x05B0] := codesOf_ofList _
  have hrising : codesOf "\u05b0\u05b1" = [0x05B0, 0x05B1] := codesOf_ofList _
  have hword : searchKey "\u05b1\u034f\u05b0" = "\u05b1\u05b0" :=
    searchKey_eq (by rw [hjoined, hfalling]; decide +kernel)
  have hkey : searchKey "\u05b1\u05b0" = "\u05b0\u05b1" :=
    searchKey_eq (by rw [hfalling, hrising]; decide +kernel)
  refine ⟨hword, hkey, fun h => ?_⟩
  have hsame := h "\u05b1\u034f\u05b0"
  rw [hword, hkey] at hsame
  have hcodes := congrArg codesOf hsame
  rw [hrising, hfalling] at hcodes
  exact absurd hcodes (by decide)

end Concordance.Fold
