import Concordance.Corpus.DraftIndex
import Concordance.Proofs.Corpus.Keys

/-!
# Lists at the places of codes

While a corpus is built, the values of a category have lists at the places of their codes. Every
value of a category has a place, and no two share one; so nothing that is added to the list of a
value is lost or gets to another value, and when the lists are given keys at the end, each is found
under the key of its value and under no other (`CodeLists.mem_keyed_iff`).

- `CodeLists.list?`: the list of the value of a key.
- `list?_foldl_add`: adding a token to several lists, whatever the lists stand in.
- `GrammarLists.list?_addAll`: what adding the records of a token does to the list of a key.
-/

namespace Concordance

/-! ## Lists of tokens -/

section

variable {token : UInt32} {list : Array UInt32}

theorem mem_appendToken {member : UInt32} :
    member ∈ (appendToken token list).toList ↔ member ∈ list.toList ∨ member = token := by
  unfold appendToken
  split
  case isTrue hback =>
    have hmem : token ∈ list.toList := Array.mem_toList_iff.mpr (Array.mem_of_back? hback)
    constructor
    · exact Or.inl
    · rintro (hmember | rfl)
      · exact hmember
      · exact hmem
  case isFalse => rw [Array.toList_push, List.mem_append, List.mem_singleton]

theorem back?_appendToken (token : UInt32) (list : Array UInt32) :
    (appendToken token list).back? = some token := by
  unfold appendToken
  split
  case isTrue hback => exact hback
  case isFalse => rw [Array.back?_push]

/-- Adding a token again changes nothing. -/
theorem appendToken_appendToken (token : UInt32) (list : Array UInt32) :
    appendToken token (appendToken token list) = appendToken token list := by
  rw [appendToken, if_pos (back?_appendToken token list)]

@[simp] theorem isEmpty_appendToken (token : UInt32) (list : Array UInt32) :
    (appendToken token list).isEmpty = false := by
  have hback := back?_appendToken token list
  cases hempty : (appendToken token list).isEmpty with
  | false => rfl
  | true =>
    rw [Array.isEmpty_iff.mp hempty] at hback
    cases hback

/-- What is found under a key after a token is added to the lists of some keys. -/
def listAfter {κ : Type} [DecidableEq κ] (token : UInt32) (keys : List κ) (key : κ)
    (list : Option (Array UInt32)) : Option (Array UInt32) :=
  if key ∈ keys then some (appendToken token (list.getD #[])) else list

theorem listAfter_of_mem {κ : Type} [DecidableEq κ] {token : UInt32} {keys : List κ} {key : κ}
    (h : key ∈ keys) (list : Option (Array UInt32)) :
    listAfter token keys key list = some (appendToken token (list.getD #[])) :=
  if_pos h

theorem listAfter_of_notMem {κ : Type} [DecidableEq κ] {token : UInt32} {keys : List κ} {key : κ}
    (h : key ∉ keys) (list : Option (Array UInt32)) : listAfter token keys key list = list :=
  if_neg h

theorem listAfter_congr {κ κ' : Type} [DecidableEq κ] [DecidableEq κ'] {keys : List κ}
    {keys' : List κ'} {key : κ} {key' : κ'} (h : key ∈ keys ↔ key' ∈ keys') (token : UInt32)
    (list : Option (Array UInt32)) :
    listAfter token keys key list = listAfter token keys' key' list := by
  simp only [listAfter, h]

/-- Each of several keys gets a token once, however often it is among them. -/
theorem list?_foldl_add {κ σ β : Type} [DecidableEq κ] {look : σ → κ → Option (Array UInt32)}
    {add : σ → β → σ} {keys : β → List κ} {token : UInt32}
    (hadd : ∀ lists value key,
      look (add lists value) key = listAfter token (keys value) key (look lists key))
    (lists : σ) (values : List β) (key : κ) :
    look (values.foldl add lists) key
      = listAfter token (values.flatMap keys) key (look lists key) := by
  -- a key that comes again finds the token at the end of its list
  induction values generalizing lists with
  | nil => rfl
  | cons value values ih =>
    rw [List.foldl_cons, ih, hadd, List.flatMap_cons]
    unfold listAfter
    by_cases hfirst : key ∈ keys value <;> by_cases hlater : key ∈ values.flatMap keys <;>
      simp only [hfirst, hlater, List.mem_append, or_true, or_false, if_true, if_false,
        Option.getD_some, appendToken_appendToken]

end

/-! ## The lists of a category -/

namespace CodeLists

variable {α : Type} [Category α]

/-- The list at the place of a code; without a place there are no tokens. -/
def atCode (codes : CodeLists α) (code : UInt32) : Array UInt32 :=
  codes.lists[code.toNat]?.getD #[]

/-- The list of the value of a key, if there are tokens in it. -/
def list? (codes : CodeLists α) (key : String) : Option (Array UInt32) :=
  (Category.ofKey? key : Option α).bind fun value =>
    let list := codes.atCode (Category.code value)
    if list.isEmpty then none else some list

theorem list?_eq_none {key : String} (codes : CodeLists α)
    (hkey : (Category.ofKey? key : Option α) = none) : codes.list? key = none := by
  rw [list?, hkey, Option.bind_none]

theorem list?_empty (key : String) : (empty : CodeLists α).list? key = none := by
  have hempty : ∀ code, (empty : CodeLists α).atCode code = #[] := by
    intro code
    unfold atCode empty
    rw [Vector.getElem?_replicate]
    split <;> rfl
  unfold list?
  cases (Category.ofKey? key : Option α) with
  | none => rfl
  | some value => simp only [Option.bind_some, hempty, Array.isEmpty_empty, if_true]

variable [LawfulCategory α]

theorem list?_key (codes : CodeLists α) (value : α) :
    codes.list? (Category.key value)
      = if (codes.atCode (Category.code value)).isEmpty then none
        else some (codes.atCode (Category.code value)) := by
  rw [list?, LawfulCategory.ofKey?_key, Option.bind_some]

theorem getD_list? (codes : CodeLists α) (value : α) :
    (codes.list? (Category.key value)).getD #[] = codes.atCode (Category.code value) := by
  rw [list?_key]
  split
  case isTrue hempty => rw [Option.getD_none, Array.isEmpty_iff.mp hempty]
  case isFalse => rw [Option.getD_some]

theorem list?_key_eq_some {codes : CodeLists α} {value : α} {list : Array UInt32} :
    codes.list? (Category.key value) = some list
      ↔ codes.lists[(Category.code value).toNat]? = some list ∧ list.isEmpty = false := by
  have hplace := Nat.lt_succ_of_le (Category.code_le_maxCode value)
  rw [list?_key, atCode, Vector.getElem?_eq_getElem hplace, Option.getD_some]
  constructor
  · intro h
    split at h
    case isTrue => cases h
    case isFalse hsome =>
      cases h
      exact ⟨rfl, Bool.not_eq_true _ ▸ hsome⟩
  · rintro ⟨hlist, hsome⟩
    cases hlist
    rw [hsome]
    rfl

/-- Adding a token to the list of a value changes that list and no other one. -/
theorem atCode_add (codes : CodeLists α) (value : α) (token code : UInt32) :
    (codes.add (Category.code value) token).atCode code
      = if Category.code value = code then appendToken token (codes.atCode code)
        else codes.atCode code := by
  have hplace := Nat.lt_succ_of_le (Category.code_le_maxCode value)
  unfold add atCode
  rw [dif_pos hplace, Vector.getElem?_set]
  by_cases hcode : Category.code value = code
  · subst hcode
    rw [if_pos rfl, if_pos rfl, Vector.getElem?_eq_getElem hplace]
    rfl
  · rw [if_neg hcode, if_neg (mt UInt32.toNat_inj.mp hcode)]

theorem list?_add (codes : CodeLists α) (value : α) (token : UInt32) (key : String) :
    (codes.add (Category.code value) token).list? key
      = listAfter token [Category.key value] key (codes.list? key) := by
  cases hvalue : (Category.ofKey? key : Option α) with
  | none =>
    have hne : key ≠ Category.key value := by
      rintro rfl
      rw [LawfulCategory.ofKey?_key] at hvalue
      cases hvalue
    rw [listAfter_of_notMem (mt List.mem_singleton.mp hne), list?_eq_none _ hvalue,
      list?_eq_none _ hvalue]
  | some other =>
    rw [← Category.key_of_ofKey? hvalue, list?_key, atCode_add]
    by_cases hother : other = value
    · subst hother
      rw [if_pos rfl, isEmpty_appendToken, listAfter_of_mem (List.mem_singleton_self _), getD_list?]
      rfl
    · have hkey : Category.key other ∉ [Category.key value] :=
        mt List.mem_singleton.mp (mt Category.key_injective hother)
      rw [if_neg (mt Category.code_injective (Ne.symm hother)), listAfter_of_notMem hkey, list?_key]

/-- Adding a token to the lists of several values adds it under their keys. -/
theorem list?_addValues (codes : CodeLists α) (values : List α) (token : UInt32) (key : String) :
    (codes.addValues values token).list? key
      = listAfter token (values.map Category.key) key (codes.list? key) := by
  rw [← List.flatMap_singleton' (values.map Category.key), List.flatMap_map]
  exact list?_foldl_add (fun lists value key => list?_add lists value token key) codes values key

/-- The lists that get keys are those of values, each under the key of its value. -/
theorem mem_keyed_iff (codes : CodeLists α) (key : String) (list : Array UInt32) :
    (key, list) ∈ codes.keyed ↔ codes.list? key = some list := by
  -- a code of the lists is said by 32 bits, so it is the code of the value that it stands for
  have hcode : ∀ code list, codes.lists[code]? = some list →
      (UInt32.ofNat code).toNat = code := by
    intro code list hlist
    have hlt := (Vector.getElem?_eq_some_iff.mp hlist).1
    have hmax := Category.maxCode_lt α
    exact UInt32.toNat_ofNat_of_lt' (by omega)
  unfold keyed
  simp only [List.mem_filterMap, List.mem_filter, Prod.exists, List.mk_mem_zipIdx_iff_getElem?,
    Option.map_eq_some_iff, Prod.mk.injEq, Vector.getElem?_toList, Bool.not_eq_true']
  constructor
  · rintro ⟨list, code, ⟨hlist, hsome⟩, value, hvalue, rfl, rfl⟩
    have hplace := hcode code list hlist
    rw [← Category.code_of_ofCode? hvalue] at hplace
    rw [list?_key_eq_some, hplace]
    exact ⟨hlist, hsome⟩
  · intro hlist
    cases hvalue : (Category.ofKey? key : Option α) with
    | none =>
      rw [list?_eq_none codes hvalue] at hlist
      cases hlist
    | some value =>
      cases Category.key_of_ofKey? hvalue
      rw [list?_key_eq_some] at hlist
      refine ⟨list, (Category.code value).toNat, hlist, value, ?_, rfl, rfl⟩
      rw [UInt32.ofNat_toNat]
      exact LawfulCategory.ofCode?_code value

end CodeLists

/-! ## The lists of all categories -/

namespace GrammarLists

/-- The list of a key of a category, if there are tokens in it. -/
def list? (grammar : GrammarLists) : IndexKey → Option (Array UInt32)
  | ⟨.case, value⟩ => grammar.case.list? value
  | ⟨.number, value⟩ => grammar.number.list? value
  | ⟨.gender, value⟩ => grammar.gender.list? value
  | ⟨.tense, value⟩ => grammar.tense.list? value
  | ⟨.person, value⟩ => grammar.person.list? value
  | ⟨.mood, value⟩ => grammar.mood.list? value
  | ⟨.voice, value⟩ => grammar.voice.list? value
  | ⟨.word, _⟩ | ⟨.headword, _⟩ | ⟨.breaks, _⟩ => none

theorem list?_empty (key : IndexKey) : empty.list? key = none := by
  obtain ⟨dimension, value⟩ := key
  cases dimension with
  | word | headword | breaks => rfl
  | case | number | gender | tense | person | mood | voice => exact CodeLists.list?_empty value

theorem list?_add (grammar : GrammarLists) (record : Record) (token : UInt32) (key : IndexKey) :
    (grammar.add record token).list? key
      = listAfter token record.indexKeys key (grammar.list? key) := by
  obtain ⟨dimension, value⟩ := key
  cases dimension with
  | word | headword | breaks =>
    rw [listAfter_of_notMem]
    · rfl
    · simp [Record.indexKeys, Features.indexKeys, IndexKey.not_mem_ofValues]
  | case | number | gender | tense | person | mood | voice =>
    refine (CodeLists.list?_addValues _ _ token value).trans (listAfter_congr ?_ token _)
    simp [Record.indexKeys, Features.indexKeys, IndexKey.not_mem_ofValues,
      IndexKey.mem_ofValues_iff]

/-- Adding the records of a token adds it under the keys of their values. -/
theorem list?_addAll (grammar : GrammarLists) (records : List Record) (token : UInt32)
    (key : IndexKey) :
    (grammar.addAll records token).list? key
      = listAfter token (records.flatMap Record.indexKeys) key (grammar.list? key) :=
  list?_foldl_add (fun grammar record key => list?_add grammar record token key) grammar records key

end GrammarLists

end Concordance
