import Std.Data.TreeMap.Lemmas
import Concordance.Corpus.Draft
import Concordance.Proofs.Corpus.CodeLists
import Concordance.Proofs.Posting.Holds

/-!
# The index of a draft

While a corpus is built, the index has a list of tokens for each key, wherever the list stands.
Tokens come in ascending order, and one of them may be added to the same list several times in a
row, so the lists ascend without repeats (`DraftIndex.Ascends`).

- `DraftIndex.list?`, `DraftIndex.tokensOf`: the list and the tokens of a key.
- `DraftIndex.mem_entries_iff`: the lists that are packed are those of the keys.
- `DraftIndex.list?_addWord`: what adding a token does to the list of a key.
- `Draft.packIndex_holds`: the packed index has the same tokens as the draft's.
-/

namespace Concordance

/-! ## Keys -/

namespace IndexKey

instance : Std.TransCmp IndexKey.compare :=
  inferInstanceAs (Std.TransCmp (compareLex (compareOn fun key : IndexKey => key.dimension.rank)
    (compareOn fun key : IndexKey => key.value)))

theorem rank_injective {first second : Dimension} (h : first.rank = second.rank) :
    first = second := by
  cases first <;> cases second <;> first | rfl | cases h

instance : Std.LawfulEqCmp IndexKey.compare where
  eq_of_compare {first second} h := by
    obtain ⟨hrank, hvalue⟩ := Ordering.then_eq_eq.mp h
    cases first
    cases second
    cases rank_injective (Std.LawfulEqOrd.eq_of_compare hrank)
    cases Std.LawfulEqOrd.eq_of_compare hvalue
    rfl

theorem compare_eq_iff {first second : IndexKey} : compare first second = .eq ↔ first = second :=
  Std.LawfulEqCmp.compare_eq_iff_eq

end IndexKey

/-! ## Lists of tokens -/

section

variable {token : UInt32} {list : Array UInt32}

/-- A token above the others goes to the end. -/
theorem push_ascending (hasc : list.toList.Pairwise (· < ·))
    (hlt : ∀ member ∈ list.toList, member < token) :
    (list.push token).toList.Pairwise (· < ·) := by
  rw [Array.toList_push]
  refine List.pairwise_append.mpr ⟨hasc, List.pairwise_singleton _ _, ?_⟩
  intro member hmember last hlast
  rw [List.mem_singleton.mp hlast]
  exact hlt member hmember

/-- A token that is not below the others goes to the end, unless it is there. -/
theorem appendToken_ascending (hasc : list.toList.Pairwise (· < ·))
    (hle : ∀ member ∈ list.toList, member ≤ token) :
    (appendToken token list).toList.Pairwise (· < ·) := by
  unfold appendToken
  split
  case isTrue => exact hasc
  case isFalse hback =>
    refine push_ascending hasc fun member hmember => ?_
    cases hfinal : list.toList.getLast? with
    | none =>
      rw [List.getLast?_eq_none_iff.mp hfinal] at hmember
      cases hmember
    | some final =>
      -- the list ends below the token, and its end is the greatest member
      have hne : final ≠ token := by
        rintro rfl
        rw [Array.getLast?_toList] at hfinal
        exact hback hfinal
      exact UInt32.lt_of_le_of_lt (le_last_of_mem hasc hfinal hmember)
        (UInt32.lt_of_le_of_ne (hle final (List.mem_of_getLast? hfinal)) hne)

/-- Adds the next token to the list of a key. Only the list of its search key is known not to end
with it. -/
def IndexKey.extend (key : IndexKey) (token : UInt32) (list : Array UInt32) : Array UInt32 :=
  if key.dimension = .word then list.push token else appendToken token list

theorem IndexKey.mem_extend {key : IndexKey} {member : UInt32} :
    member ∈ (key.extend token list).toList ↔ member ∈ list.toList ∨ member = token := by
  unfold extend
  split
  case isTrue => rw [Array.toList_push, List.mem_append, List.mem_singleton]
  case isFalse => exact mem_appendToken

theorem IndexKey.extend_ascending (key : IndexKey) (hasc : list.toList.Pairwise (· < ·))
    (hlt : ∀ member ∈ list.toList, member < token) :
    (key.extend token list).toList.Pairwise (· < ·) := by
  unfold extend
  split
  case isTrue => exact push_ascending hasc hlt
  case isFalse =>
    exact appendToken_ascending hasc fun member hmember => UInt32.le_of_lt (hlt member hmember)

end

/-! ## The lists of a draft -/

/-- Adding a token to the lists of several words does nothing else. -/
theorem WordLists.getElem?_addAll (lists : WordLists) (words : List String) (token : UInt32)
    (word : String) :
    (lists.addAll words token)[word]? = listAfter token words word lists[word]? := by
  have hadd : ∀ (lists : WordLists) (added key : String),
      (lists.alter added fun list => some (appendToken token (list.getD #[])))[key]?
        = listAfter token [added] key lists[key]? := by
    intro lists added key
    rw [Std.TreeMap.getElem?_alter, listAfter]
    simp only [List.mem_singleton, Std.LawfulEqCmp.compare_eq_iff_eq, @eq_comm _ added]
    split
    case isTrue heq => rw [heq]
    case isFalse => rfl
  refine (list?_foldl_add hadd lists words word).trans ?_
  rw [List.flatMap_singleton']

namespace DraftIndex

/-- The list of a key. Only the hard boundaries have one in any case. -/
def list? (index : DraftIndex) (key : IndexKey) : Option (Array UInt32) :=
  match key.dimension with
  | .word => index.words[key.value]?
  | .headword => index.headwords[key.value]?
  | .breaks => if key = .hardBreak then some index.hardBreaks else none
  | _ => index.grammar.list? key

/-- The tokens of a key; a key without a list has none. -/
def tokensOf (index : DraftIndex) (key : IndexKey) : List UInt32 :=
  ((index.list? key).getD #[]).toList

variable {index : DraftIndex} {key other : IndexKey} {token : UInt32} {word : String}
  {headwords : List String} {records : List Record}

theorem list?_hardBreak (index : DraftIndex) : index.list? .hardBreak = some index.hardBreaks := rfl

theorem list?_of_dimension {dimension : Dimension} {value : String} (hword : dimension ≠ .word)
    (hheadword : dimension ≠ .headword) (hbreaks : dimension ≠ .breaks) :
    index.list? ⟨dimension, value⟩ = index.grammar.list? ⟨dimension, value⟩ := by
  cases dimension <;> first | rfl | contradiction

theorem list?_empty (key : IndexKey) :
    empty.list? key = if key = .hardBreak then some #[] else none := by
  obtain ⟨dimension, value⟩ := key
  cases dimension with
  | word | headword => exact Std.TreeMap.getElem?_emptyc
  | breaks => rfl
  | case | number | gender | tense | person | mood | voice => exact CodeLists.list?_empty value

/-- Before the first token, no key has tokens. -/
@[simp] theorem tokensOf_empty (key : IndexKey) : empty.tokensOf key = [] := by
  rw [tokensOf, list?_empty]
  split <;> rfl

theorem mem_listsIn_iff {dimension : Dimension} {value : String} {list : Array UInt32} :
    (value, list) ∈ index.listsIn dimension ↔ index.list? ⟨dimension, value⟩ = some list := by
  cases dimension with
  | word | headword => exact Std.TreeMap.mem_toList_iff_getElem?_eq_some
  | breaks => simp [listsIn, list?, IndexKey.hardBreak, @eq_comm _ list]
  | case | number | gender | tense | person | mood | voice => exact CodeLists.mem_keyed_iff _ _ _

/-- The lists of all dimensions are those of the keys. -/
theorem mem_entries_iff {list : Array UInt32} :
    (key, list) ∈ index.entries ↔ index.list? key = some list := by
  unfold entries
  simp only [List.mem_flatMap, List.mem_map, Prod.exists, Prod.mk.injEq, mem_listsIn_iff]
  constructor
  · rintro ⟨dimension, _, value, _, hlist, rfl, rfl⟩
    exact hlist
  · intro hlist
    refine ⟨key.dimension, ?_, key.value, list, hlist, rfl, rfl⟩
    cases key.dimension <;> decide

/-- Of a category, a token gets to the lists of the values of its records. -/
theorem list?_addWord_value (index : DraftIndex) (word : String) (headwords : List String)
    (records : List Record) (token : UInt32) {dimension : Dimension} (value : String)
    (hword : dimension ≠ .word) (hheadword : dimension ≠ .headword) (hbreaks : dimension ≠ .breaks) :
    (index.addWord word headwords records token).list? ⟨dimension, value⟩
      = listAfter token (Draft.keysOf word headwords records) ⟨dimension, value⟩
        (index.list? ⟨dimension, value⟩) := by
  rw [list?_of_dimension hword hheadword hbreaks, list?_of_dimension hword hheadword hbreaks,
    listAfter_congr (Draft.value_mem_keysOf hword hheadword)]
  exact index.grammar.list?_addAll records token _

/-- Adding a token adds it to the lists of its keys and to no others. -/
theorem list?_addWord (index : DraftIndex) (word : String) (headwords : List String)
    (records : List Record) (token : UInt32) (key : IndexKey) :
    (index.addWord word headwords records token).list? key
      = if key ∈ Draft.keysOf word headwords records
        then some (key.extend token ((index.list? key).getD #[])) else index.list? key := by
  obtain ⟨dimension, value⟩ := key
  cases dimension with
  | word =>
    show (index.words.alter word _)[value]? = _
    simp only [Std.TreeMap.getElem?_alter, Std.LawfulEqCmp.compare_eq_iff_eq,
      Draft.word_mem_keysOf, @eq_comm _ value]
    split
    case isTrue heq => rw [heq]; rfl
    case isFalse => rfl
  | headword =>
    refine (index.headwords.getElem?_addAll headwords token value).trans ?_
    simp only [listAfter, Draft.headword_mem_keysOf]
    rfl
  | breaks =>
    rw [if_neg Draft.breaks_not_mem_keysOf]
    rfl
  | case | number | gender | tense | person | mood | voice =>
    exact list?_addWord_value index word headwords records token value (by decide) (by decide)
      (by decide)

/-- Adding a token before a hard boundary changes no other list. -/
theorem list?_addHardBreak (index : DraftIndex) (token : UInt32) (key : IndexKey) :
    (index.addHardBreak token).list? key
      = listAfter token [.hardBreak] key (index.list? key) := by
  by_cases hkey : key = .hardBreak
  · subst hkey
    rw [listAfter_of_mem (List.mem_singleton_self _)]
    rfl
  · rw [listAfter_of_notMem (mt List.mem_singleton.mp hkey)]
    unfold list?
    simp only [hkey, if_false]
    rfl

theorem mem_tokensOf_addWord {member : UInt32} :
    member ∈ (index.addWord word headwords records token).tokensOf key
      ↔ member ∈ index.tokensOf key
        ∨ (key ∈ Draft.keysOf word headwords records ∧ member = token) := by
  rw [tokensOf, list?_addWord]
  by_cases h : key ∈ Draft.keysOf word headwords records
  · rw [if_pos h, Option.getD_some, IndexKey.mem_extend, tokensOf]
    simp only [h, true_and]
  · rw [if_neg h, tokensOf]
    simp only [h, false_and, or_false]

theorem mem_tokensOf_addHardBreak {member : UInt32} :
    member ∈ (index.addHardBreak token).tokensOf key
      ↔ member ∈ index.tokensOf key ∨ (key = .hardBreak ∧ member = token) := by
  rw [tokensOf, list?_addHardBreak]
  by_cases h : key = .hardBreak
  · rw [listAfter_of_mem (List.mem_singleton.mpr h), Option.getD_some, mem_appendToken, tokensOf]
    simp only [h, true_and]
  · rw [listAfter_of_notMem (mt List.mem_singleton.mp h), tokensOf]
    simp only [h, false_and, or_false]

/-- A list ascends, stays below a number of tokens, and is not empty unless it is that of the hard
boundaries. -/
structure AscendingList (key : IndexKey) (count : Nat) (list : Array UInt32) : Prop where
  /-- The list ascends. -/
  ascending : list.toList.Pairwise (· < ·)
  /-- The list has only tokens. -/
  below : ∀ member ∈ list.toList, member.toNat < count
  /-- The list has some tokens. -/
  nonempty : key ≠ .hardBreak → list.toList ≠ []

/-- All lists of an index ascend. -/
def Ascends (index : DraftIndex) (count : Nat) : Prop :=
  ∀ (key : IndexKey) (list : Array UInt32), index.list? key = some list →
    AscendingList key count list

namespace Ascends

variable {count : Nat}

theorem empty : DraftIndex.empty.Ascends 0 := by
  intro key list hlist
  rw [list?_empty] at hlist
  split at hlist
  case isTrue hkey =>
    cases hlist
    exact ⟨List.Pairwise.nil, fun _ hmember => absurd hmember List.not_mem_nil,
      fun hne => absurd hkey hne⟩
  case isFalse => cases hlist

/-- The same of the lists that are looked up, where a missing one counts as empty. -/
theorem tokensOf (h : index.Ascends count) (key : IndexKey) :
    (index.tokensOf key).Pairwise (· < ·)
      ∧ ∀ member ∈ index.tokensOf key, member.toNat < count := by
  unfold DraftIndex.tokensOf
  cases hlist : index.list? key with
  | none => exact ⟨List.Pairwise.nil, fun _ hmember => absurd hmember List.not_mem_nil⟩
  | some list => exact ⟨(h key list hlist).ascending, (h key list hlist).below⟩

/-- Lists may grow by a token that does not break their order. -/
theorem grow (h : index.Ascends count) {grown : DraftIndex} {keys : List IndexKey}
    {extend : IndexKey → Array UInt32 → Array UInt32}
    (hcount : count ≤ token.toNat + 1)
    (hlists : ∀ key, grown.list? key
      = if key ∈ keys then some (extend key ((index.list? key).getD #[])) else index.list? key)
    (hmem : ∀ key list member, member ∈ (extend key list).toList
      ↔ member ∈ list.toList ∨ member = token)
    (hascending : ∀ key, (extend key ((index.list? key).getD #[])).toList.Pairwise (· < ·)) :
    grown.Ascends (token.toNat + 1) := by
  intro key list hlist
  rw [hlists] at hlist
  split at hlist
  case isTrue =>
    cases hlist
    refine ⟨hascending key, fun member hmember => ?_, fun _ => ?_⟩
    · rcases (hmem _ _ _).mp hmember with hold | rfl
      · exact Nat.lt_of_lt_of_le ((h.tokensOf key).2 member hold) hcount
      · exact Nat.lt_succ_self _
    · exact List.ne_nil_of_mem ((hmem _ _ _).mpr (Or.inr rfl))
  case isFalse =>
    obtain ⟨hasc, hlt, hne⟩ := h key list hlist
    exact ⟨hasc, fun member hmember => Nat.lt_of_lt_of_le (hlt member hmember) hcount, hne⟩

/-- The next token may be added under any keys. -/
theorem addWord (h : index.Ascends count) (hcount : count ≤ token.toNat) (word : String)
    (headwords : List String) (records : List Record) :
    (index.addWord word headwords records token).Ascends (token.toNat + 1) := by
  refine h.grow (by omega) (list?_addWord index word headwords records token)
    (fun key list member => IndexKey.mem_extend) fun key => ?_
  refine key.extend_ascending (h.tokensOf key).1 fun member hmember => ?_
  have := (h.tokensOf key).2 member hmember
  rw [UInt32.lt_iff_toNat_lt]
  omega

/-- The last token may be added to the hard boundaries, be it there or not. -/
theorem addHardBreak (h : index.Ascends count) (hcount : count ≤ token.toNat + 1) :
    (index.addHardBreak token).Ascends (token.toNat + 1) := by
  refine h.grow hcount (list?_addHardBreak index token)
    (fun key list member => mem_appendToken) fun key => ?_
  refine appendToken_ascending (h.tokensOf key).1 fun member hmember => ?_
  have := (h.tokensOf key).2 member hmember
  rw [UInt32.le_iff_toNat_le]
  omega

end Ascends

end DraftIndex

/-! ## The packed index -/

namespace Draft

variable {tokens ratio : UInt32}

/-- A packed list holds the tokens that it was made from. -/
theorem holds_of_pack {key : IndexKey} {list : Array UInt32} {posting : Posting}
    (hasc : list.toList.Pairwise (· < ·)) (h : pack tokens ratio key list = .ok posting) :
    posting.Holds list.toList := by
  unfold pack at h
  rw [mapError_eq_ok] at h
  split at h
  case isTrue => exact Posting.holds_of_ofMembersDense hasc h
  case isFalse => exact Posting.holds_of_pack hasc h

/-- Packing lists one after the other stores the packed list of each key, whatever list comes with
the key, and nothing under other keys. -/
theorem getElem?_foldlM_pack {entries : List (IndexKey × Array UInt32)} {key : IndexKey}
    {start packed : Std.TreeMap IndexKey Posting IndexKey.compare}
    (h : entries.foldlM
      (fun packed entry => return packed.insert entry.1 (← pack tokens ratio entry.1 entry.2))
      start = Except.ok packed) :
    (∃ list posting, (key, list) ∈ entries ∧ pack tokens ratio key list = .ok posting
        ∧ packed[key]? = some posting)
      ∨ ((∀ list, (key, list) ∉ entries) ∧ packed[key]? = start[key]?) := by
  -- the last list that comes with the key is the one that stays
  induction entries generalizing start with
  | nil =>
    cases h
    exact .inr ⟨fun _ => List.not_mem_nil, rfl⟩
  | cons entry entries ih =>
    obtain ⟨first, list⟩ := entry
    rw [List.foldlM_cons] at h
    obtain ⟨_, hstep, h⟩ := bind_eq_ok.mp h
    obtain ⟨posting, hpack, hinsert⟩ := bind_eq_ok.mp hstep
    cases hinsert
    rcases ih h with ⟨other, stored, hother, hstored⟩ | ⟨hnone, hkept⟩
    · exact .inl ⟨other, stored, List.mem_cons_of_mem _ hother, hstored⟩
    · by_cases hkey : first = key
      · subst hkey
        refine .inl ⟨list, posting, List.mem_cons_self, hpack, ?_⟩
        rw [hkept, Std.TreeMap.getElem?_insert_self]
      · refine .inr ⟨fun other hother => ?_, ?_⟩
        · rcases List.mem_cons.mp hother with heq | hother
          · exact hkey (congrArg Prod.fst heq).symm
          · exact hnone other hother
        · rw [hkept, Std.TreeMap.getElem?_insert, if_neg (mt IndexKey.compare_eq_iff.mp hkey)]

/-- The packed index has the packed list of each key with a list. -/
theorem getElem?_packIndex {index : DraftIndex}
    {packed : Std.TreeMap IndexKey Posting IndexKey.compare}
    (h : packIndex index tokens ratio = .ok packed) (key : IndexKey) :
    (∃ list posting, index.list? key = some list ∧ packed[key]? = some posting
        ∧ pack tokens ratio key list = .ok posting)
      ∨ (index.list? key = none ∧ packed[key]? = none) := by
  unfold packIndex at h
  rcases getElem?_foldlM_pack h with ⟨list, posting, hlist, hpack, hstored⟩ | ⟨hnone, hempty⟩
  · exact .inl ⟨list, posting, DraftIndex.mem_entries_iff.mp hlist, hstored, hpack⟩
  · refine .inr ⟨Option.eq_none_iff_forall_ne_some.mpr fun list hlist => ?_, ?_⟩
    · exact hnone list (DraftIndex.mem_entries_iff.mpr hlist)
    · rw [hempty, Std.TreeMap.getElem?_emptyc]

/-- A packed index has a list for each key with tokens, which holds them. Apart from the tokens
before hard boundaries there are no other lists. -/
theorem packIndex_holds {index : DraftIndex} {count : Nat}
    {packed : Std.TreeMap IndexKey Posting IndexKey.compare} (hindex : index.Ascends count)
    (h : packIndex index tokens ratio = .ok packed) (key : IndexKey) :
    (∃ posting, packed[key]? = some posting ∧ posting.Holds (index.tokensOf key)
        ∧ (key ≠ .hardBreak → index.tokensOf key ≠ []))
      ∨ (packed[key]? = none ∧ index.tokensOf key = []) := by
  unfold DraftIndex.tokensOf
  rcases getElem?_packIndex h key with ⟨list, posting, hlist, hposting, hpack⟩ | ⟨hlist, hnone⟩
  · have hascending := hindex key list hlist
    rw [hlist, Option.getD_some]
    exact .inl ⟨posting, hposting, holds_of_pack hascending.ascending hpack, hascending.nonempty⟩
  · rw [hlist, Option.getD_none]
    exact .inr ⟨hnone, rfl⟩

/-- Ascending tokens of a corpus are packed by any ratio. -/
theorem exists_pack {list : Array UInt32} (hasc : list.toList.Pairwise (· < ·))
    (hlt : ∀ member ∈ list.toList, member < tokens) (ratio : UInt32) (key : IndexKey) :
    ∃ posting, pack tokens ratio key list = .ok posting := by
  unfold pack
  simp only [mapError_eq_ok]
  split
  case isTrue => exact Posting.exists_ofMembersDense hlt
  case isFalse => exact Posting.exists_pack hasc hlt ratio

/-- An index whose lists ascend below the number of tokens is packed by any ratio. -/
theorem exists_packIndex {index : DraftIndex} {count : Nat} (hindex : index.Ascends count)
    (hcount : count < UInt32.size) (ratio : UInt32) :
    ∃ packed, packIndex index (UInt32.ofNat count) ratio = .ok packed := by
  unfold packIndex
  have hentries : ∀ entry ∈ index.entries,
      ∃ posting, pack (UInt32.ofNat count) ratio entry.1 entry.2 = .ok posting := by
    intro entry hentry
    have hascending := hindex entry.1 entry.2 (DraftIndex.mem_entries_iff.mp hentry)
    refine exists_pack hascending.ascending (fun member hmember => ?_) ratio entry.1
    rw [UInt32.lt_iff_toNat_lt, UInt32.toNat_ofNat_of_lt' hcount]
    exact hascending.below member hmember
  -- whatever has been packed before, the next list is packed
  generalize (∅ : Std.TreeMap IndexKey Posting IndexKey.compare) = start
  generalize index.entries = entries at hentries
  induction entries generalizing start with
  | nil => exact ⟨start, rfl⟩
  | cons entry entries ih =>
    obtain ⟨posting, hposting⟩ := hentries entry List.mem_cons_self
    obtain ⟨packed, hpacked⟩ := ih (start.insert entry.1 posting) fun other hother =>
      hentries other (List.mem_cons_of_mem _ hother)
    refine ⟨packed, ?_⟩
    rw [List.foldlM_cons]
    exact bind_eq_ok.mpr ⟨_, bind_eq_ok.mpr ⟨posting, hposting, rfl⟩, hpacked⟩

end Draft

end Concordance
