import Concordance.GapList.Basic
import Concordance.Proofs.Ascending
import Concordance.Proofs.Varint

/-!
# The layout of gap lists

`LaidOut list members code` says what every field of a gap list holds when it stands for `members`:
the heads are every `blockLength`-th member, the gap bytes are codes of the gaps of all other
members in order, and a block starts where the gap bytes before it end. Pushing writes the shortest
code of each gap, but the layout allows any: bytes from elsewhere may have longer ones.

- `LaidOut.pushHead`, `LaidOut.pushCode`: what one more member does to the layout.
- `LaidOut.append`: appending a greater member keeps the layout with shortest codes.
- `laidOut_of_ofMembers`, `exists_ofMembers`: a list is made of ascending members, fewer than there
  are 32-bit numbers, and then it is laid out for them.
- `ofMembers_eq_lengthOverflow`: no list is made of all 32-bit numbers.
- `gapBytes_le`: the shortest codes of the gaps up to a member take at most as many bytes as the
  member says, so that 32 bits hold every block start.
-/

namespace Concordance.GapList

/-! ## Gap bytes -/

/-- The gap bytes of `count` members from the index `first` on, where `code` gives those of the
member at an index. -/
def gapsFrom (code : Nat → List UInt8) (first count : Nat) : List UInt8 :=
  (List.range' first count).flatMap code

/-- The number of gap bytes of the first `count` members. -/
def gapBytes (code : Nat → List UInt8) (count : Nat) : Nat := (gapsFrom code 0 count).length

/-- The shortest gap bytes of the member at an index; a head has none. -/
def shortest (members : List UInt32) (index : Nat) : List UInt8 :=
  if index % blockLength = 0 then []
  else Varint.encode (members.getD index 0 - members.getD (index - 1) 0).toUInt64

section

variable {code other : Nat → List UInt8}

@[simp] theorem gapsFrom_zero (code : Nat → List UInt8) (first : Nat) :
    gapsFrom code first 0 = [] := rfl

/-- The gap bytes of a member come before those of the members behind it. -/
theorem gapsFrom_succ (code : Nat → List UInt8) (first count : Nat) :
    gapsFrom code first (count + 1) = code first ++ gapsFrom code (first + 1) count := by
  rw [gapsFrom, List.range'_succ, List.flatMap_cons]
  rfl

/-- The gap bytes of neighbouring runs of members join. -/
theorem gapsFrom_append (code : Nat → List UInt8) (first count more : Nat) :
    gapsFrom code first (count + more)
      = gapsFrom code first count ++ gapsFrom code (first + count) more := by
  rw [gapsFrom, ← List.range'_append_1, List.flatMap_append]
  rfl

/-- The gap bytes of the first members come before those of the others. -/
theorem gapsFrom_split (code : Nat → List UInt8) {first count : Nat} (h : first ≤ count) :
    gapsFrom code 0 count = gapsFrom code 0 first ++ gapsFrom code first (count - first) := by
  have hsplit := gapsFrom_append code 0 first (count - first)
  rw [Nat.add_sub_cancel' h, Nat.zero_add] at hsplit
  exact hsplit

theorem gapBytes_add (code : Nat → List UInt8) (count more : Nat) :
    gapBytes code (count + more) = gapBytes code count + (gapsFrom code count more).length := by
  rw [gapBytes, gapsFrom_append, List.length_append, Nat.zero_add]
  rfl

theorem gapBytes_succ (code : Nat → List UInt8) (count : Nat) :
    gapBytes code (count + 1) = gapBytes code count + (code count).length := by
  rw [gapBytes_add, gapsFrom_succ, gapsFrom_zero, List.append_nil]

/-- The gap bytes of members depend on no code but theirs. -/
theorem gapsFrom_congr {first count : Nat}
    (h : ∀ index, first ≤ index → index < first + count → code index = other index) :
    gapsFrom code first count = gapsFrom other first count := by
  refine List.flatMap_congr fun index hindex => ?_
  obtain ⟨hle, hlt⟩ := List.mem_range'_1.mp hindex
  exact h index hle hlt

theorem gapBytes_congr {count : Nat} (h : ∀ index < count, code index = other index) :
    gapBytes code count = gapBytes other count := by
  refine congrArg List.length (gapsFrom_congr fun index _ hlt => h index ?_)
  omega

end

/-- A member at the end changes no gap before it. -/
theorem shortest_concat {members : List UInt32} {index : Nat} (value : UInt32)
    (h : index < members.length) :
    shortest (members ++ [value]) index = shortest members index := by
  have hprev : index - 1 < members.length := by omega
  unfold shortest
  rw [List.getD_append _ _ _ _ h, List.getD_append _ _ _ _ hprev]

theorem getD_pred_length {members : List UInt32} {last : UInt32}
    (h : members.getLast? = some last) : members.getD (members.length - 1) 0 = last := by
  rw [List.getD_eq_getElem?_getD, ← List.getLast?_eq_getElem?, h]
  rfl

/-- Of two neighbouring members the second is greater, by the gap between them. -/
theorem toNat_gap {members : List UInt32} (hasc : members.Pairwise (· < ·)) (index : Nat)
    (h : index + 1 < members.length) :
    (members.getD index 0).toNat < (members.getD (index + 1) 0).toNat
      ∧ (members.getD (index + 1) 0 - members.getD index 0).toNat
        = (members.getD (index + 1) 0).toNat - (members.getD index 0).toNat := by
  have hlt := getD_lt_getD hasc (Nat.lt_succ_self index) h
  exact ⟨hlt, UInt32.toNat_sub_of_le _ _ (UInt32.le_of_lt hlt)⟩

/-- The shortest codes of the gaps up to a member take at most as many bytes as the member says: a
gap takes at most as many bytes as it says, and gaps add up to the member. -/
theorem gapBytes_le {members : List UInt32} (hasc : members.Pairwise (· < ·)) {index : Nat}
    (h : index < members.length) :
    gapBytes (shortest members) (index + 1) ≤ (members.getD index 0).toNat := by
  induction index with
  | zero =>
    rw [gapBytes_succ]
    simp [gapBytes, shortest, blockLength]
  | succ index ih =>
    -- the bound grows by the gap, and the varint of a gap takes at most as many bytes as it says
    have hprev := ih (by omega)
    obtain ⟨hlt, hgap⟩ := toNat_gap hasc index h
    rw [gapBytes_succ, shortest]
    split
    · simp only [List.length_nil]
      omega
    · have hlen := Varint.length_encode_le
        (members.getD (index + 1) 0 - members.getD index 0).toUInt64
        (by rw [UInt32.toNat_toUInt64, hgap]; omega)
      rw [UInt32.toNat_toUInt64, hgap] at hlen
      rw [Nat.add_sub_cancel]
      omega

/-- The shortest codes of any prefix of the members fit 32-bit offsets. -/
theorem gapBytes_shortest_lt {members : List UInt32} (hasc : members.Pairwise (· < ·)) {count : Nat}
    (hcount : count ≤ members.length) : gapBytes (shortest members) count < UInt32.size := by
  rcases count with _ | count
  · exact Nat.two_pow_pos 32
  · exact Nat.lt_of_le_of_lt (gapBytes_le hasc hcount) (UInt32.toNat_lt_size _)

/-! ## The layout -/

/-- There are as many blocks as have a first member. -/
theorem lt_blocksFor_iff {length block : Nat} :
    block < blocksFor length ↔ block * blockLength < length := by
  unfold blocksFor blockLength
  omega

/-- The first index of every block of `length` members. -/
def blockFirsts (length : Nat) : List Nat := (List.range (blocksFor length)).map (· * blockLength)

theorem length_blockFirsts (length : Nat) : (blockFirsts length).length = blocksFor length := by
  rw [blockFirsts, List.length_map, List.length_range]

/-- What the fields of a gap list hold that stands for `members`, where `code` gives the gap bytes
of the member at an index. -/
structure LaidOut (list : GapList) (members : List UInt32) (code : Nat → List UInt8) : Prop where
  ascending : members.Pairwise (· < ·)
  length : list.length.toNat = members.length
  heads : list.heads.toList = (blockFirsts members.length).map fun first => members.getD first 0
  blockStarts : list.blockStarts.toList
    = (blockFirsts members.length).map fun first => UInt32.ofNat (gapBytes code first)
  gaps : list.gaps.toList = gapsFrom code 0 members.length
  last : list.last = members.getLast?
  /-- A head has no gap bytes. -/
  code_head : ∀ index < members.length, index % blockLength = 0 → code index = []
  /-- The gap bytes of any other member tell its distance from the one before. -/
  code_gap : ∀ index < members.length, index % blockLength ≠ 0 →
    Varint.Tells (code index) (members.getD index 0 - members.getD (index - 1) 0)
  /-- 32 bits hold every block start. -/
  starts_fit : ∀ index < members.length, index % blockLength = 0 →
    gapBytes code index < UInt32.size

theorem laidOut_empty (code : Nat → List UInt8) : LaidOut empty [] code where
  ascending := List.Pairwise.nil
  length := rfl
  heads := rfl
  blockStarts := rfl
  gaps := rfl
  last := rfl
  code_head _ h := absurd h (Nat.not_lt_zero _)
  code_gap _ h := absurd h (Nat.not_lt_zero _)
  starts_fit _ h := absurd h (Nat.not_lt_zero _)

/-- A member that starts a block adds its index to the first indices of blocks. -/
theorem blockFirsts_head {length : Nat} (h : length % blockLength = 0) :
    blockFirsts (length + 1) = blockFirsts length ++ [length] := by
  unfold blockLength at h
  have hcount : blocksFor (length + 1) = blocksFor length + 1 := by
    unfold blocksFor blockLength
    omega
  have hfirst : blocksFor length * blockLength = length := by
    unfold blocksFor blockLength
    omega
  rw [blockFirsts, hcount, List.range_succ, List.map_append, List.map_singleton, hfirst]
  rfl

/-- Any other member adds none. -/
theorem blockFirsts_gap {length : Nat} (h : length % blockLength ≠ 0) :
    blockFirsts (length + 1) = blockFirsts length := by
  unfold blockLength at h
  have hcount : blocksFor (length + 1) = blocksFor length := by
    unfold blocksFor blockLength
    omega
  rw [blockFirsts, hcount]
  rfl

/-- The first index of a block is the index of a member, and no gap belongs to it. -/
theorem mem_blockFirsts {length first : Nat} (h : first ∈ blockFirsts length) :
    first < length ∧ first % blockLength = 0 := by
  obtain ⟨block, hblock, rfl⟩ := List.mem_map.mp h
  exact ⟨lt_blocksFor_iff.mp (List.mem_range.mp hblock), Nat.mul_mod_left _ _⟩

/-- Appends `count` members to the last block of a list, with `bytes` for their gaps. -/
def pushGaps (list : GapList) (count : Nat) (bytes : List UInt8) (last : UInt32) : GapList :=
  { list with
    length := list.length + UInt32.ofNat count, gaps := list.gaps ++ bytes, last := some last }

theorem pushGap_eq (list : GapList) (previous value : UInt32) :
    list.pushGap previous value
      = list.pushGaps 1 (Varint.encode (value - previous).toUInt64) value := rfl

namespace LaidOut

variable {list : GapList} {members : List UInt32} {code : Nat → List UInt8}

/-- 32 bits say the number of members. -/
theorem length_lt (h : LaidOut list members code) : members.length < UInt32.size := by
  rw [← h.length]
  exact list.length.toNat_lt_size

/-- Members that are counted too, as far as 32 bits can say the number. -/
theorem toNat_length_add (h : LaidOut list members code) {count : Nat}
    (hroom : members.length + count < UInt32.size) :
    (list.length + UInt32.ofNat count).toNat = members.length + count := by
  rw [UInt32.toNat_add, h.length, UInt32.toNat_ofNat_of_lt' (by omega)]
  exact Nat.mod_eq_of_lt hroom

/-- The number of gap bytes. -/
theorem size_gaps (h : LaidOut list members code) :
    list.gaps.size = gapBytes code members.length := by
  rw [← Array.length_toList, h.gaps]
  rfl

/-- Only the codes of the members matter. -/
theorem congr (h : LaidOut list members code) (other : Nat → List UInt8)
    (hother : ∀ index < members.length, other index = code index) :
    LaidOut list members other := by
  have hbytes (first : Nat) (hfirst : first < members.length) :
      gapBytes code first = gapBytes other first :=
    gapBytes_congr fun index hindex => (hother index (by omega)).symm
  refine { h with
    blockStarts := ?_, gaps := ?_, code_head := ?_, code_gap := ?_, starts_fit := ?_ }
  · rw [h.blockStarts]
    refine List.map_congr_left fun first hfirst => ?_
    rw [hbytes first (mem_blockFirsts hfirst).1]
  · rw [h.gaps]
    exact gapsFrom_congr fun index _ hlt => (hother index (by omega)).symm
  · intro index hindex hhead
    rw [hother index hindex]
    exact h.code_head index hindex hhead
  · intro index hindex hinside
    rw [hother index hindex]
    exact h.code_gap index hindex hinside
  · intro index hindex hhead
    rw [← hbytes index hindex]
    exact h.starts_fit index hindex hhead

/-- The heads for the members with one more behind them. -/
theorem heads_concat (h : LaidOut list members code) (value : UInt32) :
    (blockFirsts members.length).map (fun first => (members ++ [value]).getD first 0)
      = list.heads.toList := by
  rw [h.heads]
  refine List.map_congr_left fun first hfirst => ?_
  exact List.getD_append _ _ _ _ (mem_blockFirsts hfirst).1

/-- The gap bytes of the members with one more behind them. -/
theorem gaps_concat (h : LaidOut list members code) (value : UInt32) :
    gapsFrom code 0 (members ++ [value]).length = list.gaps.toList ++ code members.length := by
  rw [List.length_append, List.length_singleton, gapsFrom_append, h.gaps, Nat.zero_add,
    gapsFrom_succ, gapsFrom_zero, List.append_nil]

/-- A greater member behind ascending ones keeps them ascending. -/
theorem ascending_concat (h : LaidOut list members code) {value : UInt32}
    (hvalue : ∀ member ∈ members, member < value) : (members ++ [value]).Pairwise (· < ·) := by
  refine List.pairwise_append.mpr ⟨h.ascending, List.pairwise_singleton _ _, ?_⟩
  intro member hmember other hother
  rw [List.mem_singleton.mp hother]
  exact hvalue member hmember

/-- The codes tell the gaps of the members with one more behind them, if the new one's does. -/
theorem code_gap_concat (h : LaidOut list members code) (value : UInt32)
    (hvalue : members.length % blockLength ≠ 0 → Varint.Tells (code members.length)
      (value - members.getD (members.length - 1) 0)) :
    ∀ index < (members ++ [value]).length, index % blockLength ≠ 0 →
      Varint.Tells (code index)
        ((members ++ [value]).getD index 0 - (members ++ [value]).getD (index - 1) 0) := by
  intro index hindex hinside
  rw [List.length_append, List.length_singleton] at hindex
  have hpos : 0 < index := by
    rcases index with _ | index
    · exact absurd rfl hinside
    · exact Nat.succ_pos _
  rw [List.getD_append _ _ _ (index - 1) (by omega)]
  rcases Nat.lt_or_ge index members.length with hlt | hge
  · rw [List.getD_append _ _ _ _ hlt]
    exact h.code_gap index hlt hinside
  · have heq : index = members.length := by omega
    subst heq
    rw [List.getD_append_right _ _ _ _ (Nat.le_refl _), Nat.sub_self]
    exact hvalue hinside

/-- A member that starts a block becomes its head. -/
theorem pushHead (h : LaidOut list members code) {value : UInt32}
    (hvalue : ∀ member ∈ members, member < value) (hroom : members.length + 1 < UInt32.size)
    (hlen : members.length % blockLength = 0) (hcode : code members.length = [])
    (hfit : list.gaps.size < UInt32.size) :
    LaidOut (list.pushHead value) (members ++ [value]) code where
  ascending := h.ascending_concat hvalue
  length := by
    rw [List.length_append]
    exact h.toNat_length_add hroom
  heads := by
    rw [List.length_append, List.length_singleton, blockFirsts_head hlen, List.map_append,
      h.heads_concat, List.map_singleton, List.getD_append_right _ _ _ _ (Nat.le_refl _),
      Nat.sub_self]
    exact Array.toList_push
  blockStarts := by
    rw [List.length_append, List.length_singleton, blockFirsts_head hlen, List.map_append,
      ← h.blockStarts, List.map_singleton, ← h.size_gaps]
    exact Array.toList_push
  gaps := by
    rw [h.gaps_concat value, hcode, List.append_nil]
    rfl
  last := by
    rw [List.getLast?_concat]
    rfl
  code_head index hindex hhead := by
    rw [List.length_append, List.length_singleton] at hindex
    rcases Nat.lt_or_ge index members.length with hlt | hge
    · exact h.code_head index hlt hhead
    · rw [show index = members.length by omega, hcode]
  code_gap := h.code_gap_concat value fun hinside => absurd hlen hinside
  starts_fit index hindex hhead := by
    rw [List.length_append, List.length_singleton] at hindex
    rcases Nat.lt_or_ge index members.length with hlt | hge
    · exact h.starts_fit index hlt hhead
    · rw [show index = members.length by omega, ← h.size_gaps]
      exact hfit

/-- Any other member leaves the code of its gap. -/
theorem pushCode (h : LaidOut list members code) {previous value : UInt32}
    (hlast : members.getLast? = some previous) (hvalue : ∀ member ∈ members, member < value)
    (hroom : members.length + 1 < UInt32.size) (hlen : members.length % blockLength ≠ 0)
    (hcode : Varint.Tells (code members.length) (value - previous)) :
    LaidOut (list.pushGaps 1 (code members.length) value) (members ++ [value]) code := by
  -- the new member is no head, so what is known of heads stays
  have hold {index : Nat} (hindex : index < (members ++ [value]).length)
      (hhead : index % blockLength = 0) : index < members.length := by
    rw [List.length_append, List.length_singleton] at hindex
    rcases Nat.lt_or_ge index members.length with hlt | hge
    · exact hlt
    · rw [show index = members.length by omega] at hhead
      exact absurd hhead hlen
  exact {
    ascending := h.ascending_concat hvalue
    length := by
      rw [List.length_append]
      exact h.toNat_length_add hroom
    heads := by
      rw [List.length_append, List.length_singleton, blockFirsts_gap hlen, h.heads_concat]
      rfl
    blockStarts := by
      rw [List.length_append, List.length_singleton, blockFirsts_gap hlen, ← h.blockStarts]
      rfl
    gaps := by
      rw [h.gaps_concat value]
      exact Array.toList_appendList
    last := by
      rw [List.getLast?_concat]
      rfl
    code_head := fun index hindex hhead => h.code_head index (hold hindex hhead) hhead
    code_gap := h.code_gap_concat value fun _ => by rw [getD_pred_length hlast]; exact hcode
    starts_fit := fun index hindex hhead => h.starts_fit index (hold hindex hhead) hhead }

/-- A member is in order exactly if it is greater than all others. -/
theorem disorder?_eq_none_iff (h : LaidOut list members code) (value : UInt32) :
    list.disorder? value = none ↔ ∀ member ∈ members, member < value := by
  unfold disorder?
  rw [h.last]
  cases hlast : members.getLast? with
  | none =>
    rw [List.getLast?_eq_none_iff] at hlast
    subst hlast
    simp
  | some previous =>
    by_cases hlt : previous < value
    · simp only [hlt, if_true, true_iff]
      intro member hmember
      exact UInt32.lt_of_le_of_lt (le_last_of_mem h.ascending hlast hmember) hlt
    · simp only [hlt, if_false, reduceCtorEq, false_iff]
      intro hall
      exact hlt (hall previous (List.mem_of_getLast? hlast))

/-- A list has room exactly if 32 bits say the number of its members with one more. -/
theorem overflow?_eq_none_iff (h : LaidOut list members code) :
    list.overflow? = none ↔ members.length + 1 < UInt32.size := by
  have hfull : list.length = 0xFFFFFFFF ↔ members.length = 2 ^ 32 - 1 := by
    rw [← UInt32.toNat_inj, h.length]
    rfl
  have hlt : members.length < 2 ^ 32 := h.length_lt
  have hsize : UInt32.size = 2 ^ 32 := rfl
  unfold overflow?
  split
  case isTrue hlength =>
    rw [hfull] at hlength
    exact iff_of_false (Option.some_ne_none _) (by omega)
  case isFalse hlength =>
    rw [hfull] at hlength
    exact iff_of_true rfl (by omega)

/-- A member is taken exactly if it is greater than all others and there is room for it. -/
theorem refusal?_eq_none_iff (h : LaidOut list members code) (value : UInt32) :
    list.refusal? value = none
      ↔ (∀ member ∈ members, member < value) ∧ members.length + 1 < UInt32.size := by
  rw [refusal?, Option.or_eq_none_iff, h.disorder?_eq_none_iff, h.overflow?_eq_none_iff]

/-- A list without room refuses a member that is in order, for it cannot be counted. -/
theorem refusal?_of_full (h : LaidOut list members code) {value : UInt32}
    (hvalue : ∀ member ∈ members, member < value) (hfull : UInt32.size ≤ members.length + 1) :
    list.refusal? value = some .lengthOverflow := by
  rw [refusal?, (h.disorder?_eq_none_iff value).mpr hvalue, Option.none_or]
  cases hoverflow : list.overflow? with
  | none => exact absurd (h.overflow?_eq_none_iff.mp hoverflow) (Nat.not_lt.mpr hfull)
  | some violation =>
    unfold overflow? at hoverflow
    split at hoverflow
    case isTrue => exact hoverflow.symm
    case isFalse => cases hoverflow

/-- Appending a member that is greater than all others writes the shortest code of its gap behind
whatever codes there are, as long as the list has room and is not too long for a block start. -/
theorem append (h : LaidOut list members code) {value : UInt32}
    (hvalue : ∀ member ∈ members, member < value) (hroom : members.length + 1 < UInt32.size)
    (hfit : list.gaps.size < UInt32.size) :
    LaidOut (list.append value) (members ++ [value]) fun index =>
      if index < members.length then code index else shortest (members ++ [value]) index := by
  have hnew := h.congr (fun index =>
    if index < members.length then code index else shortest (members ++ [value]) index)
    fun index hindex => if_pos hindex
  have hcode : (if members.length < members.length then code members.length
      else shortest (members ++ [value]) members.length)
      = shortest (members ++ [value]) members.length := if_neg (Nat.lt_irrefl _)
  unfold GapList.append
  rw [h.last, h.length]
  cases hlast : members.getLast? with
  | none =>
    rw [List.getLast?_eq_none_iff] at hlast
    subst hlast
    exact hnew.pushHead hvalue hroom rfl rfl hfit
  | some previous =>
    show LaidOut (if members.length % blockLength = 0 then _ else _) _ _
    by_cases hlen : members.length % blockLength = 0
    · rw [if_pos hlen]
      refine hnew.pushHead hvalue hroom hlen ?_ hfit
      rw [hcode, shortest, if_pos hlen]
    · rw [if_neg hlen, pushGap_eq]
      have hgap : shortest (members ++ [value]) members.length
          = Varint.encode (value - previous).toUInt64 := by
        have hpos : 0 < members.length := by
          rcases members with _ | ⟨member, rest⟩
          · cases hlast
          · exact Nat.succ_pos _
        rw [shortest, if_neg hlen, List.getD_append_right _ _ _ _ (Nat.le_refl _), Nat.sub_self,
          List.getD_append _ _ _ _ (by omega), getD_pred_length hlast]
        rfl
      have hpush := hnew.pushCode hlast hvalue hroom hlen
        (by rw [hcode, hgap]; exact Varint.tells_encode _)
      rw [hcode, hgap] at hpush
      exact hpush

/-- Appending keeps all codes shortest. -/
theorem append_shortest (h : LaidOut list members (shortest members)) {value : UInt32}
    (hvalue : ∀ member ∈ members, member < value) (hroom : members.length + 1 < UInt32.size) :
    LaidOut (list.append value) (members ++ [value]) (shortest (members ++ [value])) := by
  have hfit : list.gaps.size < UInt32.size := by
    rw [h.size_gaps]
    exact gapBytes_shortest_lt h.ascending (Nat.le_refl _)
  refine (h.append hvalue hroom hfit).congr _ fun index _ => ?_
  split
  case isTrue hlt => exact shortest_concat value hlt
  case isFalse => rfl

/-- Pushing keeps the layout for the members that were taken, up to the end or to the first one
that is refused. -/
theorem pushAll (h : LaidOut list members (shortest members)) (values : List UInt32)
    {result : GapList} (hresult : list.pushAll values = (result, none)) :
    LaidOut result (members ++ values) (shortest (members ++ values)) := by
  -- the members that were taken grow with the list, and the layout is for just these
  induction values generalizing list members with
  | nil =>
    rw [GapList.pushAll, Prod.mk.injEq] at hresult
    rw [← hresult.1, List.append_nil]
    exact h
  | cons value values ih =>
    rw [GapList.pushAll] at hresult
    cases hrefusal : list.refusal? value with
    | none =>
      rw [hrefusal] at hresult
      obtain ⟨hvalue, hroom⟩ := (h.refusal?_eq_none_iff value).mp hrefusal
      rw [List.append_cons]
      exact ih (h.append_shortest hvalue hroom) hresult
    | some violation =>
      rw [hrefusal] at hresult
      cases hresult

/-- Ascending members behind smaller ones are all taken, if there is room for them. -/
theorem pushAll_of_ascending (h : LaidOut list members (shortest members)) (values : List UInt32)
    (hasc : (members ++ values).Pairwise (· < ·))
    (hroom : (members ++ values).length < UInt32.size) :
    ∃ result, list.pushAll values = (result, none) := by
  induction values generalizing list members with
  | nil => exact ⟨list, rfl⟩
  | cons value values ih =>
    have hvalue : ∀ member ∈ members, member < value := fun member hmember =>
      (List.pairwise_append.mp hasc).2.2 member hmember value List.mem_cons_self
    have hone : members.length + 1 < UInt32.size := by
      rw [List.length_append, List.length_cons] at hroom
      omega
    rw [List.append_cons] at hasc hroom
    rw [GapList.pushAll, (h.refusal?_eq_none_iff value).mpr ⟨hvalue, hone⟩]
    exact ih (h.append_shortest hvalue hone) hasc hroom

/-- Of ascending members that are too many, one finds no room. -/
theorem pushAll_of_full (h : LaidOut list members (shortest members)) (values : List UInt32)
    (hasc : (members ++ values).Pairwise (· < ·))
    (hfull : UInt32.size ≤ (members ++ values).length) :
    ∃ left, list.pushAll values = (left, some .lengthOverflow) := by
  induction values generalizing list members with
  | nil =>
    rw [List.append_nil] at hfull
    exact absurd h.length_lt (Nat.not_lt.mpr hfull)
  | cons value values ih =>
    have hvalue : ∀ member ∈ members, member < value := fun member hmember =>
      (List.pairwise_append.mp hasc).2.2 member hmember value List.mem_cons_self
    rw [List.append_cons] at hasc hfull
    rw [GapList.pushAll]
    by_cases hroom : members.length + 1 < UInt32.size
    · rw [(h.refusal?_eq_none_iff value).mpr ⟨hvalue, hroom⟩]
      exact ih (h.append_shortest hvalue hroom) hasc hfull
    · rw [h.refusal?_of_full hvalue (Nat.not_lt.mp hroom)]
      exact ⟨list, rfl⟩

end LaidOut

/-! ## Lists made from members -/

/-- A list that could be made is laid out for its members, in shortest codes. -/
theorem laidOut_of_ofMembers {members : List UInt32} {list : GapList}
    (h : ofMembers members = .ok list) : LaidOut list members (shortest members) := by
  unfold ofMembers at h
  split at h
  · next hpush =>
    cases h
    exact (laidOut_empty (shortest [])).pushAll members hpush
  · cases h

/-- Ascending members make a list, if 32 bits say how many they are. -/
theorem exists_ofMembers {members : List UInt32} (hasc : members.Pairwise (· < ·))
    (hlength : members.length < UInt32.size) : ∃ list, ofMembers members = .ok list := by
  obtain ⟨list, hpush⟩ :=
    (laidOut_empty (shortest [])).pushAll_of_ascending members hasc hlength
  refine ⟨list, ?_⟩
  rw [ofMembers, hpush]

/-- Ascending members that are as many as there are 32-bit numbers make none. -/
theorem ofMembers_eq_lengthOverflow {members : List UInt32} (hasc : members.Pairwise (· < ·))
    (hfull : UInt32.size ≤ members.length) : ofMembers members = .error .lengthOverflow := by
  obtain ⟨left, hpush⟩ := (laidOut_empty (shortest [])).pushAll_of_full members hasc hfull
  rw [ofMembers, hpush]

end Concordance.GapList
