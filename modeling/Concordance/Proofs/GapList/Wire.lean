import Concordance.Proofs.GapList.Checking
import Concordance.Proofs.GapList.Scanner

/-!
# The wire format of gap lists, read and written

A list is `WrittenAs` bytes that tell its length, its directory and its gaps, in any codes.
`decode` accepts exactly the bytes that start with a written list, and stops behind it
(`decode_sound`, `decode_complete`): whatever is accepted is laid out for some members, so that
reading cannot fail on it. What `encode` writes is one of the ways to write a list, and none is
shorter (`writtenAs_encode`, `WrittenAs.length_encode_le`).

- `decode_safe`: what is known of a list from untrusted bytes.
- `encode_round_trip`: a list made from members is written and read back, and no part of what was
  written is enough.
-/

namespace Concordance.GapList

/-- The layout of a list that can be written: 32 bits hold the number of its gap bytes. -/
structure Portable (list : GapList) (members : List UInt32) (code : Nat → List UInt8) : Prop
    extends LaidOut list members code where
  gaps_fit : list.gaps.size < UInt32.size

/-- Bytes that tell a list: its length, its directory and its gaps. -/
def WrittenAs (list : GapList) (bytes : List UInt8) : Prop :=
  ∃ lengthCode directoryCode, Varint.Tells lengthCode list.length
    ∧ TellsEntries list.directory directoryCode
    ∧ bytes = lengthCode ++ (directoryCode ++ list.gaps.toList)

variable {list : GapList} {members : List UInt32} {code : Nat → List UInt8} {bytes : List UInt8}

/-! ## Writing -/

/-- The written entries of a directory. -/
def encodeEntries (entries : List (UInt32 × UInt32)) : List UInt8 :=
  entries.flatMap fun entry =>
    Varint.encode entry.1.toUInt64 ++ Varint.encode entry.2.toUInt64

theorem encodeEntries_cons (entry : UInt32 × UInt32) (entries : List (UInt32 × UInt32)) :
    encodeEntries (entry :: entries) = Varint.encode entry.1.toUInt64
      ++ (Varint.encode entry.2.toUInt64 ++ encodeEntries entries) := by
  rw [encodeEntries, List.flatMap_cons, List.append_assoc]
  rfl

theorem tellsEntries_encode (entries : List (UInt32 × UInt32)) :
    TellsEntries entries (encodeEntries entries) := by
  induction entries with
  | nil => exact .nil
  | cons entry entries ih =>
    rw [encodeEntries_cons]
    exact .cons (Varint.tells_encode _) (Varint.tells_encode _) ih

/-- The entries of a directory take the fewest bytes as they are written. -/
theorem TellsEntries.length_encode_le {entries : List (UInt32 × UInt32)} {written : List UInt8}
    (h : TellsEntries entries written) : (encodeEntries entries).length ≤ written.length := by
  induction h with
  | nil => exact Nat.le_refl _
  | cons tells_head tells_size _ ih =>
    have hhead := tells_head.length_encode_le
    have hsize := tells_size.length_encode_le
    rw [encodeEntries_cons]
    simp only [List.length_append]
    omega

/-- Writing blocks into a buffer leaves what is there in front of their entries. -/
theorem foldl_encodeEntry (list : GapList) (blocks : List Nat) (buffer : Array UInt8) :
    (blocks.foldl (fun (buffer : Array UInt8) block =>
        (buffer ++ list.encodeEntry block : Array UInt8)) buffer).toList
      = buffer.toList ++ encodeEntries (blocks.map fun block =>
          (list.head block, list.blockBytes block)) := by
  induction blocks generalizing buffer with
  | nil => exact (List.append_nil _).symm
  | cons block blocks ih =>
    rw [List.foldl_cons, ih, Array.toList_appendList, List.map_cons, encodeEntries_cons,
      encodeEntry, List.append_assoc, List.append_assoc]

/-- What is written of a list. -/
theorem toList_encodeOnto (buffer : Array UInt8) (list : GapList) :
    (list.encodeOnto buffer).toList = buffer.toList
      ++ (Varint.encode list.length.toUInt64
        ++ (encodeEntries list.directory ++ list.gaps.toList)) := by
  rw [encodeOnto, Array.toList_append, foldl_encodeEntry, Array.toList_appendList]
  simp only [List.append_assoc]
  rfl

theorem encode_eq (list : GapList) :
    list.encode = Varint.encode list.length.toUInt64
      ++ (encodeEntries list.directory ++ list.gaps.toList) := by
  rw [encode, toList_encodeOnto, List.nil_append]

/-- Writing a list into a buffer appends its written form. -/
theorem encodeOnto_eq (buffer : Array UInt8) (list : GapList) :
    list.encodeOnto buffer = buffer ++ list.encode := by
  refine Array.toList_inj.mp ?_
  rw [toList_encodeOnto, Array.toList_appendList, encode_eq]

/-- What `encode` writes tells the list. -/
theorem writtenAs_encode (list : GapList) : list.WrittenAs list.encode :=
  ⟨_, _, Varint.tells_encode _, tellsEntries_encode _, encode_eq list⟩

/-- No way to write a list takes fewer bytes than that of `encode`. -/
theorem WrittenAs.length_encode_le (h : list.WrittenAs bytes) :
    list.encode.length ≤ bytes.length := by
  obtain ⟨lengthCode, directoryCode, htells, hentries, rfl⟩ := h
  have hcode := htells.length_encode_le
  have hdirectory := hentries.length_encode_le
  rw [encode_eq]
  simp only [List.length_append]
  omega

/-! ## Reading -/

/-- Whatever is accepted starts with a written list that can be read, and reading stops behind it. -/
theorem decode_sound {used : Nat} (h : decode bytes = .ok (list, used)) :
    ∃ members code written rest, list.Portable members code ∧ list.WrittenAs written
      ∧ bytes = written ++ rest ∧ used = written.length := by
  unfold decode at h
  obtain ⟨⟨length, lengthUsed⟩, hlength, h⟩ := bind_eq_ok.mp h
  obtain ⟨lengthCode, body, rfl, rfl, htells⟩ := Varint.exists_tells_of_decode32 hlength
  simp only [List.drop_left] at h
  obtain ⟨-, h⟩ := guard_eq_ok.mp h
  obtain ⟨directory, hdirectory, h⟩ := bind_eq_ok.mp h
  obtain ⟨hgaps, h⟩ := guard_eq_ok.mp h
  obtain ⟨last, hcheck, h⟩ := bind_eq_ok.mp h
  obtain ⟨directoryCode, rfl, hentries, hcount, htotal, hfit⟩ :=
    readDirectory_sound (by decide) hdirectory
  rw [Nat.zero_add] at htotal
  have hsize : (directory.rest.take directory.gapBytes).length = directory.gapBytes := by
    rw [List.length_take]
    omega
  have hroom : empty.gaps.size + (directory.rest.take directory.gapBytes).length < UInt32.size := by
    rw [hsize, show empty.gaps.size = 0 from rfl, Nat.zero_add]
    exact hfit
  have hfew : ([] : List UInt32).length + length.toNat < UInt32.size := by
    rw [List.length_nil, Nat.zero_add]
    exact length.toNat_lt_size
  obtain ⟨members, code, hlaid⟩ := (laidOut_empty fun _ => []).checkBlocks_sound hfew (fun _ => rfl)
    hcount (hsize.trans htotal) hroom hcheck
  rw [extend_empty] at hlaid
  cases h
  refine ⟨members, code, lengthCode ++ (directoryCode ++ directory.rest.take directory.gapBytes),
    directory.rest.drop directory.gapBytes, ⟨hlaid, ?_⟩, ⟨lengthCode, directoryCode, htells, ?_, ?_⟩,
    ?_, ?_⟩
  · rw [List.size_toArray, hsize]
    exact hfit
  · rw [directory_of_startsOf rfl rfl (by rw [List.size_toArray, hsize, htotal])]
    exact hentries
  · rfl
  · simp only [List.append_assoc, List.take_append_drop]
  · simp only [List.length_append, hsize]
    omega

/-- A written list is read, whatever follows it. -/
theorem decode_complete (h : list.Portable members code) (hwritten : list.WrittenAs bytes)
    (rest : List UInt8) : decode (bytes ++ rest) = .ok (list, bytes.length) := by
  obtain ⟨lengthCode, directoryCode, htells, hentries, rfl⟩ := hwritten
  have hblocks : blocksFor members.length = list.directory.length := by
    rw [length_directory, h.size_heads]
  have htotal := h.gapTotal_directory h.gaps_fit
  have hdirectory := readDirectory_complete hentries 0 (list.gaps.toList ++ rest)
    (by rw [htotal, Nat.zero_add]; exact h.gaps_fit)
  have hcheck := h.checkBlocks_complete h.gaps_fit 0 (Nat.zero_add _)
  have henough :
      ¬ (directoryCode ++ (list.gaps.toList ++ rest)).length < blocksFor members.length := by
    have hle := hentries.length_le
    rw [hblocks, List.length_append]
    omega
  have hgaps : ¬ (list.gaps.toList ++ rest).length < list.gaps.size := by
    rw [List.length_append, Array.length_toList]
    omega
  rw [Nat.zero_mul, Nat.sub_zero, List.take_zero, List.getLast?_nil, List.drop_zero, ← h.gaps]
    at hcheck
  rw [← hblocks, htotal, Nat.zero_add] at hdirectory
  rw [List.append_assoc, List.append_assoc]
  unfold decode
  refine bind_eq_ok.mpr ⟨_, htells _, ?_⟩
  simp only [List.drop_left, h.length]
  refine guard_eq_ok.mpr ⟨henough, bind_eq_ok.mpr ⟨_, hdirectory, guard_eq_ok.mpr ⟨hgaps, ?_⟩⟩⟩
  have htake : (list.gaps.toList ++ rest).take list.gaps.size = list.gaps.toList := by
    rw [← Array.length_toList, List.take_left]
  simp only [htake]
  refine bind_eq_ok.mpr ⟨members.getLast?, hcheck, congrArg Except.ok (Prod.ext ?_ ?_)⟩
  · show GapList.mk _ _ _ _ _ = list
    rw [map_fst_directory, h.startsOf_directory h.gaps_fit, Array.toArray_toList,
      Array.toArray_toList, Array.toArray_toList, ← h.last]
  · simp only [List.length_append, Array.length_toList]
    omega

/-- No part of a written list is enough: it would have been read as a whole. -/
theorem exists_decode_take_error (h : list.Portable members code) (hwritten : list.WrittenAs bytes)
    {cut : Nat} (hcut : cut < bytes.length) : ∃ failure, decode (bytes.take cut) = .error failure := by
  cases hdecode : decode (bytes.take cut) with
  | error failure => exact ⟨failure, rfl⟩
  | ok result =>
    obtain ⟨other, used⟩ := result
    obtain ⟨_, _, written, rest, hother, hothers, htake, -⟩ := decode_sound hdecode
    have hbytes : bytes = written ++ (rest ++ bytes.drop cut) := by
      rw [← List.append_assoc, ← htake, List.take_append_drop]
    have hwhole := decode_complete h hwritten []
    rw [List.append_nil, hbytes, decode_complete hother hothers, ← hbytes] at hwhole
    have hshort := congrArg List.length htake
    rw [List.length_take, List.length_append] at hshort
    injection hwhole with hwhole
    injection hwhole with _ hlength
    omega

/-! ## Main results -/

/-- The layout of a list that was made from members lets it be written. -/
theorem portable_of_ofMembers (h : ofMembers members = .ok list) :
    list.Portable members (shortest members) := by
  have hlaid := laidOut_of_ofMembers h
  refine ⟨hlaid, ?_⟩
  rw [hlaid.size_gaps]
  exact gapBytes_shortest_lt hlaid.ascending (Nat.le_refl _)

/-- Any bytes either are refused or start with a list that is safe to use: it reads as the ascending
members that its length and its last member announce, range queries and one more push are right, it
is read again from the same bytes whatever follows them, and its own encoding is not longer. While
bytes are scanned, no look-up misses, no difference falls below zero and no sum needs more than 64
bits, if there are fewer than 2^63 bytes, as there are wherever positions have 64 bits. -/
theorem decode_safe (bytes : List UInt8) :
    (bytes.length < 2 ^ 63 → scan bytes = (decode bytes).mapError .refused) ∧
    ((∃ failure, decode bytes = .error failure) ∨
    ∃ list used members, decode bytes = .ok (list, used)
      ∧ used ≤ bytes.length
      ∧ list.members = .ok members
      ∧ members.length = list.length.toNat
      ∧ members.Pairwise (· < ·)
      ∧ members.getLast? = list.last
      ∧ (∀ first final, list.meetsRange first final
          = .ok (decide (∃ member ∈ members, first ≤ member ∧ member ≤ final)))
      ∧ (∀ rest, decode (bytes.take used ++ rest) = .ok (list, used))
      ∧ list.encode.length ≤ used
      ∧ decode list.encode = .ok (list, list.encode.length)
      ∧ (list.length.toNat < 2 ^ 32 - 1 → ∀ value, (∀ last, list.last = some last → last < value) →
          ∃ grown, list.push value = .ok grown ∧ grown.members = .ok (members ++ [value]))) := by
  refine ⟨scan_eq, ?_⟩
  cases hdecode : decode bytes with
  | error failure => exact .inl ⟨failure, rfl⟩
  | ok result =>
    obtain ⟨list, used⟩ := result
    obtain ⟨members, code, written, rest, h, hwritten, rfl, rfl⟩ := decode_sound hdecode
    refine .inr ⟨list, written.length, members, rfl, ?_, h.members_eq, h.length.symm, h.ascending,
      h.last.symm, h.meetsRange_eq, fun other => ?_, hwritten.length_encode_le, ?_,
      fun hroom value hvalue => ?_⟩
    · rw [List.length_append]
      exact Nat.le_add_right _ _
    · rw [List.take_left]
      exact decode_complete h hwritten other
    · have hencode := decode_complete h (writtenAs_encode list) []
      rw [List.append_nil] at hencode
      exact hencode
    · have habove : ∀ member ∈ members, member < value := by
        refine (h.disorder?_eq_none_iff value).mp ?_
        unfold disorder?
        cases hlast : list.last with
        | none => rfl
        | some last => exact if_pos (hvalue last hlast)
      have hone : members.length + 1 < UInt32.size := by
        rw [← h.length]
        exact Nat.add_lt_of_lt_sub hroom
      have hgrown := h.append habove hone h.gaps_fit
      refine ⟨list.append value, ?_, hgrown.members_eq⟩
      rw [push, (h.refusal?_eq_none_iff value).mpr ⟨habove, hone⟩]

/-- A gap of one, told in two bytes. -/
theorem decode_safe_two_byte_gap :
    ∃ list grown, decode [2, 7, 2, 0x81, 0x00, 5] = .ok (list, 5)
      ∧ scan [2, 7, 2, 0x81, 0x00, 5] = .ok (list, 5) ∧ list.members = .ok [7, 8]
      ∧ list.encode.length ≤ 5 ∧ list.push 12 = .ok grown ∧ grown.members = .ok [7, 8, 12] := by
  have hdecode : decode [2, 7, 2, 0x81, 0x00, 5]
      = .ok (⟨2, #[7], #[0], #[0x81, 0x00], some 8⟩, 5) := by rfl
  obtain ⟨hscan, ⟨failure, hfailed⟩ | hsafe⟩ := decode_safe [2, 7, 2, 0x81, 0x00, 5]
  · rw [hdecode] at hfailed
    cases hfailed
  · obtain ⟨list, used, members, hsame, -, hmembers, -, -, -, -, -, hshort, -, hpush⟩ := hsafe
    rw [hdecode] at hsame
    cases hsame
    have hread : GapList.members ⟨2, #[7], #[0], #[0x81, 0x00], some 8⟩ = .ok [7, 8] := by rfl
    rw [hread] at hmembers
    cases hmembers
    obtain ⟨grown, hgrown, hbehind⟩ := hpush (by decide) 12 fun last hlast => by
      cases hlast
      decide
    have hscanned := hscan (by decide)
    rw [hdecode] at hscanned
    exact ⟨_, grown, hdecode, hscanned, hread, hshort, hgrown, hbehind⟩

/-- What is written of a list made from members is self-delimiting: it is appended to whatever is in
the buffer, it reads back as the list whatever follows it, and nothing shorter is accepted. -/
theorem encode_round_trip {members : List UInt32} (hascending : members.Pairwise (· < ·))
    (hlength : members.length < 2 ^ 32) :
    ∃ (list : GapList) (bytes : List UInt8), ofMembers members = .ok list
      ∧ (∀ buffer, list.encodeOnto buffer = buffer ++ bytes)
      ∧ (∀ suffix, decode (bytes ++ suffix) = .ok (list, bytes.length))
      ∧ ∀ cut < bytes.length, ∃ failure, decode (bytes.take cut) = .error failure := by
  obtain ⟨list, hlist⟩ := exists_ofMembers hascending hlength
  have h := portable_of_ofMembers hlist
  have hwritten := writtenAs_encode list
  exact ⟨list, list.encode, hlist, fun buffer => encodeOnto_eq buffer list,
    decode_complete h hwritten, fun _ => exists_decode_take_error h hwritten⟩

/-- Two gaps, of two and of three bytes. -/
theorem encode_round_trip_wide_gaps :
    ∃ (list : GapList) (bytes : List UInt8), ofMembers [1, 500, 100000] = .ok list
      ∧ (∀ buffer, list.encodeOnto buffer = buffer ++ bytes)
      ∧ (∀ suffix, decode (bytes ++ suffix) = .ok (list, bytes.length))
      ∧ ∀ cut < bytes.length, ∃ failure, decode (bytes.take cut) = .error failure :=
  encode_round_trip (by decide) (by decide)

end Concordance.GapList
