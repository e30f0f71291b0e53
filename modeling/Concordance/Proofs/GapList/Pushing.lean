import Concordance.GapList.InPlace
import Concordance.Proofs.GapList.Reading

/-!
# Pushes that fail

A push in place compares before it changes anything: on a laid out list that has room it appends the
member, or it fails and leaves every field as it was (`LaidOut.run_pushInPlace`). What any attempts to
push lead to is therefore laid out for the values that were taken, those greater than all taken before
them (`laidOut_afterPushes`). Since the layout fixes every field, it is the list that these values alone
make (`ofMembers_taken`): no refused value has left a trace.

- `LaidOut.run_pushInPlace_of_full`: a list that has no room fails only when it counts the member.
- `LaidOut.run_forM_pushInPlace`: a loop of pushes in place is `pushAll`.
- `push_keeps_or_rejects`: what single pushes and loops of them do after any attempts.
-/

namespace Concordance.GapList

/-! ## One push -/

theorem run_expectAfter (list : GapList) (previous value : UInt32) :
    (expectAfter previous value).run list = if previous < value then .ok () list
      else .error (.notAscending value previous) list := by
  unfold expectAfter
  split <;> rfl

/-- A head is compared with the last member, if there is one, before any field changes. -/
theorem run_writeHead (list : GapList) (value : UInt32) :
    (writeHead value).run list = match list.disorder? value with
      | none => .ok () { list with
          heads := list.heads.push value
          blockStarts := list.blockStarts.push (UInt32.ofNat list.gaps.size) }
      | some violation => .error violation list := by
  unfold disorder?
  rw [writeHead, EStateM.run_bind, expectAfterLast, EStateM.run_bind, EStateM.run_get]
  cases hlast : list.last with
  | none => simp only [hlast, EStateM.run_pure, EStateM.run_bind, EStateM.run_modify]
  | some previous =>
    simp only [hlast, run_expectAfter]
    by_cases hlt : previous < value
    · simp only [hlt, if_true, EStateM.run_bind, EStateM.run_modify]
      rw [hlast]
    · simp only [hlt, if_false]

/-- A member that has a gap is compared with the one before it before any field changes. -/
theorem run_writeGap {list : GapList} {previous : UInt32} (hlast : list.last = some previous)
    (value : UInt32) : (writeGap value).run list = match list.disorder? value with
      | none => .ok () { list with
          gaps := list.gaps ++ Varint.encode (value - previous).toUInt64 }
      | some violation => .error violation list := by
  unfold disorder?
  rw [writeGap, EStateM.run_bind, EStateM.run_get]
  simp only [hlast, Option.getD_some, EStateM.run_bind, run_expectAfter]
  by_cases hlt : previous < value
  · simp only [hlt, if_true, EStateM.run_modify]
    rw [hlast]
  · simp only [hlt, if_false]

/-- A member is not counted when 32 bits cannot say the number. -/
theorem run_countMember (list : GapList) : countMember.run list = match list.overflow? with
    | none => .ok () { list with length := list.length + 1 }
    | some violation => .error violation list := by
  unfold overflow?
  rw [countMember, EStateM.run_bind, EStateM.run_get]
  by_cases hfull : list.length = 0xFFFFFFFF
  · simp only [hfull, if_true]
    rfl
  · simp only [hfull, if_false]
    rfl

theorem append_of_head {list : GapList} (hlen : list.length.toNat % blockLength = 0)
    (value : UInt32) : list.append value = list.pushHead value := by
  unfold append
  split
  · rfl
  · exact if_pos hlen

theorem append_of_gap {list : GapList} {previous : UInt32} (hlast : list.last = some previous)
    (hlen : list.length.toNat % blockLength ≠ 0) (value : UInt32) :
    list.append value = list.pushGap previous value := by
  unfold append
  rw [hlast]
  exact if_neg hlen

/-- A member is written as it is appended, without being counted. -/
theorem run_writeMember {list : GapList}
    (hlast : list.last = none → list.length.toNat % blockLength = 0) (value : UInt32) :
    (writeMember value).run list = match list.disorder? value with
      | none => .ok () { list.append value with length := list.length, last := list.last }
      | some violation => .error violation list := by
  rw [writeMember, EStateM.run_bind, EStateM.run_get]
  by_cases hlen : list.length.toNat % blockLength = 0
  · simp only [hlen, if_true, run_writeHead, append_of_head hlen]
    rfl
  · obtain ⟨previous, hprevious⟩ := Option.ne_none_iff_exists'.mp (mt hlast hlen)
    simp only [hlen, if_false, run_writeGap hprevious, append_of_gap hprevious hlen]
    rfl

/-- A push in place compares a member before it changes anything, and counts it after all else: what
is out of order changes nothing, and what does not fit is written all the same. A list without a last
member has to be at the start of a block: the gap would be taken from zero otherwise. -/
theorem run_pushInPlace {list : GapList}
    (hlast : list.last = none → list.length.toNat % blockLength = 0) (value : UInt32) :
    (pushInPlace value).run list = match list.disorder? value with
      | some violation => .error violation list
      | none => match list.overflow? with
        | none => .ok () (list.append value)
        | some violation => .error violation { list.append value with length := list.length } := by
  have hlast' : (list.append value).last = some value := by
    unfold append
    split
    · rfl
    · split
      · rfl
      · rfl
  have hcount : (list.append value).length = list.length + 1 := by
    unfold append
    split
    · rfl
    · split
      · rfl
      · rfl
  rw [pushInPlace, EStateM.run_bind, run_writeMember hlast]
  cases list.disorder? value with
  | some violation => rfl
  | none =>
    show (countMember.run { list.append value with
      length := list.length, last := some value }) = _
    rw [run_countMember, ← hlast', ← hcount]
    rfl

/-- The list that an attempt to push a member leaves, whether the member was taken or refused. -/
def afterPush (list : GapList) (value : UInt32) : GapList :=
  match (pushInPlace value).run list with
  | .ok _ grown => grown
  | .error _ left => left

/-- The members after an attempt to push one: it is taken if it is greater than all. -/
def takeMember (members : List UInt32) (value : UInt32) : List UInt32 :=
  if members.all (· < value) then members ++ [value] else members

/-- A list that takes a member: one without members, or one whose last member is smaller. -/
def Admits (list : GapList) (value : UInt32) : Prop :=
  list.isEmpty = true ∨ ∃ last, list.last = some last ∧ last < value

namespace LaidOut

variable {list other : GapList} {members : List UInt32} {code : Nat → List UInt8}

/-- The layout fixes every field. -/
theorem unique (h : LaidOut list members code) (hother : LaidOut other members code) :
    list = other := by
  have hlength := UInt32.toNat_inj.mp (h.length.trans hother.length.symm)
  have hheads := Array.toList_inj.mp (h.heads.trans hother.heads.symm)
  have hstarts := Array.toList_inj.mp (h.blockStarts.trans hother.blockStarts.symm)
  have hgaps := Array.toList_inj.mp (h.gaps.trans hother.gaps.symm)
  have hlast := h.last.trans hother.last.symm
  cases list
  cases other
  simp only [mk.injEq]
  exact ⟨hlength, hheads, hstarts, hgaps, hlast⟩

/-- A list that has room refuses just what is out of order. -/
theorem refusal?_of_room (h : LaidOut list members code) (hroom : members.length + 1 < UInt32.size)
    (value : UInt32) : list.refusal? value = list.disorder? value := by
  rw [refusal?, h.overflow?_eq_none_iff.mpr hroom, Option.or_none]

/-- A push in place compares, writes and counts. -/
theorem run_pushInPlace_eq (h : LaidOut list members code) (value : UInt32) :
    (pushInPlace value).run list = match list.disorder? value with
      | some violation => .error violation list
      | none => match list.overflow? with
        | none => .ok () (list.append value)
        | some violation => .error violation { list.append value with length := list.length } := by
  refine GapList.run_pushInPlace (fun hnone => ?_) value
  rw [h.last, List.getLast?_eq_none_iff] at hnone
  rw [h.length, hnone]
  rfl

/-- On a list that has room, a push in place appends a member or refuses it as a push does, and what
it refuses changes nothing. -/
theorem run_pushInPlace (h : LaidOut list members code) (hroom : members.length + 1 < UInt32.size)
    (value : UInt32) :
    (pushInPlace value).run list = match list.refusal? value with
      | none => .ok () (list.append value)
      | some violation => .error violation list := by
  rw [h.run_pushInPlace_eq, h.refusal?_of_room hroom, h.overflow?_eq_none_iff.mpr hroom]
  cases list.disorder? value with
  | none => rfl
  | some violation => rfl

/-- A list admits exactly what is in order. -/
theorem admits_iff (h : LaidOut list members code) (value : UInt32) :
    list.Admits value ↔ list.disorder? value = none := by
  have hempty : (list.length == 0) = true ↔ members = [] := by
    rw [beq_iff_eq, ← UInt32.toNat_inj, h.length]
    exact List.length_eq_zero_iff
  unfold Admits disorder? isEmpty
  rw [hempty, h.last]
  cases hlast : members.getLast? with
  | none =>
    rw [List.getLast?_eq_none_iff] at hlast
    simp [hlast]
  | some previous =>
    have hne : members ≠ [] := by
      rintro rfl
      cases hlast
    simp [hne]

/-- Appending what a push does not refuse keeps all codes shortest. -/
theorem append_taken (h : LaidOut list members (shortest members)) {value : UInt32}
    (hrefusal : list.refusal? value = none) :
    LaidOut (list.append value) (members ++ [value]) (shortest (members ++ [value])) :=
  have htaken := (h.refusal?_eq_none_iff value).mp hrefusal
  h.append_shortest htaken.1 htaken.2

/-- What an attempt to push leaves is laid out for the members after it, if they are not too many. -/
theorem afterPush (h : LaidOut list members (shortest members)) (value : UInt32)
    (hfit : (takeMember members value).length < UInt32.size) :
    LaidOut (list.afterPush value) (takeMember members value)
      (shortest (takeMember members value)) := by
  have hiff : list.disorder? value = none ↔ members.all (· < value) = true := by
    rw [h.disorder?_eq_none_iff]
    simp
  unfold GapList.afterPush takeMember
  unfold takeMember at hfit
  rw [h.run_pushInPlace_eq]
  cases hdisorder : list.disorder? value with
  | none =>
    have habove := hiff.mp hdisorder
    rw [if_pos habove, List.length_append] at hfit
    rw [if_pos habove, h.overflow?_eq_none_iff.mpr hfit]
    exact h.append_shortest ((h.disorder?_eq_none_iff value).mp hdisorder) hfit
  | some violation =>
    have hnot : ¬ members.all (· < value) = true := by
      rw [← hiff, hdisorder]
      exact Option.some_ne_none _
    rw [if_neg hnot]
    exact h

/-- A loop of pushes in place for which there is room takes and refuses what `pushAll` does and ends
with the same list. -/
theorem run_forM_pushInPlace (h : LaidOut list members (shortest members)) (values : List UInt32)
    (hroom : members.length + values.length < UInt32.size) :
    (values.forM pushInPlace).run list = match list.pushAll values with
      | (all, none) => .ok () all
      | (left, some violation) => .error violation left := by
  induction values generalizing list members with
  | nil => rfl
  | cons value values ih =>
    rw [List.length_cons] at hroom
    rw [List.forM, EStateM.run_bind, h.run_pushInPlace (by omega), GapList.pushAll]
    cases hrefusal : list.refusal? value with
    | none =>
      refine ih (h.append_taken hrefusal) ?_
      rw [List.length_append, List.length_singleton]
      omega
    | some violation => rfl

/-- Pushes for which there is room and that stop at a refused value have taken just those before it,
and this value is out of order. -/
theorem pushAll_stopped (h : LaidOut list members (shortest members)) {values : List UInt32}
    (hroom : members.length + values.length < UInt32.size) {left : GapList}
    {violation : ContractViolation} (hstop : list.pushAll values = (left, some violation)) :
    ∃ before bad later, values = before ++ bad :: later ∧ left.disorder? bad = some violation
      ∧ left = before.foldl GapList.afterPush list
      ∧ LaidOut left (members ++ before) (shortest (members ++ before)) := by
  induction values generalizing list members with
  | nil => cases hstop
  | cons value values ih =>
    rw [List.length_cons] at hroom
    rw [GapList.pushAll] at hstop
    cases hrefusal : list.refusal? value with
    | none =>
      rw [hrefusal] at hstop
      have hnext : list.afterPush value = list.append value := by
        rw [GapList.afterPush, h.run_pushInPlace (by omega), hrefusal]
      have hmore : (members ++ [value]).length + values.length < UInt32.size := by
        rw [List.length_append, List.length_singleton]
        omega
      obtain ⟨before, bad, later, rfl, hbad, hleft, hlaid⟩ :=
        ih (h.append_taken hrefusal) hmore hstop
      refine ⟨value :: before, bad, later, rfl, hbad, ?_, ?_⟩
      · rw [List.foldl_cons, hnext]
        exact hleft
      · rw [List.append_cons]
        exact hlaid
    | some refused =>
      rw [hrefusal] at hstop
      cases hstop
      rw [h.refusal?_of_room (by omega)] at hrefusal
      refine ⟨[], value, values, rfl, hrefusal, rfl, ?_⟩
      rw [List.append_nil]
      exact h

/-- On a list that has room, a push in place succeeds exactly if the list admits the member. -/
theorem exists_run_ok_iff (h : LaidOut list members code)
    (hroom : members.length + 1 < UInt32.size) (value : UInt32) :
    (∃ grown, (pushInPlace value).run list = .ok () grown) ↔ list.Admits value := by
  rw [h.admits_iff, ← h.refusal?_of_room hroom, h.run_pushInPlace hroom]
  cases list.refusal? value with
  | none => exact iff_of_true ⟨_, rfl⟩ rfl
  | some violation =>
    refine iff_of_false ?_ (Option.some_ne_none _)
    rintro ⟨grown, hgrown⟩
    cases hgrown

/-- What a push in place leaves when it succeeds is laid out for one member more. -/
theorem of_run_ok (h : LaidOut list members (shortest members))
    (hroom : members.length + 1 < UInt32.size) {value : UInt32} {grown : GapList}
    (hrun : (pushInPlace value).run list = .ok () grown) :
    LaidOut grown (members ++ [value]) (shortest (members ++ [value])) := by
  rw [h.run_pushInPlace hroom] at hrun
  split at hrun
  next hrefusal =>
    cases hrun
    exact h.append_taken hrefusal
  next => cases hrun

/-- A push in place that fails on a list that has room leaves the list as it was. -/
theorem of_run_error (h : LaidOut list members code) (hroom : members.length + 1 < UInt32.size)
    {value : UInt32} {left : GapList} {violation : ContractViolation}
    (hrun : (pushInPlace value).run list = .error violation left) : left = list := by
  rw [h.run_pushInPlace hroom] at hrun
  split at hrun
  next => cases hrun
  next =>
    cases hrun
    rfl

/-- A push in place of a member that is in order onto a list without room writes it, but does not
count it. -/
theorem run_pushInPlace_of_full (h : LaidOut list members code) {value : UInt32}
    (hvalue : ∀ member ∈ members, member < value) (hfull : UInt32.size ≤ members.length + 1) :
    (pushInPlace value).run list
      = .error .lengthOverflow { list.append value with length := list.length } := by
  have hinorder := (h.disorder?_eq_none_iff value).mpr hvalue
  have hrefusal := h.refusal?_of_full hvalue hfull
  rw [refusal?, hinorder, Option.none_or] at hrefusal
  rw [h.run_pushInPlace_eq, hinorder, hrefusal]

/-- A loop of pushes in place for which there is room and that fails has stopped at a value that the
list does not admit, and leaves what pushing the values before it leads to. -/
theorem of_run_forM_error (h : LaidOut list members (shortest members)) {values : List UInt32}
    (hroom : members.length + values.length < UInt32.size) {violation : ContractViolation}
    {left : GapList} (hrun : (values.forM pushInPlace).run list = .error violation left) :
    ∃ before bad later, values = before ++ bad :: later ∧ ¬ left.Admits bad
      ∧ left = before.foldl GapList.afterPush list
      ∧ LaidOut left (members ++ before) (shortest (members ++ before)) := by
  rw [h.run_forM_pushInPlace values hroom] at hrun
  split at hrun
  next => cases hrun
  next hstop =>
    cases hrun
    obtain ⟨before, bad, later, hvalues, hbad, hleft, hlaid⟩ := h.pushAll_stopped hroom hstop
    refine ⟨before, bad, later, hvalues, ?_, hleft, hlaid⟩
    rw [hlaid.admits_iff, hbad]
    exact Option.some_ne_none _

end LaidOut

/-! ## Any pushes from the empty list -/

/-- The list that attempts to push values, one after the other, make of the empty one. -/
def afterPushes (tried : List UInt32) : GapList := tried.foldl afterPush empty

/-- The values that are taken: those greater than all taken before them. -/
def taken (tried : List UInt32) : List UInt32 := tried.foldl takeMember []

theorem afterPushes_append (tried more : List UInt32) :
    afterPushes (tried ++ more) = more.foldl afterPush (afterPushes tried) :=
  List.foldl_append

/-- No attempt loses what was taken before. -/
theorem length_taken_le (tried : List UInt32) (value : UInt32) :
    (taken tried).length ≤ (taken (tried ++ [value])).length := by
  rw [taken, taken, List.foldl_concat, takeMember]
  split
  · rw [List.length_append]
    exact Nat.le_add_right _ _
  · exact Nat.le_refl _

/-- Whatever was tried, the list is laid out for the values that were taken, if 32 bits say how many
they are. -/
theorem laidOut_afterPushes (tried : List UInt32) (hfit : (taken tried).length < UInt32.size) :
    LaidOut (afterPushes tried) (taken tried) (shortest (taken tried)) := by
  induction tried using List.reverseRecOn with
  | nil => exact laidOut_empty _
  | append_singleton tried value ih =>
    have hbefore := ih (Nat.lt_of_le_of_lt (length_taken_le tried value) hfit)
    rw [taken, List.foldl_concat] at hfit
    rw [afterPushes, taken, List.foldl_concat, List.foldl_concat]
    exact hbefore.afterPush value hfit

/-- Whatever was tried, the list is the one that the taken values make, if 32 bits say how many they
are. -/
theorem ofMembers_taken (tried : List UInt32) (hfit : (taken tried).length < UInt32.size) :
    ofMembers (taken tried) = .ok (afterPushes tried) := by
  have hlaid := laidOut_afterPushes tried hfit
  obtain ⟨list, hlist⟩ := exists_ofMembers hlaid.ascending hfit
  rw [hlist, (laidOut_of_ofMembers hlist).unique hlaid]

/-- Pushing keeps or rejects as a whole, while there are fewer than `2 ^ 32 - 1` members. After any
attempts, the list is the one that the values taken so far make and reads as these. One more push
succeeds exactly if the list is empty or the value is greater than its last member; then the value is
the new last member behind the old ones. A push that fails leaves every field as it was, so that
whatever is tried later leads where it would have led without it. A loop of pushes that fails, of no
more values than there is room for, has taken the values before a refused one, and nothing of that one
is left. -/
theorem push_keeps_or_rejects (tried : List UInt32) (hroom : (taken tried).length < 2 ^ 32 - 1) :
    ofMembers (taken tried) = .ok (afterPushes tried)
    ∧ (afterPushes tried).members = .ok (taken tried)
    ∧ (∀ value,
        ((∃ grown, (pushInPlace value).run (afterPushes tried) = .ok () grown)
          ↔ (afterPushes tried).Admits value)
        ∧ (∀ grown, (pushInPlace value).run (afterPushes tried) = .ok () grown →
          grown.members = .ok (taken tried ++ [value])
          ∧ grown.length.toNat = (afterPushes tried).length.toNat + 1 ∧ grown.last = some value)
        ∧ ∀ violation left, (pushInPlace value).run (afterPushes tried) = .error violation left →
          left = afterPushes tried
          ∧ ∀ later, afterPushes (tried ++ value :: later) = afterPushes (tried ++ later))
    ∧ ∀ values, (taken tried).length + values.length < 2 ^ 32 → ∀ violation left,
        (values.forM pushInPlace).run (afterPushes tried) = .error violation left →
        ∃ before bad later, values = before ++ bad :: later ∧ ¬ left.Admits bad
          ∧ left = afterPushes (tried ++ before)
          ∧ left.members = .ok (taken tried ++ before) := by
  have hone : (taken tried).length + 1 < UInt32.size := Nat.add_lt_of_lt_sub hroom
  have hfit := Nat.lt_of_succ_lt hone
  have hlaid := laidOut_afterPushes tried hfit
  refine ⟨ofMembers_taken tried hfit, hlaid.members_eq, fun value =>
    ⟨hlaid.exists_run_ok_iff hone value, fun grown hrun => ?_, fun violation left hrun => ?_⟩,
    fun values hvalues violation left hrun => ?_⟩
  · have hgrown := hlaid.of_run_ok hone hrun
    refine ⟨hgrown.members_eq, ?_, ?_⟩
    · rw [hgrown.length, hlaid.length, List.length_append, List.length_singleton]
    · rw [hgrown.last, List.getLast?_concat]
  · have hleft := hlaid.of_run_error hone hrun
    have hsame : (afterPushes tried).afterPush value = afterPushes tried := by
      rw [afterPush, hrun, hleft]
    refine ⟨hleft, fun later => ?_⟩
    rw [afterPushes_append, afterPushes_append, List.foldl_cons, hsame]
  · obtain ⟨before, bad, later, hsplit, hbad, hleft, hend⟩ :=
      hlaid.of_run_forM_error hvalues hrun
    refine ⟨before, bad, later, hsplit, hbad, ?_, hend.members_eq⟩
    rw [afterPushes_append]
    exact hleft

/-- Behind 7 and 8 a push of 9 is taken, one of 5 is refused, and a loop over 9, 5, 10 stops. -/
theorem push_keeps_or_rejects_behind_eight :
    (taken [7, 8]).length < 2 ^ 32 - 1
    ∧ (∃ grown, (pushInPlace 9).run (afterPushes [7, 8]) = .ok () grown
      ∧ grown.members = .ok [7, 8, 9])
    ∧ (∀ later, afterPushes ([7, 8] ++ 5 :: later) = afterPushes ([7, 8] ++ later))
    ∧ ∃ left, ([9, 5, 10].forM pushInPlace).run (afterPushes [7, 8])
        = .error (.notAscending 5 9) left
      ∧ ∃ before bad later, [9, 5, 10] = before ++ bad :: later
        ∧ left.members = .ok ([7, 8] ++ before) := by
  have hroom : (taken [7, 8]).length < 2 ^ 32 - 1 := by decide
  obtain ⟨-, -, hpush, hloop⟩ := push_keeps_or_rejects [7, 8] hroom
  have htaken : taken [7, 8] = [7, 8] := by decide
  rw [htaken] at hpush hloop
  have hnine : (pushInPlace 9).run (afterPushes [7, 8]) = .ok () (afterPushes [7, 8, 9]) := by rfl
  have hfive : (pushInPlace 5).run (afterPushes [7, 8])
      = .error (.notAscending 5 8) (afterPushes [7, 8]) := by rfl
  have hstop : ([9, 5, 10].forM pushInPlace).run (afterPushes [7, 8])
      = .error (.notAscending 5 9) (afterPushes [7, 8, 9]) := by rfl
  refine ⟨hroom, ⟨_, hnine, ((hpush 9).2.1 _ hnine).1⟩, ((hpush 5).2.2 _ _ hfive).2, _, hstop, ?_⟩
  obtain ⟨before, bad, later, hsplit, -, -, hmembers⟩ :=
    hloop [9, 5, 10] (by decide) _ _ hstop
  exact ⟨before, bad, later, hsplit, hmembers⟩

end Concordance.GapList
