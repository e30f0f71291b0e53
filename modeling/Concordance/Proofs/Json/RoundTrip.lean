import Concordance.Proofs.Json.Scalars

/-!
# Values read back

A value of texts and natural numbers, in arrays and objects, is written in a form that reads back as
the value (`Json.parse_pretty`). This does not depend on how the parts are laid out, as long as
nothing but white space is added (`Json.Parser.value_render`).

- `Json.Simple`: values of texts and natural numbers.
- `Json.Parser.Reads`: a value reads back at any depth, whatever follows it.
-/

namespace Concordance.Json

open Printer

/-- A value of texts and natural numbers. -/
inductive Simple : Json → Prop
  | null : Simple .null
  | bool (value : Bool) : Simple (.bool value)
  | nat (n : Nat) : Simple (.nat n)
  | text (value : String) : Simple (.text value)
  | array {items : List Json} (h : ∀ item ∈ items, Simple item) : Simple (.array items)
  | record {entries : List (String × Json)} (h : ∀ entry ∈ entries, Simple entry.2) :
      Simple (.record entries)

/-- A layout adds nothing but white space. -/
structure Printer.Layout.Blank (layout : Layout) : Prop where
  /-- Parts are separated by white space. -/
  newline : ∀ depth, ∀ c ∈ layout.newline depth, Parser.isBlank c = true
  /-- Behind the colon there is white space. -/
  colon : ∃ blanks, layout.colon = ':' :: blanks ∧ ∀ c ∈ blanks, Parser.isBlank c = true

theorem Printer.prettyLayout_blank : prettyLayout.Blank where
  newline depth c hc := by
    rcases List.mem_cons.mp hc with rfl | hspace
    · rfl
    · rw [(List.mem_replicate.mp hspace).2]
      rfl
  colon := by
    refine ⟨[' '], rfl, ?_⟩
    intro c hc
    rw [List.mem_singleton.mp hc]
    rfl

namespace Parser

/-! ## White space -/

variable {blanks : List Char}

theorem skipBlanks_append (hblanks : ∀ c ∈ blanks, isBlank c = true) (rest : List Char) :
    skipBlanks (blanks ++ rest) = skipBlanks rest :=
  List.dropWhile_append_of_pos hblanks

theorem skipBlanks_cons {c : Char} (hc : isBlank c = false) (rest : List Char) :
    skipBlanks (c :: rest) = c :: rest :=
  List.dropWhile_cons_of_neg (by simp [hc])

/-- White space in front of a value is skipped. -/
theorem value_append (hblanks : ∀ c ∈ blanks, isBlank c = true) (steps : Nat) (rest : List Char) :
    Parser.value steps (blanks ++ rest) = Parser.value steps rest := by
  cases steps with
  | zero => rfl
  | succ steps =>
    unfold Parser.value
    simp only [skipBlanks_append hblanks]

/-- A character that no number goes on with. -/
def Separates (c : Char) : Prop := isDigit c = false ∧ c ≠ '.' ∧ c ≠ 'e' ∧ c ≠ 'E'

theorem separates_of_isBlank {c : Char} (h : isBlank c = true) : Separates c := by
  simp only [isBlank, Bool.or_eq_true, decide_eq_true_eq] at h
  rcases h with ((rfl | rfl) | rfl) | rfl <;> exact ⟨rfl, by decide⟩

theorem Separates.endsNumber {c : Char} (h : Separates c) (rest : List Char) :
    EndsNumber (c :: rest) := by
  rintro first later heq
  cases heq
  exact h

theorem Separates.endsNumber_append {c : Char} (h : Separates c)
    (hblanks : ∀ c ∈ blanks, isBlank c = true) (rest : List Char) :
    EndsNumber (blanks ++ c :: rest) := by
  cases blanks with
  | nil => exact h.endsNumber rest
  | cons blank blanks =>
    exact (separates_of_isBlank (hblanks blank List.mem_cons_self)).endsNumber _

theorem separates_comma : Separates ',' := ⟨rfl, by decide⟩

theorem separates_bracket : Separates ']' := ⟨rfl, by decide⟩

theorem separates_brace : Separates '\x7d' := ⟨rfl, by decide⟩

/-! ## Values -/

variable {layout : Layout}

/-- A value reads back at any depth, whatever follows it, if there are as many steps as it has
characters. -/
def Reads (layout : Layout) (value : Json) : Prop :=
  ∀ depth steps rest, (render layout depth value).length ≤ steps → EndsNumber rest →
    Parser.value steps (render layout depth value ++ rest) = some (value, rest)

/-- A value that reads back is written as something. -/
theorem Reads.length_pos {value : Json} (h : Reads layout value) (depth : Nat) :
    0 < (render layout depth value).length := by
  rcases Nat.eq_zero_or_pos (render layout depth value).length with hzero | hpos
  · have hnone := h depth 0 [] (Nat.le_of_eq hzero) (by
      intro c later heq
      cases heq)
    cases hnone
  · exact hpos

section

variable {steps : Nat} {chars behind rest : List Char}

/-- The last item of an array. -/
theorem items_last {item : Json} (hitem : Parser.value steps chars = some (item, behind))
    (hclose : skipBlanks behind = ']' :: rest) :
    Parser.items (steps + 1) chars = some ([item], rest) := by
  rw [Parser.items, hitem]
  simp [hclose]

/-- An item of an array before others. -/
theorem items_more {item : Json} {later : List Json} {more : List Char}
    (hitem : Parser.value steps chars = some (item, behind))
    (hcomma : skipBlanks behind = ',' :: more)
    (hmore : Parser.items steps more = some (later, rest)) :
    Parser.items (steps + 1) chars = some (item :: later, rest) := by
  rw [Parser.items, hitem]
  simp [hcomma, hmore]

end

/-- Items that read back do so in an array. -/
theorem items_render (hlayout : layout.Blank) {items : List Json} {item : Json}
    (hitems : ∀ other ∈ item :: items, Reads layout other) {depth steps : Nat}
    (hsteps : (renderItems layout depth (item :: items)).length < steps)
    (hblanks : ∀ c ∈ blanks, isBlank c = true) (rest : List Char) :
    Parser.items steps (renderItems layout depth (item :: items) ++ (blanks ++ ']' :: rest))
      = some (item :: items, rest) := by
  induction items generalizing item steps with
  | nil =>
    rw [renderItems, List.isEmpty_nil, if_pos rfl, List.append_nil] at hsteps ⊢
    rw [List.length_append] at hsteps
    cases steps with
    | zero => omega
    | succ steps =>
      have hitem := hitems item List.mem_cons_self depth steps (blanks ++ ']' :: rest) (by omega)
        (separates_bracket.endsNumber_append hblanks rest)
      rw [← value_append (hlayout.newline depth), ← List.append_assoc] at hitem
      refine items_last hitem ?_
      rw [skipBlanks_append hblanks, skipBlanks_cons rfl]
  | cons next later ih =>
    have hpos := (hitems item List.mem_cons_self).length_pos depth
    rw [renderItems, List.isEmpty_cons, if_neg Bool.false_ne_true] at hsteps ⊢
    rw [List.length_append, List.length_append, List.length_cons] at hsteps
    cases steps with
    | zero => omega
    | succ steps =>
      have hlater := ih (fun other hother => hitems other (List.mem_cons_of_mem _ hother))
        (show _ < steps by omega)
      have hitem := hitems item List.mem_cons_self depth steps
        (',' :: (renderItems layout depth (next :: later) ++ (blanks ++ ']' :: rest))) (by omega)
        (separates_comma.endsNumber _)
      rw [← value_append (hlayout.newline depth), ← List.append_assoc] at hitem
      rw [List.append_assoc, List.cons_append]
      exact items_more hitem (skipBlanks_cons rfl _) hlater

section

variable {steps : Nat} {chars inner afterKey afterColon behind rest : List Char}
  {key : Option String} {found : Json}

/-- The last entry of an object. -/
theorem entries_last (hquote : skipBlanks chars = '"' :: inner)
    (hkey : stringText inner = some (key, afterKey))
    (hcolon : skipBlanks afterKey = ':' :: afterColon)
    (hvalue : Parser.value steps afterColon = some (found, behind))
    (hclose : skipBlanks behind = '\x7d' :: rest) :
    Parser.entries (steps + 1) chars = some ([(key, found)], rest) := by
  rw [Parser.entries]
  simp [hquote, hkey, hcolon, hvalue, hclose]

/-- An entry of an object before others. -/
theorem entries_more {later : List (Option String × Json)} {more : List Char}
    (hquote : skipBlanks chars = '"' :: inner)
    (hkey : stringText inner = some (key, afterKey))
    (hcolon : skipBlanks afterKey = ':' :: afterColon)
    (hvalue : Parser.value steps afterColon = some (found, behind))
    (hcomma : skipBlanks behind = ',' :: more)
    (hmore : Parser.entries steps more = some (later, rest)) :
    Parser.entries (steps + 1) chars = some ((key, found) :: later, rest) := by
  rw [Parser.entries]
  simp [hquote, hkey, hcolon, hvalue, hcomma, hmore]

end

/-- A key and the colon behind it, in front of a value. -/
theorem quoted_append (hlayout : layout.Blank) (depth : Nat) (key : String) (rest : List Char) :
    ∃ inner afterKey blanks,
      skipBlanks (layout.newline depth ++ quoted key ++ layout.colon ++ rest) = '"' :: inner
        ∧ stringText inner = some (some key, afterKey)
        ∧ skipBlanks afterKey = ':' :: (blanks ++ rest) ∧ ∀ c ∈ blanks, isBlank c = true := by
  obtain ⟨blanks, hcolon, hblanks⟩ := hlayout.colon
  refine ⟨_, ':' :: (blanks ++ rest), blanks, ?_, stringText_escape key _, skipBlanks_cons rfl _,
    hblanks⟩
  rw [hcolon, List.append_assoc, List.append_assoc, skipBlanks_append (hlayout.newline depth),
    quoted]
  simp only [List.cons_append, List.append_assoc, List.nil_append]
  exact skipBlanks_cons rfl _

/-- The entries of a record as those of an object. -/
def keyed (entries : List (String × Json)) : List (Option String × Json) :=
  entries.map fun entry => (some entry.1, entry.2)

theorem renderEntries_last (layout : Layout) (depth : Nat) (entry : String × Json) :
    renderEntries layout depth (keyed [entry])
      = layout.newline depth ++ quoted entry.1 ++ layout.colon
        ++ render layout depth entry.2 := by
  rw [keyed, List.map_cons, List.map_nil, renderEntries, List.isEmpty_nil, if_pos rfl,
    List.append_nil, Option.getD_some]

theorem renderEntries_more (layout : Layout) (depth : Nat) (entry next : String × Json)
    (later : List (String × Json)) :
    renderEntries layout depth (keyed (entry :: next :: later))
      = layout.newline depth ++ quoted entry.1 ++ layout.colon
        ++ (render layout depth entry.2
          ++ ',' :: renderEntries layout depth (keyed (next :: later))) := by
  rw [keyed, List.map_cons, renderEntries, Option.getD_some, ← keyed, ← List.append_assoc]
  rfl

/-- The entries of an object start with a quote behind white space. -/
theorem skipBlanks_renderEntries (hlayout : layout.Blank) (depth : Nat) (entry : String × Json)
    (entries : List (String × Json)) (rest : List Char) :
    ∃ later, skipBlanks (renderEntries layout depth (keyed (entry :: entries)) ++ rest)
      = '"' :: later := by
  rw [keyed, List.map_cons, renderEntries, quoted]
  simp only [List.append_assoc, List.cons_append]
  rw [skipBlanks_append (hlayout.newline depth), skipBlanks_cons rfl]
  exact ⟨_, rfl⟩

/-- Entries whose values read back do so in an object. -/
theorem entries_render (hlayout : layout.Blank) {entries : List (String × Json)}
    {entry : String × Json} (hentries : ∀ other ∈ entry :: entries, Reads layout other.2)
    {depth steps : Nat}
    (hsteps : (renderEntries layout depth (keyed (entry :: entries))).length < steps)
    (hblanks : ∀ c ∈ blanks, isBlank c = true) (rest : List Char) :
    Parser.entries steps
        (renderEntries layout depth (keyed (entry :: entries)) ++ (blanks ++ '\x7d' :: rest))
      = some (keyed (entry :: entries), rest) := by
  induction entries generalizing entry steps with
  | nil =>
    rw [renderEntries_last, List.length_append] at hsteps
    cases steps with
    | zero => omega
    | succ steps =>
      obtain ⟨inner, afterKey, gap, hquote, hkey, hcolon, hgap⟩ := quoted_append hlayout depth
        entry.1 (render layout depth entry.2 ++ (blanks ++ '\x7d' :: rest))
      have hvalue := hentries entry List.mem_cons_self depth steps (blanks ++ '\x7d' :: rest)
        (by omega) (separates_brace.endsNumber_append hblanks rest)
      rw [← value_append hgap] at hvalue
      rw [renderEntries_last, List.append_assoc]
      refine entries_last hquote hkey hcolon hvalue ?_
      rw [skipBlanks_append hblanks, skipBlanks_cons rfl]
  | cons next later ih =>
    have hpos := (hentries entry List.mem_cons_self).length_pos depth
    rw [renderEntries_more] at hsteps
    simp only [List.length_append, List.length_cons] at hsteps
    cases steps with
    | zero => omega
    | succ steps =>
      have hlater := ih (fun other hother => hentries other (List.mem_cons_of_mem _ hother))
        (show _ < steps by omega)
      obtain ⟨inner, afterKey, gap, hquote, hkey, hcolon, hgap⟩ := quoted_append hlayout depth
        entry.1 (render layout depth entry.2
          ++ (',' :: (renderEntries layout depth (keyed (next :: later))
            ++ (blanks ++ '\x7d' :: rest))))
      have hvalue := hentries entry List.mem_cons_self depth steps
        (',' :: (renderEntries layout depth (keyed (next :: later)) ++ (blanks ++ '\x7d' :: rest)))
        (by omega) (separates_comma.endsNumber _)
      rw [← value_append hgap] at hvalue
      rw [renderEntries_more, List.append_assoc, List.append_assoc (render layout depth entry.2),
        List.cons_append]
      exact entries_more hquote hkey hcolon hvalue (skipBlanks_cons rfl _) hlater

/-! ### All values -/

theorem isBlank_of_isDigit {c : Char} (h : isDigit c = true) : isBlank c = false := by
  cases hblank : isBlank c with
  | false => rfl
  | true =>
    rw [(separates_of_isBlank hblank).1] at h
    cases h

/-- A value of texts and natural numbers starts neither with white space nor with a closing
bracket. -/
theorem exists_render {value : Json} (h : Simple value) (layout : Layout) (depth : Nat) :
    ∃ c later, render layout depth value = c :: later ∧ isBlank c = false ∧ c ≠ ']' := by
  cases h with
  | null => exact ⟨_, _, rfl, rfl, by decide⟩
  | bool value => cases value <;> exact ⟨_, _, rfl, rfl, by decide⟩
  | nat n =>
    obtain ⟨c, later, hwritten, hdigit⟩ := exists_ofNumber_ofNat n
    refine ⟨c, later, hwritten, isBlank_of_isDigit hdigit, ?_⟩
    rintro rfl
    cases hdigit
  | text value => exact ⟨_, _, rfl, rfl, by decide⟩
  | @array items _ => cases items <;> exact ⟨_, _, rfl, rfl, by decide⟩
  | @record entries _ => cases entries <;> exact ⟨_, _, rfl, rfl, by decide⟩

/-- The items of an array do not start with its closing bracket. -/
theorem skipBlanks_renderItems (hlayout : layout.Blank) (depth : Nat) {item : Json}
    (hitem : Simple item) (items : List Json) (rest : List Char) :
    ∃ c later, skipBlanks (renderItems layout depth (item :: items) ++ rest) = c :: later
      ∧ c ≠ ']' := by
  obtain ⟨c, later, heq, hblank, hc⟩ := exists_render hitem layout depth
  rw [renderItems, heq]
  simp only [List.append_assoc, List.cons_append]
  rw [skipBlanks_append (hlayout.newline depth), skipBlanks_cons hblank]
  exact ⟨c, _, rfl, hc⟩

/-- A scalar is told from a string, an array and an object by its first character. -/
theorem value_cons {c : Char} (hblank : isBlank c = false)
    (hother : c ≠ '"' ∧ c ≠ '[' ∧ c ≠ '\x7b') (steps : Nat) (rest : List Char) :
    Parser.value (steps + 1) (c :: rest) = Parser.scalar (c :: rest) := by
  obtain ⟨hquote, hbracket, hbrace⟩ := hother
  rw [Parser.value, skipBlanks_cons hblank]
  split <;> simp_all

/-- An array that is not empty. -/
theorem value_array {steps : Nat} {inner later behind : List Char} {c : Char} {found : List Json}
    (hopen : skipBlanks inner = c :: later) (hc : c ≠ ']')
    (hitems : Parser.items steps inner = some (found, behind)) :
    Parser.value (steps + 1) ('[' :: inner) = some (.array found, behind) := by
  rw [Parser.value, skipBlanks_cons rfl]
  simp only [hopen]
  split
  case h_1 heq =>
    cases heq
    exact absurd rfl hc
  case h_2 => simp [hitems]

/-- An object that is not empty. -/
theorem value_object {steps : Nat} {inner later behind : List Char}
    {found : List (Option String × Json)} (hopen : skipBlanks inner = '"' :: later)
    (hentries : Parser.entries steps inner = some (found, behind)) :
    Parser.value (steps + 1) ('\x7b' :: inner) = some (.object found, behind) := by
  rw [Parser.value, skipBlanks_cons rfl]
  simp [hopen, hentries]

/-- There is a first step for every value. -/
theorem exists_steps {value : Json} (h : Simple value) {depth steps : Nat}
    (hle : (render layout depth value).length ≤ steps) : ∃ fewer, steps = fewer + 1 := by
  obtain ⟨c, later, heq, -⟩ := exists_render h layout depth
  rw [heq, List.length_cons] at hle
  exact Nat.exists_eq_succ_of_ne_zero (by omega)

theorem reads_nat (layout : Layout) (n : Nat) : Reads layout (.nat n) := by
  intro depth steps rest hle hrest
  obtain ⟨steps, rfl⟩ := exists_steps (.nat n) hle
  obtain ⟨c, later, hwritten, hdigit⟩ := exists_ofNumber_ofNat n
  have hscalar := scalar_ofNat n hrest
  have hother : c ≠ '"' ∧ c ≠ '[' ∧ c ≠ '\x7b' := by
    refine ⟨?_, ?_, ?_⟩ <;> rintro rfl <;> cases hdigit
  show Parser.value (steps + 1) (ofNumber (.ofNat n) ++ rest) = _
  rw [hwritten, List.cons_append] at hscalar ⊢
  rw [value_cons (isBlank_of_isDigit hdigit) hother, hscalar]

theorem reads_text (layout : Layout) (text : String) : Reads layout (.text text) := by
  intro depth steps rest hle hrest
  obtain ⟨steps, rfl⟩ := exists_steps (.text text) hle
  show (stringText (text.toList.flatMap escape ++ ['"'] ++ rest)).map _ = _
  rw [List.append_assoc, List.singleton_append, stringText_escape]
  rfl

/-- An array reads back if its items do. -/
theorem reads_array (hlayout : layout.Blank) {items : List Json}
    (hitems : ∀ item ∈ items, Simple item) (hreads : ∀ item ∈ items, Reads layout item) :
    Reads layout (.array items) := by
  intro depth steps rest hle hrest
  obtain ⟨steps, rfl⟩ := exists_steps (.array hitems) hle
  cases items with
  | nil => rfl
  | cons item items =>
    rw [render] at hle ⊢
    simp only [List.length_cons, List.length_append] at hle
    have hlt : (renderItems layout (depth + 1) (item :: items)).length < steps := by omega
    have hinner := items_render hlayout hreads hlt (hlayout.newline depth) rest
    obtain ⟨c, later, hopen, hc⟩ := skipBlanks_renderItems hlayout (depth + 1)
      (hitems item List.mem_cons_self) items (layout.newline depth ++ ']' :: rest)
    rw [List.cons_append, List.append_assoc, List.append_assoc, List.singleton_append]
    exact value_array hopen hc hinner

/-- An object reads back if its values do. -/
theorem reads_record (hlayout : layout.Blank) {entries : List (String × Json)}
    (hentries : ∀ entry ∈ entries, Simple entry.2)
    (hreads : ∀ entry ∈ entries, Reads layout entry.2) : Reads layout (.record entries) := by
  intro depth steps rest hle hrest
  obtain ⟨steps, rfl⟩ := exists_steps (.record hentries) hle
  cases entries with
  | nil => rfl
  | cons entry entries =>
    have hrender : render layout depth (.record (entry :: entries))
        = '\x7b' :: (renderEntries layout (depth + 1) (keyed (entry :: entries))
          ++ layout.newline depth ++ ['\x7d']) := rfl
    rw [hrender] at hle ⊢
    simp only [List.length_cons, List.length_append] at hle
    have hlt : (renderEntries layout (depth + 1) (keyed (entry :: entries))).length < steps := by
      omega
    have hinner := entries_render hlayout hreads hlt (hlayout.newline depth) rest
    obtain ⟨later, hquote⟩ := skipBlanks_renderEntries hlayout (depth + 1) entry entries
      (layout.newline depth ++ '\x7d' :: rest)
    rw [List.cons_append, List.append_assoc, List.append_assoc, List.singleton_append]
    exact value_object hquote hinner

/-- A value of texts and natural numbers reads back, in any layout. -/
theorem value_render (hlayout : layout.Blank) {value : Json} (h : Simple value) :
    Reads layout value := by
  induction h with
  | null =>
    intro depth steps rest hle hrest
    obtain ⟨steps, rfl⟩ := exists_steps .null hle
    rfl
  | bool value =>
    intro depth steps rest hle hrest
    obtain ⟨steps, rfl⟩ := exists_steps (.bool value) hle
    cases value <;> rfl
  | nat n => exact reads_nat layout n
  | text text => exact reads_text layout text
  | array hitems ih => exact reads_array hlayout hitems ih
  | record hentries ih => exact reads_record hlayout hentries ih

end Parser

/-- What is written for a value of texts and natural numbers reads back as the value. -/
theorem parse_pretty {value : Json} (h : Simple value) : Json.parse value.pretty = some value := by
  have hlength : (render prettyLayout 0 value).length ≤ value.pretty.length + 1 := by
    rw [pretty, String.length_ofList]
    omega
  have hend : Parser.EndsNumber [] := by
    intro c later heq
    cases heq
  have hreads := Parser.value_render prettyLayout_blank h 0 _ [] hlength hend
  rw [List.append_nil] at hreads
  unfold parse
  rw [show value.pretty.toList = render prettyLayout 0 value from String.toList_ofList, hreads]
  rfl

end Concordance.Json
