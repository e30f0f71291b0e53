import Mathlib.Logic.Relation
import Concordance.Corpus.Draft
import Concordance.Proofs.Except

/-!
# The steps of a build

Whatever the works are, a build makes the same few kinds of steps: it takes a word, it puts text
behind the last token, it marks a hard boundary, and it notes where works and authors lie. What
each step keeps therefore holds of every draft of a build.

- `Draft.TextStep`: one step of reading text. It leaves the works and authors as they are
  (`Draft.Reaches.spans_eq`).
- `Draft.Step`: one step of a build.
- `Draft.reaches_addRows`, `Draft.reaches_foldlM_addWork`: taking rows is a sequence of steps of
  reading, taking works one of steps of a build.
- `Draft.Reaches.keeps`: what every step keeps, a sequence of steps keeps.
-/

namespace Concordance.Draft

/-- One step of reading text. -/
inductive TextStep (analyze : String → List Analysis) : Draft → Draft → Prop
  /-- A word becomes the next token. -/
  | word {draft grown : Draft} {spelling : String}
      (h : draft.addWord analyze spelling = .ok grown) : TextStep analyze draft grown
  /-- A text comes behind the last token. -/
  | text (draft : Draft) (text : String) : TextStep analyze draft (draft.appendBreak text)
  /-- The last token stands before a hard boundary. -/
  | boundary (draft : Draft) : TextStep analyze draft draft.markHardBreak

/-- One step of a build. -/
inductive Step (analyze : String → List Analysis) : Draft → Draft → Prop
  /-- Text is read. -/
  | reading {draft grown : Draft} (h : TextStep analyze draft grown) : Step analyze draft grown
  /-- The works and authors are noted. -/
  | spans (draft : Draft) (works : Array WorkSpan) (authors : Std.TreeMap String AuthorSpan) :
      Step analyze draft { draft with works, authors }

/-- What taking a word does: the word becomes the last token, and its number goes to the lists of
its form and of what the form table knows about it. -/
theorem addWord_eq_ok {analyze : String → List Analysis} {draft grown : Draft} {spelling : String}
    (h : draft.addWord analyze spelling = .ok grown) :
    draft.tokens.size < maxTokens ∧ ∃ forms entry,
      draft.forms.add analyze (Fold.searchKey spelling) = .ok (forms, entry)
        ∧ grown = { draft with
          tokens := draft.tokens.push ⟨spelling, ""⟩
          forms
          index := draft.index.addWord (Fold.searchKey spelling) entry.headwords
            ((forms.recordsAt? entry.span).getD []) (UInt32.ofNat draft.tokens.size) } := by
  unfold addWord at h
  simp only [guard_eq_ok] at h
  obtain ⟨hroom, h⟩ := h
  obtain ⟨⟨forms, entry⟩, hadd, h⟩ := bind_eq_ok.mp h
  cases h
  exact ⟨Nat.lt_of_not_le hroom, forms, entry, hadd, rfl⟩

/-- A sequence of steps. -/
def Reaches (step : Draft → Draft → Prop) : Draft → Draft → Prop :=
  Relation.ReflTransGen step

variable {analyze : String → List Analysis} {draft grown : Draft}

/-- A step of reading changes neither the works nor the authors. -/
theorem TextStep.spans_eq (h : TextStep analyze draft grown) :
    grown.works = draft.works ∧ grown.authors = draft.authors := by
  cases h with
  | word hword =>
    obtain ⟨-, forms, entry, -, rfl⟩ := addWord_eq_ok hword
    exact ⟨rfl, rfl⟩
  | text text => exact ⟨rfl, rfl⟩
  | boundary =>
    unfold markHardBreak
    split
    case isTrue => exact ⟨rfl, rfl⟩
    case isFalse => exact ⟨rfl, rfl⟩

namespace Reaches

variable {step : Draft → Draft → Prop}

theorem refl (draft : Draft) : Reaches step draft draft := Relation.ReflTransGen.refl

theorem trans {between : Draft} (h : Reaches step draft between)
    (h' : Reaches step between grown) : Reaches step draft grown :=
  Relation.ReflTransGen.trans h h'

theorem single (h : step draft grown) : Reaches step draft grown :=
  Relation.ReflTransGen.single h

/-- What every step keeps, a sequence of steps keeps. -/
theorem keeps {invariant : Draft → Prop}
    (hstep : ∀ {before after}, step before after → invariant before → invariant after)
    (h : Reaches step draft grown) (hdraft : invariant draft) : invariant grown := by
  induction h with
  | refl => exact hdraft
  | tail _ hlast ih => exact hstep hlast ih

/-- Actions that are made of steps are so one after the other. -/
theorem foldlM {α : Type} {action : Draft → α → Except BuildError Draft}
    (haction : ∀ {before after value}, action before value = .ok after →
      Reaches step before after)
    {values : List α} (h : values.foldlM action draft = .ok grown) :
    Reaches step draft grown := by
  induction values generalizing draft with
  | nil =>
    cases h
    exact refl _
  | cons value values ih =>
    rw [List.foldlM_cons] at h
    obtain ⟨next, hnext, h⟩ := bind_eq_ok.mp h
    exact (haction hnext).trans (ih h)

/-- Steps of reading are steps of a build. -/
theorem reading (h : Reaches (TextStep analyze) draft grown) :
    Reaches (Step analyze) draft grown :=
  Relation.ReflTransGen.mono (fun _ _ => Step.reading) _ _ h

/-- Reading changes neither the works nor the authors. -/
theorem spans_eq (h : Reaches (TextStep analyze) draft grown) :
    grown.works = draft.works ∧ grown.authors = draft.authors := by
  induction h with
  | refl => exact ⟨rfl, rfl⟩
  | tail _ hlast ih => exact ⟨hlast.spans_eq.1.trans ih.1, hlast.spans_eq.2.trans ih.2⟩

end Reaches

/-! ## Rows and works -/

theorem reaches_addBreak (draft : Draft) (text : String) :
    Reaches (TextStep analyze) draft (draft.addBreak text) := by
  unfold addBreak
  simp only
  split
  case isTrue => exact (Reaches.single (.text draft text)).trans (.single (.boundary _))
  case isFalse => exact Reaches.single (.text draft text)

theorem reaches_addChunk {chunk : Chunk} (h : draft.addChunk analyze chunk = .ok grown) :
    Reaches (TextStep analyze) draft grown := by
  unfold addChunk at h
  split at h
  case isTrue => exact Reaches.single (.word h)
  case isFalse =>
    cases h
    exact reaches_addBreak draft chunk.text

theorem reaches_cross (draft : Draft) (workStart : Nat) (boundary : Option Boundary) :
    Reaches (TextStep analyze) draft (draft.cross workStart boundary) := by
  unfold cross
  split
  case isTrue =>
    cases boundary with
    | none => exact Reaches.refl draft
    | some boundary =>
      cases boundary with
      | soft => exact Reaches.single (.text draft "\n")
      | hard => exact Reaches.single (.boundary draft)
  case isFalse => exact Reaches.refl draft

variable {reader : Reader} {workId : String} {workStart : Nat}

theorem reaches_addRow {previous : Option SectionId} {row : String} {id : SectionId}
    {span : RowSpan}
    (h : draft.addRow reader workId workStart previous row id = .ok (grown, span)) :
    Reaches (TextStep reader.analyze) draft grown := by
  unfold addRow at h
  obtain ⟨boundary, _, h⟩ := bind_eq_ok.mp h
  obtain ⟨next, hnext, h⟩ := bind_eq_ok.mp h
  cases h
  exact (reaches_cross draft workStart boundary).trans (.foldlM reaches_addChunk hnext)

theorem reaches_addRows {rows : List (String × SectionId)} {previous : Option SectionId}
    {spans : List RowSpan}
    (h : addRows reader workId workStart draft previous rows = .ok (grown, spans)) :
    Reaches (TextStep reader.analyze) draft grown := by
  induction rows generalizing draft previous spans with
  | nil =>
    cases h
    exact Reaches.refl _
  | cons row rows ih =>
    obtain ⟨row, id⟩ := row
    unfold addRows at h
    obtain ⟨⟨next, span⟩, hnext, h⟩ := bind_eq_ok.mp h
    obtain ⟨⟨last, later⟩, hlast, h⟩ := bind_eq_ok.mp h
    cases h
    exact (reaches_addRow hnext).trans (ih hlast)

theorem reaches_addWork {work : Work} (h : draft.addWork reader work = .ok grown) :
    Reaches (Step reader.analyze) draft grown := by
  unfold addWork at h
  simp only [guard_eq_ok] at h
  obtain ⟨_, _, h⟩ := h
  obtain ⟨author, _, h⟩ := bind_eq_ok.mp h
  obtain ⟨⟨next, spans⟩, hnext, h⟩ := bind_eq_ok.mp h
  simp only [guard_eq_ok] at h
  obtain ⟨_, h⟩ := h
  cases h
  -- after its rows, a work marks its last token and notes its spans
  exact ((reaches_addRows hnext).trans (.single (.boundary next))).reading.trans
    (.single (.spans _ _ _))

/-- Taking works is a sequence of steps. -/
theorem reaches_foldlM_addWork {works : List Work}
    (h : works.foldlM (addWork reader) draft = .ok grown) :
    Reaches (Step reader.analyze) draft grown :=
  .foldlM reaches_addWork h

/-- What finishing a draft does: the text is put together, the lists are packed, words are counted,
and all else stays. -/
theorem finish_eq_ok {ratio : UInt32} {corpus : Corpus} (h : draft.finish ratio = .ok corpus) :
    corpus.tokenCount = draft.tokens.size
      ∧ textOf draft.tokens.toList = .ok corpus.text
      ∧ packIndex draft.index (UInt32.ofNat draft.tokens.size) ratio = .ok corpus.index
      ∧ corpus.works = draft.works ∧ corpus.authors = draft.authors
      ∧ corpus.forms = draft.forms
      ∧ corpus.stats = ⟨UInt32.ofNat draft.tokens.size, UInt32.ofNat draft.works.size,
          UInt32.ofNat draft.index.words.size, UInt32.ofNat draft.index.headwords.size⟩ := by
  unfold finish at h
  obtain ⟨text, htext, h⟩ := bind_eq_ok.mp h
  obtain ⟨index, hindex, h⟩ := bind_eq_ok.mp h
  cases h
  exact ⟨rfl, htext, hindex, rfl, rfl, rfl, rfl⟩

end Concordance.Draft
