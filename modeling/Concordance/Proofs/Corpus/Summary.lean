import Concordance.Corpus.Summary
import Concordance.Proofs.Corpus.Spans
import Concordance.Proofs.Json.Plain

/-!
# The summary of a corpus

The summary of every corpus is of a kind that readers take (`Corpus.simpleWithin_summary`): it is
made of texts and counts, and no count needs more than 64 bits. Counts of words have 32 bits and
counts of lists 64. The places of works, rows and authors are not beyond the tokens, and there are
no more works than tokens.
-/

namespace Concordance

open Json

variable {depth : Nat}

theorem RowSpan.simpleWithin_toJson {row : RowSpan} (hstart : row.start < UInt64.size)
    (hstop : row.stop < UInt64.size) : SimpleWithin (depth + 1) row.toJson := by
  refine .record ?_
  simp only [List.forall_mem_cons]
  exact ⟨.text _, .nat hstart, .nat hstop, by simp⟩

theorem WorkSpan.simpleWithin_toJson {work : WorkSpan} (hstart : work.start < UInt64.size)
    (hstop : work.stop < UInt64.size)
    (hrows : Tiles work.stop work.start (work.rows.toList.map (·.range))) :
    SimpleWithin (depth + 3) work.toJson := by
  have hitems : ∀ item ∈ work.rows.toList.map RowSpan.toJson, SimpleWithin (depth + 1) item := by
    intro item hitem
    obtain ⟨row, hrow, rfl⟩ := List.mem_map.mp hitem
    obtain ⟨-, hle, hlast⟩ := hrows.bounds (List.mem_map_of_mem hrow)
    have hrowStop : row.stop < UInt64.size := Nat.lt_of_le_of_lt hlast hstop
    exact RowSpan.simpleWithin_toJson (Nat.lt_of_le_of_lt hle hrowStop) hrowStop
  refine .record ?_
  simp only [List.forall_mem_cons]
  exact ⟨.text _, .text _, .text _, .text _, .nat hstart, .nat hstop, .array hitems, by simp⟩

theorem AuthorSpan.simpleWithin_toJson {author : AuthorSpan}
    (hfirst : author.firstWork < UInt64.size) (hlast : author.lastWork < UInt64.size)
    (hstart : author.start < UInt64.size) (hstop : author.stop < UInt64.size) :
    SimpleWithin (depth + 1) author.toJson := by
  refine .record ?_
  simp only [List.forall_mem_cons]
  exact ⟨.text _, .nat hfirst, .nat hlast, .nat hstart, .nat hstop, by simp⟩

theorem CorpusStats.simpleWithin_toJson (stats : CorpusStats) :
    SimpleWithin (depth + 1) stats.toJson := by
  have hcount : ∀ count : UInt32, count.toNat < UInt64.size := by
    intro count
    exact Nat.lt_of_lt_of_le count.toNat_lt (by decide)
  refine .record ?_
  simp only [List.forall_mem_cons]
  exact ⟨.nat (hcount _), .nat (hcount _), .nat (hcount _), .nat (hcount _), by simp⟩

theorem DimensionSummary.simpleWithin_toJson (summary : DimensionSummary) :
    SimpleWithin (depth + 1) summary.toJson := by
  refine .record ?_
  simp only [List.forall_mem_cons]
  exact ⟨.nat summary.keys.toNat_lt, .nat summary.dense.toNat_lt, .nat summary.bytes.toNat_lt,
    by simp⟩

namespace Corpus

/-- The summary of a corpus is made of texts and 64-bit numbers. -/
theorem simpleWithin_summary {reader : Reader} {ratio : UInt32} {works : List Work}
    {corpus : Corpus} (h : ofWorks reader ratio works = .ok corpus) :
    SimpleWithin (depth + 5) corpus.summary := by
  obtain ⟨draft, hdraft, hfinish⟩ := ofWorks_eq_ok.mp h
  obtain ⟨hcount, -, -, hworks, hauthors, -⟩ := Draft.finish_eq_ok hfinish
  have htaken := worksTaken_of_foldlM_addWork hdraft
  have hnotes := Draft.notes_of_foldlM_addWork hdraft
  have htokens : corpus.tokenCount < UInt64.size := by
    rw [hcount]
    exact Nat.lt_of_le_of_lt htaken.tells.size_le (by decide)
  have hwork : ∀ item ∈ corpus.works.toList.map WorkSpan.toJson, SimpleWithin (depth + 3) item := by
    intro item hitem
    obtain ⟨work, hmem, rfl⟩ := List.mem_map.mp hitem
    rw [hworks] at hmem
    have hlast := (htaken.tiles.bounds (List.mem_map_of_mem hmem)).2.2
    obtain ⟨hfilled, hrows⟩ := htaken.rows_of_mem (Array.mem_toList_iff.mp hmem)
    have hstop : work.stop < UInt64.size := Nat.lt_of_le_of_lt hlast (hcount ▸ htokens)
    exact WorkSpan.simpleWithin_toJson (Nat.lt_trans hfilled hstop) hstop hrows
  have hauthor : ∀ (code : String) (author : AuthorSpan), corpus.authors[code]? = some author →
      SimpleWithin (depth + 3) author.toJson := by
    intro code author hfind
    rw [hauthors] at hfind
    have hcovers := hnotes.covers hfind
    obtain ⟨hfilled, hlast⟩ := hcovers.bounds htaken.tiles fun _ => htaken.start_lt_stop
    have hstop : author.stop < UInt64.size := Nat.lt_of_le_of_lt hlast (hcount ▸ htokens)
    have hnumber : author.lastWork < UInt64.size :=
      Nat.lt_trans (Nat.lt_of_lt_of_le hcovers.lastWork_lt htaken.size_works_le) (hcount ▸ htokens)
    exact AuthorSpan.simpleWithin_toJson (Nat.lt_of_le_of_lt hcovers.firstWork_le hnumber) hnumber
      (Nat.lt_trans hfilled hstop) hstop
  refine .record ?_
  simp only [List.forall_mem_cons]
  refine ⟨.nat htokens, corpus.stats.simpleWithin_toJson, .array hwork, .record ?_, .record ?_,
    by simp⟩
  · intro entry hentry
    obtain ⟨⟨code, author⟩, hmem, rfl⟩ := List.mem_map.mp hentry
    exact hauthor code author (Std.TreeMap.mem_toList_iff_getElem?_eq_some.mp hmem)
  · intro entry hentry
    obtain ⟨dimension, -, rfl⟩ := List.mem_map.mp hentry
    exact DimensionSummary.simpleWithin_toJson _

end Corpus

end Concordance
