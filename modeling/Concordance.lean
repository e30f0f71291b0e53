import Concordance.Corpus.Query
import Concordance.GapList.InPlace
import Concordance.GapList.Scanner
import Concordance.GapList.Wire
import Concordance.Grammar.GallicWar
import Concordance.Main
import Concordance.Storage.Tree
import Concordance.Proofs.GapList.Layout
import Concordance.Proofs.GapList.Pushing
import Concordance.Proofs.GapList.Reading
import Concordance.Proofs.GapList.Scanner
import Concordance.Proofs.GapList.Wire
import Concordance.Proofs.GapList.Offsets
import Concordance.Proofs.Mask.Positions
import Concordance.Proofs.Mask.Shifting
import Concordance.Proofs.Mask.Smearing
import Concordance.Proofs.Mask.Members
import Concordance.Proofs.Posting.Merge
import Concordance.Proofs.Posting.Holds
import Concordance.Proofs.Posting.Pairings
import Concordance.Proofs.Posting.Nearness
import Concordance.Proofs.Posting.Ranges
import Concordance.Proofs.Posting.Forms
import Concordance.Proofs.Ascending
import Concordance.Proofs.Corpus.Keys
import Concordance.Proofs.Corpus.CodeLists
import Concordance.Proofs.Corpus.Index
import Concordance.Proofs.Corpus.Phrases
import Concordance.Proofs.Corpus.Postings
import Concordance.Proofs.Corpus.Ratio
import Concordance.Proofs.Forms.Layout
import Concordance.Proofs.Forms.Intake
import Concordance.Proofs.Text.Chunk
import Concordance.Proofs.Corpus.Tokens
import Concordance.Proofs.Corpus.Wording
import Concordance.Proofs.Corpus.Boundaries
import Concordance.Proofs.Corpus.Spans
import Concordance.Proofs.Corpus.Faults
import Concordance.Proofs.Corpus.Continuation
import Concordance.Proofs.Bytes.WordStream
import Concordance.Proofs.Json.RoundTrip
import Concordance.Proofs.Json.Plain
import Concordance.Proofs.Corpus.Forms
import Concordance.Proofs.Artifact.Starts
import Concordance.Proofs.Storage.Tree
import Concordance.Proofs.Artifact.Directory
import Concordance.Proofs.Corpus.Summary
import Concordance.Proofs.Artifact.Audit
import Concordance.Proofs.Artifact.Stored
import Concordance.Text.Scan
import Concordance.Proofs.Corpus.Places
import Concordance.Proofs.Corpus.Capacity
import Concordance.Proofs.Grammar.Combinations
import Concordance.Proofs.Text.Scan
import Concordance.Forms.InPlace
import Concordance.Proofs.Forms.Refusal
import Concordance.Mask.Machine
import Concordance.Posting.Kernel
import Concordance.Proofs.Mask.Machine
import Concordance.Proofs.Posting.Kernel
import Concordance.Bytes.Accumulator
import Concordance.Proofs.Bytes.Groups
import Concordance.Proofs.Bytes.Truncation
import Concordance.Proofs.Text.SearchKey
