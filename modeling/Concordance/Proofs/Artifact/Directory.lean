import Concordance.Artifact.Build
import Concordance.Audit.Report
import Concordance.Proofs.Storage.Tree

/-!
# Artifacts in a directory

A build stores the artifacts of a corpus one after the other, and an audit reads them one after the
other. On a file system that returns what was written, the audit of the directory is the audit of
what the corpus has as its artifacts (`Build.holds_store`, `Audit.run_ofDirectory`).

- `FileSystem.Returns`: what this asks of a file system. A tree in memory does it in every
  directory (`FileTree.returns`).
-/

namespace Concordance

variable {World : Type} {before after world : World}

namespace FileSystem

/-- A directory holds bytes as an artifact. -/
def Holds (files : FileSystem (StateM World)) (directory : String) (artifact : Artifact)
    (bytes : ByteArray) (world : World) : Prop :=
  (files.read (Path.join directory artifact.fileName) world).1 = .ok bytes

/-- What was written into a directory as an artifact is returned when it is read. -/
structure Returns (files : FileSystem (StateM World)) (directory : String) : Prop where
  /-- A file that was written holds the bytes. -/
  written : ∀ (artifact : Artifact) (bytes : ByteArray) (before after : World),
    files.write (Path.join directory artifact.fileName) bytes before = (.ok (), after) →
      files.Holds directory artifact bytes after
  /-- The other files hold what they held. -/
  others : ∀ (artifact other : Artifact) (bytes found : ByteArray) (before after : World),
    artifact ≠ other →
      files.write (Path.join directory artifact.fileName) bytes before = (.ok (), after) →
        files.Holds directory other found before → files.Holds directory other found after
  /-- Reading changes no file. -/
  reads : ∀ (artifact other : Artifact) (found : ByteArray) (world : World),
    files.Holds directory other found world →
      files.Holds directory other found
        (files.read (Path.join directory artifact.fileName) world).2

end FileSystem

variable {files : FileSystem (StateM World)} {directory : String} {corpus : Corpus}

/-! ## Storing -/

namespace Build

variable {artifact : Artifact} {artifacts : List Artifact} {bytes : ByteArray}

theorem run_orFail_eq_ok {α : Type} {action : StateM World (Except FileError α)} {value : α} :
    (orFail action).run before = (.ok value, after) ↔ action before = (.ok value, after) := by
  unfold orFail
  rw [run_bind (run_lift action before)]
  rcases action before with ⟨failure | value, between⟩
  · constructor <;> (intro h; cases h)
  · constructor <;> (intro h; cases h; rfl)

/-- To write artifacts is to write the first one and then the others. -/
theorem run_writeArtifacts_cons {first : Artifact} :
    (writeArtifacts files directory corpus (first :: artifacts)).run before = (.ok (), after)
      ↔ ∃ bytes between, corpus.artifact first = .ok bytes
        ∧ files.write (Path.join directory first.fileName) bytes before = (.ok (), between)
        ∧ (writeArtifacts files directory corpus artifacts).run between = (.ok (), after) := by
  rw [writeArtifacts, run_bind_eq_ok]
  constructor
  · rintro ⟨bytes, start, hbytes, hwrites⟩
    obtain ⟨⟨⟩, between, hwrite, hlater⟩ := run_bind_eq_ok.mp hwrites
    -- making the bytes up does not touch the files
    have hpair : (corpus.artifact first, before) = (.ok bytes, start) := hbytes
    obtain ⟨hmade, rfl⟩ := Prod.mk.inj hpair
    exact ⟨bytes, between, hmade, run_orFail_eq_ok.mp hwrite, hlater⟩
  · rintro ⟨bytes, between, hbytes, hwrite, hlater⟩
    refine ⟨bytes, before, ?_, ?_⟩
    · rw [hbytes]
      rfl
    · exact run_bind_eq_ok.mpr ⟨(), between, run_orFail_eq_ok.mpr hwrite, hlater⟩

/-- After artifacts were written, they are there, and so are those that were there before. -/
theorem holds_writeArtifacts (hfiles : files.Returns directory)
    (h : (writeArtifacts files directory corpus artifacts).run before = (.ok (), after))
    (hbytes : corpus.artifact artifact = .ok bytes)
    (hthere : artifact ∈ artifacts ∨ files.Holds directory artifact bytes before) :
    files.Holds directory artifact bytes after := by
  induction artifacts generalizing before with
  | nil =>
    cases h
    exact hthere.resolve_left List.not_mem_nil
  | cons first artifacts ih =>
    obtain ⟨written, between, hwritten, hwrite, hlater⟩ := run_writeArtifacts_cons.mp h
    refine ih hlater ?_
    by_cases heq : artifact = first
    · subst heq
      cases hbytes.symm.trans hwritten
      exact .inr (hfiles.written artifact bytes before between hwrite)
    · rcases hthere with hmem | hholds
      · exact .inl ((List.mem_cons.mp hmem).resolve_left heq)
      · exact .inr (hfiles.others first artifact written bytes before between (Ne.symm heq) hwrite
          hholds)

/-- After a corpus was stored, all its artifacts are there. -/
theorem holds_store (hfiles : files.Returns directory)
    (h : (store files directory corpus).run before = (.ok (), after))
    (hbytes : corpus.artifact artifact = .ok bytes) :
    files.Holds directory artifact bytes after := by
  obtain ⟨⟨⟩, between, -, hwrites⟩ := run_bind_eq_ok.mp h
  refine holds_writeArtifacts hfiles hwrites hbytes (.inl ?_)
  cases artifact <;> decide

end Build

/-! ## Auditing -/

namespace Audit

variable {contents : Artifact → ByteArray}

/-- Artifacts that are there are read. -/
theorem exists_readArtifacts (hfiles : files.Returns directory)
    (hholds : ∀ artifact, files.Holds directory artifact (contents artifact) world)
    (artifacts : List Artifact) :
    ∃ found later, (readArtifacts files directory artifacts).run world = (.ok found, later)
      ∧ ∀ artifact ∈ artifacts, found artifact = contents artifact := by
  induction artifacts generalizing world with
  | nil =>
    refine ⟨_, world, rfl, ?_⟩
    intro artifact hmem
    cases hmem
  | cons first artifacts ih =>
    have hlater : ∀ artifact, files.Holds directory artifact (contents artifact)
        (files.read (Path.join directory first.fileName) world).2 := by
      intro artifact
      exact hfiles.reads first artifact (contents artifact) world (hholds artifact)
    obtain ⟨found, later, hrun, hfound⟩ := ih hlater
    refine ⟨fun other => if other = first then contents first else found other, later, ?_, ?_⟩
    · unfold readArtifacts
      have hfirst : (files.read (Path.join directory first.fileName) world).1
          = .ok (contents first) := hholds first
      rw [run_bind (run_lift (files.read (Path.join directory first.fileName)) world), hfirst]
      exact run_bind hrun
    · intro artifact hmem
      by_cases heq : artifact = first
      · simp only [heq, if_true]
      · simp only [heq, if_false]
        exact hfound artifact ((List.mem_cons.mp hmem).resolve_left heq)

/-- The audit of a directory that holds artifacts is the audit of these. -/
theorem run_ofDirectory (hfiles : files.Returns directory)
    (hholds : ∀ artifact, files.Holds directory artifact (contents artifact) world) :
    ((ofDirectory files directory).run world).1 = ofFiles contents := by
  obtain ⟨found, later, hrun, hfound⟩ := exists_readArtifacts hfiles hholds Artifact.all
  have heq : found = contents := by
    funext artifact
    refine hfound artifact ?_
    cases artifact <;> decide
  unfold ofDirectory
  rw [run_bind hrun, heq]
  rfl

end Audit

/-! ## A tree in memory -/

namespace Artifact

theorem fileName_injective {first second : Artifact} (h : first.fileName = second.fileName) :
    first = second := by
  revert h
  cases first <;> cases second <;> decide

theorem slash_notMem_fileName (artifact : Artifact) : '/' ∉ artifact.fileName.toList := by
  cases artifact <;> decide

theorem isName_fileName (artifact : Artifact) : FileTree.IsName artifact.fileName := by
  unfold FileTree.IsName
  cases artifact <;> decide +kernel

end Artifact

namespace FileTree

variable {tree changed : FileTree}

theorem outcome_eq_ok {result : Except FileError FileTree} :
    tree.outcome result = (.ok (), changed) ↔ result = .ok changed := by
  cases result with
  | error cause => constructor <;> (intro h; cases h)
  | ok grown => constructor <;> (intro h; cases h; rfl)

/-- A tree returns the artifacts that are written into any of its directories. -/
theorem returns (directory : String) : fileSystem.Returns directory where
  written artifact bytes before after h := read_of_write (outcome_eq_ok.mp h)
  others artifact other bytes found before after hne h hholds := by
    refine read_of_write_of_ne ?_ (outcome_eq_ok.mp h) hholds
    rw [Path.getLast?_parts_join artifact.slash_notMem_fileName,
      Path.getLast?_parts_join other.slash_notMem_fileName]
    intro heq
    exact hne (Artifact.fileName_injective (Option.some.inj heq))
  reads artifact other found world hholds := hholds

theorem isName_out : IsName "out" := by
  unfold IsName
  decide +kernel

/-- All paths start at the root, if those do that do not say so. -/
theorem start_eq (h : tree.working = []) (path : String) : tree.start path = [] := by
  unfold start
  rw [h, ite_self]

/-- A tree with a directory for artifacts. -/
structure Ready (tree : FileTree) : Prop where
  /-- Paths start at the root. -/
  working : tree.working = []
  /-- The directory is there. -/
  directory : tree.nodes[["out"]]? = some .directory
  /-- There is no other directory in it. -/
  vacant : ∀ name : String, tree.nodes[["out", name]]? ≠ some .directory

/-- An artifact is written into the directory. -/
theorem Ready.exists_write (h : tree.Ready) (artifact : Artifact) (bytes : ByteArray) :
    ∃ changed, tree.write (Path.join "out" artifact.fileName) bytes = .ok changed
      ∧ changed.Ready := by
  have hcheck : checkPath (Path.join "out" artifact.fileName) = .ok () := by
    cases artifact <;> exact checkPath_eq_ok (by decide +kernel) (by decide +kernel)
      (by decide +kernel)
  have hparts : Path.parts (Path.join "out" artifact.fileName) = ["out", artifact.fileName] := by
    cases artifact <;> decide +kernel
  have hpasses : tree.Passes [] "out" ["out"] := .enter isName_out h.directory
  obtain ⟨location, hends⟩ : ∃ location, tree.Ends ["out"] artifact.fileName location := by
    cases hnode : tree.nodes[["out", artifact.fileName]]? with
    | none => exact ⟨_, .vacant artifact.isName_fileName hnode⟩
    | some node =>
      cases node with
      | file old => exact ⟨_, .file artifact.isName_fileName hnode⟩
      | directory => exact absurd hnode (h.vacant artifact.fileName)
  have hlocate : tree.locate (Path.join "out" artifact.fileName) = .ok location := by
    refine locate_eq_ok.mpr ⟨hcheck, ?_⟩
    rw [hparts, start_eq h.working, follow_cons_eq_ok]
    exact .inl ⟨["out"], hpasses, follow_cons_eq_ok.mpr (.inr ⟨rfl, hends⟩)⟩
  refine ⟨_, write_eq_ok.mpr ⟨location, _, hlocate, hends.names?_eq, rfl⟩, h.working, ?_, ?_⟩
  · rw [getElem?_nodes_put_of_ne (by simp), h.directory]
  · intro name
    by_cases heq : ["out"] ++ [artifact.fileName] = ["out", name]
    · rw [heq, getElem?_nodes_put_self]
      intro hfile
      cases hfile
    · rw [getElem?_nodes_put_of_ne heq]
      exact h.vacant name

/-- Artifacts are written into the directory one after the other. -/
theorem Ready.exists_writeArtifacts (h : tree.Ready)
    (hartifacts : ∀ artifact, ∃ bytes, corpus.artifact artifact = .ok bytes)
    (artifacts : List Artifact) :
    ∃ after,
      (Build.writeArtifacts fileSystem "out" corpus artifacts).run tree = (.ok (), after) := by
  induction artifacts generalizing tree with
  | nil => exact ⟨tree, rfl⟩
  | cons first artifacts ih =>
    obtain ⟨bytes, hbytes⟩ := hartifacts first
    obtain ⟨changed, hwrite, hready⟩ := h.exists_write first bytes
    obtain ⟨after, hafter⟩ := ih hready
    exact ⟨after, Build.run_writeArtifacts_cons.mpr
      ⟨bytes, changed, hbytes, outcome_eq_ok.mpr hwrite, hafter⟩⟩

/-- An empty tree with the directory. -/
def fresh : FileTree :=
  { empty [] with nodes := (empty []).nodes.insert ["out"] .directory }

theorem getElem?_nodes_empty (names : List String) : (empty []).nodes[names]? = none :=
  Std.HashMap.getElem?_empty

theorem ready_fresh : fresh.Ready where
  working := rfl
  directory := Std.HashMap.getElem?_insert_self
  vacant name := by
    rw [fresh, Std.HashMap.getElem?_insert, if_neg (by simp), getElem?_nodes_empty]
    intro heq
    cases heq

/-- The directory is made in an empty tree. -/
theorem makeDirectories_empty :
    fileSystem.makeDirectories "out" (empty []) = (.ok (), fresh) := by
  have hancestors : Path.ancestors "out" = ["out"] := by decide +kernel
  have hparts : ((Path.parts "out").reverse.dropWhile (· = "")).reverse = ["out"] := by
    decide +kernel
  have hcheck : checkPath "out" = .ok () :=
    checkPath_eq_ok (by decide +kernel) (by decide +kernel) (by decide +kernel)
  have hfollow : (empty []).follow ((empty []).start "out") ["out"] = .ok (.vacant ["out"]) := by
    rw [start_eq rfl]
    exact follow_cons_eq_ok.mpr (.inr ⟨rfl, .vacant isName_out (getElem?_nodes_empty _)⟩)
  have hmade : (empty []).makeDirectory "out" = .ok fresh := by
    unfold makeDirectory
    rw [hparts]
    exact bind_eq_ok.mpr ⟨(), hcheck, bind_eq_ok.mpr ⟨_, hfollow, rfl⟩⟩
  have hrun : fileSystem.makeDirectory "out" (empty []) = (.ok (), fresh) :=
    outcome_eq_ok.mpr hmade
  unfold FileSystem.makeDirectories
  rw [hancestors]
  unfold FileSystem.makeFirst
  change StateT.bind (fileSystem.makeDirectory "out") _ (empty []) = _
  unfold StateT.bind
  rw [hrun]
  rfl

/-- A corpus whose artifacts can be written is stored in a new directory of an empty tree. -/
theorem exists_store (hartifacts : ∀ artifact, ∃ bytes, corpus.artifact artifact = .ok bytes) :
    ∃ after, (Build.store fileSystem "out" corpus).run (empty []) = (.ok (), after) := by
  obtain ⟨after, hafter⟩ := ready_fresh.exists_writeArtifacts hartifacts Artifact.all
  exact ⟨after, run_bind_eq_ok.mpr
    ⟨(), fresh, Build.run_orFail_eq_ok.mpr makeDirectories_empty, hafter⟩⟩

end FileTree

end Concordance
