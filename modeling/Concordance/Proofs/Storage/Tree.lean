import Concordance.Proofs.Except
import Concordance.Storage.Tree

/-!
# Files in a tree

A file that is put where no directory is changes what leads to that file, and nothing else
(`FileTree.follow_put`), and paths that end in different names lead to different files
(`FileTree.getLast?_of_follow`). So a file holds what was written into it, until a file of its own
name is written.

- `FileTree.Passes`, `FileTree.Ends`: what one part of a path does, in the middle of a path and at
  its end. All that is said about following paths is said about these.
-/

namespace Concordance

/-! ## The last part of a path -/

namespace Path

theorem endsWith_slash_iff {base : String} :
    base.endsWith "/" = true ↔ ['/'] <:+ base.toList := by
  rw [String.endsWith_eq_endsWith_toSlice, String.Slice.endsWith_string_iff, String.copy_toSlice]
  rfl

variable {base name : String}

/-- A name at the start of a path or behind a slash is its last part. -/
theorem getLast?_parts_append (hname : '/' ∉ name.toList)
    (hbase : base = "" ∨ base.endsWith "/" = true) :
    (parts (base ++ name)).getLast? = some name := by
  have hone : name.toList.splitOn '/' = [name.toList] := List.splitOn_eq_singleton hname
  rw [parts, String.toList_append]
  rcases hbase with rfl | hslash
  · rw [String.toList_empty, List.nil_append, hone, List.map_singleton, String.ofList_toList]
    rfl
  · obtain ⟨front, hfront⟩ := endsWith_slash_iff.mp hslash
    rw [← hfront, List.append_assoc, List.singleton_append, List.splitOn_append_cons_self, hone,
      List.map_append, List.map_singleton, String.ofList_toList]
    exact List.getLast?_concat

/-- A name is the last part of its path below any directory. -/
theorem getLast?_parts_join (hname : '/' ∉ name.toList) (base : String) :
    (parts (join base name)).getLast? = some name := by
  unfold join
  split
  case isTrue =>
    have hempty := getLast?_parts_append hname (.inl rfl)
    rwa [String.empty_append] at hempty
  case isFalse =>
    split
    case isTrue hbase =>
      refine getLast?_parts_append hname ?_
      simpa using hbase
    case isFalse =>
      refine getLast?_parts_append hname (.inr ?_)
      rw [endsWith_slash_iff, String.toList_append]
      exact List.suffix_append _ _

end Path

namespace FileTree

variable {tree grown : FileTree} {here next names parts : List String} {part path other : String}
  {location : Location} {bytes found : ByteArray}

/-- The tree with a file of the given bytes. -/
def put (tree : FileTree) (names : List String) (bytes : ByteArray) : FileTree :=
  { tree with nodes := tree.nodes.insert names (.file bytes) }

theorem getElem?_nodes_put_self (tree : FileTree) (names : List String) (bytes : ByteArray) :
    (tree.put names bytes).nodes[names]? = some (.file bytes) :=
  Std.HashMap.getElem?_insert_self

theorem getElem?_nodes_put_of_ne {others : List String} (hne : names ≠ others) :
    (tree.put names bytes).nodes[others]? = tree.nodes[others]? := by
  rw [put, Std.HashMap.getElem?_insert, if_neg (by simpa using hne)]

namespace Location

/-- The names of a file, or of what could be one. -/
def names? : Location → Option (List String)
  | .directory _ => none
  | .file names _ => some names
  | .vacant names => some names

/-- What a path leads to after a file was put. -/
def put (location : Location) (names : List String) (bytes : ByteArray) : Location :=
  if location.names? = some names then .file names bytes else location

end Location

/-! ## Following paths -/

/-- A part of a path that a directory is searched for. -/
def IsName (part : String) : Prop :=
  ¬(part = "" ∨ part = ".") ∧ part ≠ ".." ∧ ¬maxName < part.utf8ByteSize

/-- A part of a path leads from a directory to a directory. -/
inductive Passes (tree : FileTree) (here : List String) (part : String) : List String → Prop where
  | stay (h : part = "" ∨ part = ".") : Passes tree here part here
  | leave (h : part = "..") : Passes tree here part here.dropLast
  | enter (h : IsName part) (hnode : tree.nodes[here ++ [part]]? = some .directory) :
      Passes tree here part (here ++ [part])

/-- The last part of a path leads from a directory to something else. -/
inductive Ends (tree : FileTree) (here : List String) (part : String) : Location → Prop where
  | file (h : IsName part) {bytes : ByteArray}
      (hnode : tree.nodes[here ++ [part]]? = some (.file bytes)) :
      Ends tree here part (.file (here ++ [part]) bytes)
  | vacant (h : IsName part) (hnode : tree.nodes[here ++ [part]]? = none) :
      Ends tree here part (.vacant (here ++ [part]))

/-- A path is followed part by part. -/
theorem follow_cons_eq_ok : tree.follow here (part :: parts) = .ok location
    ↔ (∃ next, tree.Passes here part next ∧ tree.follow next parts = .ok location)
      ∨ (parts = [] ∧ tree.Ends here part location) := by
  rw [follow]
  constructor
  · intro h
    split at h
    case isTrue hstay => exact .inl ⟨here, .stay hstay, h⟩
    case isFalse hstay =>
      split at h
      case isTrue hleave => exact .inl ⟨_, .leave hleave, h⟩
      case isFalse hleave =>
        split at h
        case isTrue => cases h
        case isFalse hshort =>
          have hname : IsName part := ⟨hstay, hleave, hshort⟩
          simp only at h
          split at h
          case h_1 hnode => exact .inl ⟨_, .enter hname hnode, h⟩
          case h_2 hnode =>
            split at h
            case isTrue hend =>
              cases h
              exact .inr ⟨hend, .file hname hnode⟩
            case isFalse => cases h
          case h_3 hnode =>
            split at h
            case isTrue hend =>
              cases h
              exact .inr ⟨hend, .vacant hname hnode⟩
            case isFalse => cases h
  · rintro (⟨next, hpasses, h⟩ | ⟨rfl, hends⟩)
    · cases hpasses with
      | stay hstay => rw [if_pos hstay, h]
      | leave hleave => rw [if_neg (by rw [hleave]; decide), if_pos hleave, h]
      | enter hname hnode =>
        rw [if_neg hname.1, if_neg hname.2.1, if_neg hname.2.2]
        simp only [hnode, h]
    · cases hends with
      | file hname hnode =>
        rw [if_neg hname.1, if_neg hname.2.1, if_neg hname.2.2]
        simp only [hnode, if_true]
      | vacant hname hnode =>
        rw [if_neg hname.1, if_neg hname.2.1, if_neg hname.2.2]
        simp only [hnode, if_true]

/-- The last part is the last of the names. -/
theorem Ends.names?_eq (h : tree.Ends here part location) :
    location.names? = some (here ++ [part]) := by
  cases h <;> rfl

theorem Ends.not_directory (h : tree.Ends here part location) :
    tree.nodes[here ++ [part]]? ≠ some .directory := by
  cases h with
  | file _ hnode =>
    rw [hnode]
    intro heq
    cases heq
  | vacant _ hnode =>
    rw [hnode]
    intro heq
    cases heq

/-- What a path leads to is no directory in the tree, if it is none. -/
theorem not_directory_of_follow (h : tree.follow here parts = .ok location)
    (hnames : location.names? = some names) : tree.nodes[names]? ≠ some .directory := by
  induction parts generalizing here with
  | nil =>
    cases h
    cases hnames
  | cons part parts ih =>
    rcases follow_cons_eq_ok.mp h with ⟨next, -, hnext⟩ | ⟨-, hends⟩
    · exact ih hnext
    · obtain rfl := Option.some.inj (hends.names?_eq.symm.trans hnames)
      exact hends.not_directory

/-- A file takes no directory away, if it is put where there is none. -/
theorem Passes.put (hplace : tree.nodes[names]? ≠ some .directory)
    (h : tree.Passes here part next) : (tree.put names bytes).Passes here part next := by
  cases h with
  | stay hstay => exact .stay hstay
  | leave hleave => exact .leave hleave
  | enter hname hnode =>
    have hne : names ≠ here ++ [part] := by
      rintro rfl
      exact hplace hnode
    exact .enter hname ((getElem?_nodes_put_of_ne hne).trans hnode)

/-- Behind the last part of a path is the file, if it was put there. -/
theorem Ends.put (names : List String) (bytes : ByteArray) (h : tree.Ends here part location) :
    (tree.put names bytes).Ends here part (location.put names bytes) := by
  rw [Location.put, h.names?_eq]
  by_cases heq : here ++ [part] = names
  · subst heq
    rw [if_pos rfl]
    cases h with
    | file hname _ => exact .file hname (getElem?_nodes_put_self _ _ _)
    | vacant hname _ => exact .file hname (getElem?_nodes_put_self _ _ _)
  · rw [if_neg fun hsome => heq (Option.some.inj hsome)]
    have hsame : (tree.put names bytes).nodes[here ++ [part]]? = tree.nodes[here ++ [part]]? :=
      getElem?_nodes_put_of_ne (Ne.symm heq)
    cases h with
    | file hname hnode => exact .file hname (hsame.trans hnode)
    | vacant hname hnode => exact .vacant hname (hsame.trans hnode)

/-- A file changes only what leads to the file. -/
theorem follow_put (hplace : tree.nodes[names]? ≠ some .directory)
    (h : tree.follow here parts = .ok location) :
    (tree.put names bytes).follow here parts = .ok (location.put names bytes) := by
  induction parts generalizing here with
  | nil =>
    cases h
    rfl
  | cons part parts ih =>
    rw [follow_cons_eq_ok] at h ⊢
    rcases h with ⟨next, hpasses, hnext⟩ | ⟨hend, hends⟩
    · exact .inl ⟨next, hpasses.put hplace, ih hnext⟩
    · exact .inr ⟨hend, hends.put names bytes⟩

/-- What a path leads to has the name that the path ends in, unless it is a directory. -/
theorem getLast?_of_follow (h : tree.follow here parts = .ok location)
    (hnames : location.names? = some names) : names.getLast? = parts.getLast? := by
  induction parts generalizing here with
  | nil =>
    cases h
    cases hnames
  | cons part parts ih =>
    rcases follow_cons_eq_ok.mp h with ⟨next, hpasses, hnext⟩ | ⟨rfl, hends⟩
    · cases parts with
      | nil =>
        -- a path that has passed its last part leads to a directory
        cases hnext
        cases hnames
      | cons later parts =>
        rw [List.getLast?_cons_cons]
        exact ih hnext
    · obtain rfl := Option.some.inj (hends.names?_eq.symm.trans hnames)
      exact List.getLast?_concat

/-! ## Reading and writing -/

/-- A text is a path if it is neither empty nor too long and has no null character. -/
theorem checkPath_eq_ok (hnull : '\x00' ∉ path.toList) (hne : path ≠ "")
    (hsize : path.utf8ByteSize ≤ maxPath) : checkPath path = .ok () := by
  have hany : path.any (· = '\x00') = path.toList.any (· = '\x00') := String.contains_prop_eq
  have hnone : ¬path.any (· = '\x00') = true := by
    rw [hany]
    simpa using hnull
  rw [checkPath, if_neg hnone, if_neg hne, if_neg (Nat.not_lt.mpr hsize)]

theorem locate_eq_ok : tree.locate path = .ok location
    ↔ checkPath path = .ok () ∧ tree.follow (tree.start path) (Path.parts path) = .ok location := by
  rw [locate, bind_eq_ok]
  constructor
  · rintro ⟨⟨⟩, hcheck, hfollow⟩
    exact ⟨hcheck, hfollow⟩
  · rintro ⟨hcheck, hfollow⟩
    exact ⟨(), hcheck, hfollow⟩

theorem read_eq_ok : tree.read path = .ok bytes
    ↔ ∃ names, tree.locate path = .ok (.file names bytes) := by
  rw [read, bind_eq_ok]
  constructor
  · rintro ⟨location, hlocate, h⟩
    cases location with
    | file names old =>
      cases h
      exact ⟨names, hlocate⟩
    | vacant names => cases h
    | directory names => cases h
  · rintro ⟨names, hlocate⟩
    exact ⟨_, hlocate, rfl⟩

theorem write_eq_ok : tree.write path bytes = .ok grown
    ↔ ∃ location names, tree.locate path = .ok location ∧ location.names? = some names
      ∧ grown = tree.put names bytes := by
  rw [write, bind_eq_ok]
  constructor
  · rintro ⟨location, hlocate, h⟩
    cases location with
    | file names old =>
      cases h
      exact ⟨_, names, hlocate, rfl, rfl⟩
    | vacant names =>
      cases h
      exact ⟨_, names, hlocate, rfl, rfl⟩
    | directory names => cases h
  · rintro ⟨location, names, hlocate, hnames, rfl⟩
    refine ⟨location, hlocate, ?_⟩
    cases location <;> cases hnames <;> rfl

/-- What a path leads to after a file was put. -/
theorem locate_put (hplace : tree.nodes[names]? ≠ some .directory)
    (h : tree.locate path = .ok location) :
    (tree.put names bytes).locate path = .ok (location.put names bytes) := by
  obtain ⟨hcheck, hfollow⟩ := locate_eq_ok.mp h
  exact locate_eq_ok.mpr ⟨hcheck, follow_put hplace hfollow⟩

/-- A file that was written holds the bytes. -/
theorem read_of_write (h : tree.write path bytes = .ok grown) : grown.read path = .ok bytes := by
  obtain ⟨location, names, hlocate, hnames, rfl⟩ := write_eq_ok.mp h
  have hplace := not_directory_of_follow (locate_eq_ok.mp hlocate).2 hnames
  refine read_eq_ok.mpr ⟨names, ?_⟩
  rw [locate_put hplace hlocate, Location.put, if_pos hnames]

/-- A file of another name holds what it held. -/
theorem read_of_write_of_ne (hne : (Path.parts path).getLast? ≠ (Path.parts other).getLast?)
    (h : tree.write path bytes = .ok grown) (hread : tree.read other = .ok found) :
    grown.read other = .ok found := by
  obtain ⟨location, names, hlocate, hnames, rfl⟩ := write_eq_ok.mp h
  obtain ⟨otherNames, hother⟩ := read_eq_ok.mp hread
  have hfollow := (locate_eq_ok.mp hlocate).2
  have hend := getLast?_of_follow hfollow hnames
  have hotherEnd : otherNames.getLast? = (Path.parts other).getLast? :=
    getLast?_of_follow (locate_eq_ok.mp hother).2 rfl
  have hdiffer : ¬(Location.file otherNames found).names? = some names := by
    intro heq
    cases heq
    exact hne (hend.symm.trans hotherEnd)
  refine read_eq_ok.mpr ⟨otherNames, ?_⟩
  rw [locate_put (not_directory_of_follow hfollow hnames) hother, Location.put, if_neg hdiffer]

end FileTree

end Concordance
