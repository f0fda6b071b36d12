import Deferral.Proofs.Audit.Source
import Deferral.Proofs.Audit.Tree

/-!
# What an audit finds

An audit goes through the source files at or below a path in the order of their paths. Which files
these are and what is found in them depends on what the tree holds there, and not on the order in
which directories list their entries. Each file contributes what is found in it, and nothing if it
is no text, whatever the other files are.

Main statements:
* `mem_sourcesBelow_iff`: the source files at or below a path.
* `eq_of_increasing`: their list is determined by which files they are.
* `audit_complete`: what is found in a tree, and what it depends on.
-/

namespace Deferral.Audit

open Node

/-- A file with the content is where the names lead from the path. -/
def FileAt (root : Node) (path : String) (names : List String) (content : ByteArray) : Prop :=
  ∃ node, root.find? path = some node ∧ node.at? names = some (.file content)

/-- The text of the file at a path, if there is one that is a text. -/
def Node.text? (root : Node) (path : String) : Option String :=
  (root.find? path).bind fun node => node.content?.bind fun content => String.fromUTF8? content

/-- The violations in a file, of which there are none if it is no text. -/
def scanFile (path : String) (content : ByteArray) (patterns : List (List Char)) : List Violation :=
  (String.fromUTF8? content).elim [] fun text => scanSource path text.toList patterns

/-- The violation is reported before the other one: in an earlier file, or in an earlier line. -/
def Violation.Before (v v' : Violation) : Prop :=
  components v.path < components v'.path ∨ v.path = v'.path ∧ v.line < v'.line

variable {root root' : Node} {path : String} {names : List String} {content : ByteArray}
  {patterns : List (List Char)}

/-! ## Files -/

/-- The violations of a source text have its path and are in the order of its lines. -/
theorem pairwise_scanSource (path : String) (source : List Char) (patterns : List (List Char)) :
    (scanSource path source patterns).Pairwise Violation.Before := by
  rw [scanSource, List.pairwise_map]
  exact ((pairwise_productionLines source).sublist List.filter_sublist).imp fun h => .inr ⟨rfl, h⟩

/-- What is found in a file is found at its path. -/
theorem path_eq_of_mem_scanFile {v : Violation} (h : v ∈ scanFile path content patterns) :
    v.path = path := by
  rw [scanFile] at h
  cases hcontent : String.fromUTF8? content with
  | none => simp [hcontent] at h
  | some text =>
    rw [hcontent, Option.elim_some] at h
    exact (mem_scanSource_iff.mp h).1

/-! ## Source files -/

/-- The source files at or below a path with their contents, in order. -/
def sourcesBelow (path : String) (root : Node) : List (List String × ByteArray) :=
  (root.find? path).elim [] fun node =>
    (node.files.filter fun f => isSourceName (f.1.getLast?.getD (lastName path))).mergeSort
      fun a b => pathLe a.1 b.1

/-- The files are listed with their paths. -/
theorem sourceFiles_eq (path : String) (root : Node) :
    sourceFiles path root = (sourcesBelow path root).map fun f => (extend path f.1, f.2) := by
  rw [sourceFiles, sourcesBelow]
  cases root.find? path <;> rfl

/-- They are scanned one after the other. -/
theorem scan_eq_flatMap (path : String) (root : Node) (patterns : List (List Char)) :
    scan path root patterns =
      (sourcesBelow path root).flatMap fun f => scanFile (extend path f.1) f.2 patterns := by
  rw [scan, sourceFiles_eq, List.flatMap_map]
  refine List.flatMap_congr fun f _ => ?_
  rw [scanFile]
  cases String.fromUTF8? f.2 <;> rfl

/-- The names that lead to a file from a path are names. -/
theorem FileAt.isName (h : root.WellFormed) (hfile : FileAt root path names content) :
    ∀ n ∈ names, IsName n := by
  obtain ⟨node, hfind, hat⟩ := hfile
  exact ((h.find? hfind).at? hat).2

/-- The path to a file below a path leads to it. -/
theorem FileAt.find? (h : root.WellFormed) (hfile : FileAt root path names content) :
    root.find? (extend path names) = some (.file content) := by
  obtain ⟨node, hfind, hat⟩ := hfile
  exact find?_extend ((h.find? hfind).at? hat).2 hfind hat

/-- The source files at or below a path are the files there whose names are those of sources. -/
theorem mem_sourcesBelow_iff (h : root.WellFormed) : (names, content) ∈ sourcesBelow path root ↔
    FileAt root path names content ∧ IsSource (lastName (extend path names)) := by
  rw [sourcesBelow]
  cases hfind : root.find? path with
  | none => simp [FileAt, hfind]
  | some node =>
    rw [Option.elim_some, List.mem_mergeSort, List.mem_filter, mem_files_iff (h.find? hfind)]
    have hfile : FileAt root path names content ↔ node.at? names = some (.file content) := by
      simp [FileAt, hfind]
    rw [hfile]
    refine and_congr_right fun hat => ?_
    rw [lastName_extend path ((h.find? hfind).at? hat).2, isSourceName_iff]

/-- Sorted files are in the order of the names that lead to them. -/
theorem pairwise_mergeSort (fs : List (List String × ByteArray)) :
    (fs.mergeSort fun f g => pathLe f.1 g.1).Pairwise fun f g => pathLe f.1 g.1 = true := by
  apply List.pairwise_mergeSort
  · intro f g k hfg hgk
    exact pathLe_trans hfg hgk
  · intro f g
    exact pathLe_total f.1 g.1

/-- They are in the order of the names that lead to them, without repetition. -/
theorem pairwise_sourcesBelow (h : root.WellFormed) (path : String) :
    (sourcesBelow path root).Pairwise fun f g => f.1 < g.1 := by
  rw [sourcesBelow]
  cases hfind : root.find? path with
  | none => exact List.Pairwise.nil
  | some node =>
    rw [Option.elim_some]
    -- Sorting gives the order, and that no file is met twice makes it strict.
    have hsorted := pairwise_mergeSort
      (node.files.filter fun f => isSourceName (f.1.getLast?.getD (lastName path)))
    have hdistinct := (h.find? hfind).pairwise_files.sublist
      (List.filter_sublist (p := fun f => isSourceName (f.1.getLast?.getD (lastName path))))
    have hdistinct' := ((List.mergeSort_perm _ fun f g => pathLe f.1 g.1).pairwise_iff Ne.symm).mpr
      hdistinct
    exact (hsorted.and hdistinct').imp fun hfg => ((pathLe_iff _ _).mp hfg.1).resolve_left hfg.2

/-- Lists of files in strict order are the same if they have the same files. -/
theorem eq_of_increasing {fs gs : List (List String × ByteArray)}
    (hfs : fs.Pairwise fun f g => f.1 < g.1) (hgs : gs.Pairwise fun f g => f.1 < g.1)
    (hmem : ∀ f, f ∈ fs ↔ f ∈ gs) : fs = gs := by
  have hnodup {l : List (List String × ByteArray)} (hl : l.Pairwise fun f g => f.1 < g.1) :
      l.Nodup := by
    refine hl.imp fun hlt => ?_
    rintro rfl
    exact List.lt_irrefl _ hlt
  have hperm : fs.Perm gs := (List.perm_ext_iff_of_nodup (hnodup hfs) (hnodup hgs)).mpr hmem
  exact hperm.eq_of_pairwise (fun f g _ _ hfg hgf => absurd hgf (List.lt_asymm hfg)) hfs hgs

/-- The trees have the same files at or below the path, except perhaps the one that
the names lead to. -/
def SameButOne (path : String) (names : List String) (root root' : Node) : Prop :=
  ∀ names' content, names' ≠ names →
    (FileAt root path names' content ↔ FileAt root' path names' content)

/-- Trees with the same files have the same source files. -/
theorem sourcesBelow_congr (h : root.WellFormed) (h' : root'.WellFormed)
    (hsame : ∀ names content, FileAt root path names content ↔ FileAt root' path names content) :
    sourcesBelow path root = sourcesBelow path root' := by
  refine eq_of_increasing (pairwise_sourcesBelow h path) (pairwise_sourcesBelow h' path) ?_
  rintro ⟨names, content⟩
  rw [mem_sourcesBelow_iff h, mem_sourcesBelow_iff h', hsame]

/-- Trees with the same files but for one have the same source files but for that one. -/
theorem SameButOne.filter_sourcesBelow (hsame : SameButOne path names root root')
    (h : root.WellFormed) (h' : root'.WellFormed) :
    (sourcesBelow path root).filter (fun f => f.1 ≠ names) =
      (sourcesBelow path root').filter fun f => f.1 ≠ names := by
  refine eq_of_increasing ((pairwise_sourcesBelow h path).sublist List.filter_sublist)
    ((pairwise_sourcesBelow h' path).sublist List.filter_sublist) ?_
  rintro ⟨names', content⟩
  rw [List.mem_filter, List.mem_filter, mem_sourcesBelow_iff h, mem_sourcesBelow_iff h']
  refine and_congr_left fun hne => ?_
  rw [hsame names' content (of_decide_eq_true hne)]

/-- Alike trees have the same files. -/
theorem fileAt_congr (halike : root.Alike root') (path : String) (names : List String)
    (content : ByteArray) : FileAt root path names content ↔ FileAt root' path names content := by
  simp only [FileAt, at?_eq_file_iff]
  have hfind := matching_alike.find? halike path
  generalize root.find? path = node at hfind ⊢
  generalize root'.find? path = node' at hfind ⊢
  cases hfind with
  | none => simp
  | some hnode => simp [hnode names]

/-! ## What is found -/

/-- The sources are listed by their paths. -/
theorem sources_eq (path : String) (root : Node) :
    sources path root = (sourcesBelow path root).map fun f => extend path f.1 := by
  rw [sources, sourceFiles_eq, List.map_map]
  rfl

/-- The names that lead to a source file are names. -/
theorem isName_of_mem_sourcesBelow (h : root.WellFormed) {f : List String × ByteArray}
    (hf : f ∈ sourcesBelow path root) : ∀ n ∈ f.1, IsName n :=
  ((mem_sourcesBelow_iff h).mp hf).1.isName h

/-- Earlier source files have smaller paths. -/
theorem pairwise_components (h : root.WellFormed) (path : String) :
    (sourcesBelow path root).Pairwise fun f g =>
      components (extend path f.1) < components (extend path g.1) := by
  refine (pairwise_sourcesBelow h path).imp_of_mem fun hf hg hlt => ?_
  rw [components_extend path (isName_of_mem_sourcesBelow h hf),
    components_extend path (isName_of_mem_sourcesBelow h hg)]
  exact List.append_left_lt hlt

/-- There is only one source file of a path. -/
theorem filter_sourcesBelow_eq_singleton (h : root.WellFormed) {f : List String × ByteArray}
    (hf : f ∈ sourcesBelow path root) :
    (sourcesBelow path root).filter (fun g => extend path g.1 = extend path f.1) = [f] := by
  refine eq_of_increasing ((pairwise_sourcesBelow h path).sublist List.filter_sublist)
    (List.pairwise_singleton _ _) fun g => ?_
  rw [List.mem_filter, decide_eq_true_iff, List.mem_singleton]
  constructor
  · rintro ⟨hg, hpath⟩
    -- The path determines the names that lead to the file, and so the file.
    have hnames :=
      extend_inj path (isName_of_mem_sourcesBelow h hg) (isName_of_mem_sourcesBelow h hf) hpath
    have hfind := ((mem_sourcesBelow_iff h).mp hg).1.find? h
    rw [hpath, ((mem_sourcesBelow_iff h).mp hf).1.find? h] at hfind
    have hcontent : f.2 = g.2 := by simpa using hfind
    exact Prod.ext hnames hcontent.symm
  · rintro rfl
    exact ⟨hf, rfl⟩

/-- What is found at some of the paths is found in the files with these paths. -/
theorem filter_scan (keep : String → Bool) (path : String) (root : Node)
    (patterns : List (List Char)) : (scan path root patterns).filter (fun v => keep v.path) =
      ((sourcesBelow path root).filter fun f => keep (extend path f.1)).flatMap
        fun f => scanFile (extend path f.1) f.2 patterns := by
  rw [scan_eq_flatMap]
  induction sourcesBelow path root with
  | nil => rfl
  | cons f fs ih =>
    -- All that is found in a file has its path, so it is kept or left out as a whole.
    have hfile : (scanFile (extend path f.1) f.2 patterns).filter (fun v => keep v.path) =
        if keep (extend path f.1) then scanFile (extend path f.1) f.2 patterns else [] := by
      split
      next hkeep =>
        exact List.filter_eq_self.mpr fun v hv => by rw [path_eq_of_mem_scanFile hv, hkeep]
      next hkeep =>
        exact List.filter_eq_nil_iff.mpr fun v hv => by rwa [path_eq_of_mem_scanFile hv]
    rw [List.flatMap_cons, List.filter_append, hfile, ih, List.filter_cons]
    split
    next => rw [List.flatMap_cons]
    next => rw [List.nil_append]

/-- A source file is read at its path. -/
theorem elim_text?_eq (h : root.WellFormed) {f : List String × ByteArray}
    (hf : f ∈ sourcesBelow path root) :
    ((root.text? (extend path f.1)).elim [] fun text =>
      scanSource (extend path f.1) text.toList patterns) =
      scanFile (extend path f.1) f.2 patterns := by
  rw [Node.text?, ((mem_sourcesBelow_iff h).mp hf).1.find? h]
  rfl

/-- What an audit of the path finds in a tree, and what that depends on. -/
structure Audits (path : String) (root : Node) : Prop where
  /-- The sources are the files at or below the path whose names are those of sources. -/
  mem_iff : ∀ p, p ∈ sources path root ↔
    ∃ names content, FileAt root path names content ∧ p = extend path names ∧ IsSource (lastName p)
  /-- Each is listed once. -/
  nodup : (sources path root).Nodup
  /-- They are in the order of their paths, component by component. -/
  increasing : (sources path root).Pairwise fun p q => components p < components q
  /-- What is found is what is found in the one after the other of them that are texts. -/
  scan_eq : ∀ patterns, scan path root patterns = (sources path root).flatMap fun p =>
    (root.text? p).elim [] fun text => scanSource p text.toList patterns
  /-- It is in the order of the paths and lines. -/
  violations_increasing : ∀ patterns, (scan path root patterns).Pairwise Violation.Before
  /-- What is found in a source depends on its text only, and if it is no text, it is nothing. -/
  of_source : ∀ patterns, ∀ p ∈ sources path root,
    (scan path root patterns).filter (fun v => v.path = p) =
      (root.text? p).elim [] fun text => scanSource p text.toList patterns
  /-- The order in which directories list their entries does not show. -/
  listed : ∀ root', root'.WellFormed → root.Alike root' →
    sources path root' = sources path root ∧
      ∀ patterns, scan path root' patterns = scan path root patterns
  /-- Nor does the order in which the tree was made. -/
  made : ∀ items items', Compatible items → items.Perm items' → root = make items →
    sources path (make items') = sources path root ∧
      ∀ patterns, scan path (make items') patterns = scan path root patterns
  /-- If one file is added, removed or changed, nothing else changes than what is
  found in that file. -/
  one_file : ∀ root' names, root'.WellFormed → SameButOne path names root root' → ∀ patterns,
    (scan path root' patterns).filter (fun v => v.path ≠ extend path names) =
      (scan path root patterns).filter fun v => v.path ≠ extend path names

/-- Alike trees are audited alike. -/
theorem audit_congr (h : root.WellFormed) (h' : root'.WellFormed) (halike : root.Alike root')
    (path : String) : sources path root' = sources path root ∧
      ∀ patterns, scan path root' patterns = scan path root patterns := by
  have hbelow :=
    sourcesBelow_congr h' h fun names content => (fileAt_congr halike path names content).symm
  constructor
  · rw [sources_eq, sources_eq, hbelow]
  · intro patterns
    rw [scan_eq_flatMap, scan_eq_flatMap, hbelow]

/-- What is found outside of a file does not depend on it. -/
theorem SameButOne.filter_scan (hsame : SameButOne path names root root') (h : root.WellFormed)
    (h' : root'.WellFormed) (patterns : List (List Char)) :
    (scan path root' patterns).filter (fun v => v.path ≠ extend path names) =
      (scan path root patterns).filter fun v => v.path ≠ extend path names := by
  -- A file with another path is reached by other names.
  have hother (fs : List (List String × ByteArray)) :
      fs.filter (fun f => extend path f.1 ≠ extend path names) =
        (fs.filter fun f => f.1 ≠ names).filter fun f => extend path f.1 ≠ extend path names := by
    rw [List.filter_filter]
    refine List.filter_congr fun f _ => ?_
    by_cases hnames : f.1 = names <;> simp [hnames]
  rw [Audit.filter_scan (fun p => p ≠ extend path names),
    Audit.filter_scan (fun p => p ≠ extend path names), hother, hother (sourcesBelow path root),
    hsame.filter_sourcesBelow h h']

/-- For every tree, every path in it and all patterns, an audit is complete and ordered, and does
not depend on the order in which the tree is gone through. -/
theorem audit_complete (h : root.WellFormed) (path : String) : Audits path root := by
  have hsorted := pairwise_components h path
  have hincreasing : (sources path root).Pairwise fun p q => components p < components q := by
    rw [sources_eq, List.pairwise_map]
    exact hsorted
  refine ⟨fun p => ?_, ?_, hincreasing, fun patterns => ?_, fun patterns => ?_, ?_,
    fun root' h' halike => audit_congr h h' halike path, ?_,
    fun root' names h' hsame patterns => hsame.filter_scan h h' patterns⟩
  · rw [sources_eq, List.mem_map]
    constructor
    · rintro ⟨⟨names, content⟩, hf, rfl⟩
      obtain ⟨hfile, hsource⟩ := (mem_sourcesBelow_iff h).mp hf
      exact ⟨names, content, hfile, rfl, hsource⟩
    · rintro ⟨names, content, hfile, rfl, hsource⟩
      exact ⟨(names, content), (mem_sourcesBelow_iff h).mpr ⟨hfile, hsource⟩, rfl⟩
  · refine hincreasing.imp fun hlt => ?_
    rintro rfl
    exact List.lt_irrefl _ hlt
  · rw [scan_eq_flatMap, sources_eq, List.flatMap_map]
    exact List.flatMap_congr fun f hf => (elim_text?_eq h hf).symm
  · rw [scan_eq_flatMap, List.pairwise_flatMap]
    -- Within a file the lines decide, and between files the paths.
    refine ⟨fun f _ => ?_, hsorted.imp fun hlt v hv v' hv' => .inl ?_⟩
    · rw [scanFile]
      cases String.fromUTF8? f.2 with
      | none => exact List.Pairwise.nil
      | some text => exact pairwise_scanSource _ _ _
    · rw [path_eq_of_mem_scanFile hv, path_eq_of_mem_scanFile hv']
      exact hlt
  · intro patterns p hp
    rw [sources_eq] at hp
    obtain ⟨f, hf, rfl⟩ := List.mem_map.mp hp
    rw [Audit.filter_scan (fun p => p = extend path f.1), filter_sourcesBelow_eq_singleton h hf,
      elim_text?_eq h hf]
    exact List.flatMap_singleton _ _
  · rintro items items' hcompatible hperm rfl
    exact audit_congr h (wellFormed_make (hcompatible.perm hperm)) (make_alike hcompatible hperm) path

/-- A directory with sources at several depths. One of them is no text, and one is in a directory
whose name is that of a source. -/
def crate : List (List String × Option ByteArray) :=
  [(["src", "a-b.rs"], some "a.unwrap()\n".toUTF8), (["src", "c.rs"], none),
    (["src", "c.rs", "d.rs"], some ⟨#[255]⟩), (["src", "a", "b.rs"], some "b.unwrap()\n".toUTF8),
    (["src", ".rs"], some "c.unwrap()\n".toUTF8)]

/-- The tree is in order, holds a source in a directory named like one, and is audited. -/
theorem audits_crate : (make crate).WellFormed ∧
    FileAt (make crate) "src" ["c.rs", "d.rs"] ⟨#[255]⟩ ∧ Audits "src" (make crate) := by
  have hcompatible : Compatible crate := ⟨by decide +kernel, by decide +kernel, by decide +kernel⟩
  have hwellFormed := wellFormed_make hcompatible
  exact ⟨hwellFormed, ⟨_, rfl, rfl⟩, audit_complete hwellFormed "src"⟩

end Deferral.Audit
