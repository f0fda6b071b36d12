import Deferral.Proofs.Audit.Path
import Mathlib.Data.List.Induction

/-!
# What a tree of files holds

A tree lists the entries of its directories in some order. What it holds does not depend on that
order: at each place, which is a list of names, there is a file with its content, a directory, or
nothing. Trees that hold the same are alike, and every path leads to the same in them.

Main statements:
* `Node.mem_files_iff` and `Node.WellFormed.pairwise_files`: the files of a tree, each of
  which is met once.
* `Node.find?_extend`: where a path leads with names behind it.
* `Node.Matching.find?`: a path leads to related nodes in related trees.
* `Node.made_make` and `Node.make_alike`: what is in a tree that was made, and that the order in
  which it was made does not show.
-/

namespace Deferral.Audit.Node

/-- The node that names lead to, entry by entry. -/
def at? : List String → Node → Option Node
  | [], node => some node
  | _ :: _, .file _ => none
  | name :: names, .directory entries => (entries.lookup name).bind (at? names)

/-- The content of a file. A directory has none. -/
def content? : Node → Option ByteArray
  | .file content => some content
  | .directory _ => none

/-- What is at the place that names lead to, if anything: a file with its content,
or a directory. -/
def look? (names : List String) (node : Node) : Option (Option ByteArray) :=
  (at? names node).map content?

/-- The entries of every directory have names, and no two of them the same one. -/
inductive WellFormed : Node → Prop
  /-- A file has no entries. -/
  | file (content : ByteArray) : WellFormed (.file content)
  /-- A directory has entries that are in order themselves. -/
  | directory {entries : List (String × Node)} (names : ∀ e ∈ entries, IsName e.1)
      (nodup : (entries.map Prod.fst).Nodup) (nodes : ∀ e ∈ entries, WellFormed e.2) :
      WellFormed (.directory entries)

/-- There is the same at every place. -/
def Alike (node node' : Node) : Prop :=
  ∀ names, node.look? names = node'.look? names

variable {node node' : Node} {entries : List (String × Node)} {name : String} {names : List String}
  {content : ByteArray}

/-! ## Entries -/

/-- An entry is found by its name if no other one has it. -/
theorem mem_iff_lookup (h : (entries.map Prod.fst).Nodup) :
    (name, node) ∈ entries ↔ entries.lookup name = some node := by
  induction entries with
  | nil => simp
  | cons e entries ih =>
    obtain ⟨m, node'⟩ := e
    rw [List.map_cons, List.nodup_cons] at h
    rw [List.mem_cons, Prod.mk.injEq, List.lookup_cons]
    by_cases hname : name = m
    · subst hname
      have hno : (name, node) ∉ entries := fun hmem =>
        h.1 (List.mem_map.mpr ⟨(name, node), hmem, rfl⟩)
      simp [hno, eq_comm]
    · have hbeq : (name == m) = false := beq_eq_false_iff_ne.mpr hname
      simp only [hname, hbeq, false_and, false_or]
      exact ih h.2

/-- What is found at several names is found at the later ones from what is found at
the first ones. -/
theorem at?_append (names names' : List String) (node : Node) :
    node.at? (names ++ names') = (node.at? names).bind (at? names') := by
  induction names generalizing node with
  | nil => rfl
  | cons name names ih =>
    cases node with
    | file => rfl
    | directory entries =>
      rw [List.cons_append, at?, at?, Option.bind_assoc]
      exact congrArg _ (funext ih)

/-- What is in a tree in order is in order, and so are the names that lead to it. -/
theorem WellFormed.at? (h : node.WellFormed) (hat : node.at? names = some node') :
    node'.WellFormed ∧ ∀ n ∈ names, IsName n := by
  induction names generalizing node with
  | nil =>
    cases hat
    exact ⟨h, fun n hn => absurd hn List.not_mem_nil⟩
  | cons name names ih =>
    cases h with
    | file => cases hat
    | @directory entries hnames hnodup hnodes =>
      obtain ⟨m, hm, hat⟩ := Option.bind_eq_some_iff.mp hat
      have hmem := (mem_iff_lookup hnodup).mpr hm
      obtain ⟨hnode', hrest⟩ := ih (hnodes _ hmem) hat
      exact ⟨hnode', List.forall_mem_cons.mpr ⟨hnames _ hmem, hrest⟩⟩

/-! ## The files of a tree -/

/-- The files below a directory are those of its entries. -/
theorem filesOf_eq (entries : List (String × Node)) :
    filesOf entries = entries.flatMap fun e => e.2.files.map fun f => (e.1 :: f.1, f.2) := by
  induction entries with
  | nil => rw [filesOf]; rfl
  | cons e entries ih => rw [filesOf, ih, List.flatMap_cons]

/-- A walk meets a file exactly if it is where the names lead. -/
theorem mem_files_iff (h : node.WellFormed) :
    (names, content) ∈ node.files ↔ node.at? names = some (.file content) := by
  induction names generalizing node with
  | nil =>
    cases h with
    | file => simp [files, Node.at?, eq_comm]
    | directory => simp [files, filesOf_eq, Node.at?]
  | cons name names ih =>
    cases h with
    | file => simp [files, Node.at?]
    | @directory entries hnames hnodup hnodes =>
      -- Entry by entry the walk finds what the look-up of the first name finds.
      rw [files, filesOf_eq, Node.at?, List.mem_flatMap, Option.bind_eq_some_iff]
      constructor
      · rintro ⟨⟨m, child⟩, hmem, hfile⟩
        obtain ⟨⟨rest, c⟩, hrest, heq⟩ := List.mem_map.mp hfile
        obtain ⟨⟨rfl, rfl⟩, rfl⟩ : (m = name ∧ rest = names) ∧ c = content := by simpa using heq
        exact ⟨child, (mem_iff_lookup hnodup).mp hmem, (ih (hnodes _ hmem)).mp hrest⟩
      · rintro ⟨child, hlookup, hat⟩
        have hmem := (mem_iff_lookup hnodup).mpr hlookup
        exact ⟨(name, child), hmem, List.mem_map_of_mem ((ih (hnodes _ hmem)).mpr hat)⟩

/-- A walk meets each file once. -/
theorem WellFormed.pairwise_files (h : node.WellFormed) :
    node.files.Pairwise fun f g => f.1 ≠ g.1 := by
  induction h with
  | file => exact List.pairwise_singleton _ _
  | @directory entries hnames hnodup hnodes ih =>
    rw [files, filesOf_eq, List.pairwise_flatMap]
    refine ⟨fun e he => ?_, ?_⟩
    -- Files of one entry differ further down, and those of two entries in the first name.
    · rw [List.pairwise_map]
      exact (ih e he).imp fun hne heq => hne (List.cons.inj heq).2
    · refine (List.pairwise_map.mp hnodup).imp fun hne f hf g hg heq => hne ?_
      obtain ⟨f', -, rfl⟩ := List.mem_map.mp hf
      obtain ⟨g', -, rfl⟩ := List.mem_map.mp hg
      exact (List.cons.inj heq).1

/-! ## Walking along a path -/

variable {above above' : List Node} {root root' : Node} {path : String}

/-- One step of a walk, from a directory with others above it: the directory to go on from, if there
is one, and those above that. -/
def stride? (name : String) (above : List Node) (entries : List (String × Node)) :
    Option (List Node × Node) :=
  if name = "" ∨ name = "." then some (above, .directory entries)
  else if name = ".." then above.head?.map fun up => (above.tail, up)
  else (entries.lookup name).map fun node => (.directory entries :: above, node)

/-- A walk goes on from where its first step leads. -/
theorem walk_cons (name : String) (names : List String) (above : List Node)
    (entries : List (String × Node)) : walk (name :: names) above (.directory entries) =
      (stride? name above entries).bind fun next => walk names next.1 next.2 := by
  rw [walk.eq_def, stride?]
  simp only
  split
  next => rfl
  next =>
    split
    next => cases above <;> rfl
    next => cases entries.lookup name <;> rfl

/-- A name leads to the entry of that name. -/
theorem stride?_of_isName (h : IsName name) (above : List Node) (entries : List (String × Node)) :
    stride? name above entries =
      (entries.lookup name).map fun node => (.directory entries :: above, node) := by
  rw [stride?, if_neg (not_or_intro h.ne_empty h.ne_here), if_neg h.ne_above]

/-- A name at the end of a walk leads to the entry of that name. -/
theorem walk_append_name (h : IsName name) (names : List String) (above : List Node) (node : Node) :
    walk (names ++ [name]) above node = (walk names above node).bind (at? [name]) := by
  induction names generalizing above node with
  | nil =>
    cases node with
    | file => rfl
    | directory entries =>
      rw [List.nil_append, walk_cons, stride?_of_isName h, Option.bind_map]
      rfl
  | cons n names ih =>
    cases node with
    | file => rfl
    | directory entries =>
      rw [List.cons_append, walk_cons, walk_cons, Option.bind_assoc]
      exact congrArg _ (funext fun next => ih next.1 next.2)

/-- An empty name at the end of a walk changes nothing. -/
theorem walk_of_append_empty (h : walk (names ++ [""]) above node = some node') :
    walk names above node = some node' := by
  induction names generalizing above node with
  | nil =>
    cases node with
    | file => cases h
    | directory entries => exact h
  | cons n names ih =>
    cases node with
    | file => cases h
    | directory entries =>
      rw [List.cons_append, walk_cons] at h
      rw [walk_cons]
      obtain ⟨next, hnext, h⟩ := Option.bind_eq_some_iff.mp h
      exact Option.bind_eq_some_iff.mpr ⟨next, hnext, ih h⟩

/-- A name behind a path leads to the entry of that name. -/
theorem find?_joinPath (h : IsName name) (hfind : root.find? path = some node) :
    root.find? (joinPath path name) = node.at? [name] := by
  have hpath : path ≠ "" := by
    rintro rfl
    cases hfind
  -- The empty path leads nowhere, also from the root, but the one with a name
  -- behind it is not empty.
  have hjoin : joinPath path name ≠ "" := by
    intro hempty
    have hcomponents := components_joinPath path h
    rw [hempty] at hcomponents
    exact List.append_ne_nil_of_right_ne_nil _ (List.cons_ne_nil _ _) hcomponents.symm
  rw [find?, if_neg hpath] at hfind
  rw [find?, if_neg hjoin]
  obtain ⟨names, hnames, hpath | hpath⟩ := namesOf_joinPath path h
  · rw [hnames, walk_append_name h, ← hpath, hfind]
    rfl
  · rw [hpath] at hfind
    rw [hnames, walk_append_name h, walk_of_append_empty hfind]
    rfl

/-- Names behind a path lead to the same node as from where the path leads. -/
theorem find?_extend (h : ∀ n ∈ names, IsName n) (hfind : root.find? path = some node)
    (hat : node.at? names = some node') : root.find? (extend path names) = some node' := by
  induction names generalizing path node with
  | nil => exact hfind.trans hat
  | cons name names ih =>
    obtain ⟨hname, hnames⟩ := List.forall_mem_cons.mp h
    rw [← List.singleton_append, at?_append] at hat
    obtain ⟨child, hchild, hat⟩ := Option.bind_eq_some_iff.mp hat
    exact ih hnames ((find?_joinPath hname hfind).trans hchild) hat

/-! ## Alike trees -/

/-- Related nodes are two files, or two directories whose entries of the same name are related. -/
def Matching (R : Node → Node → Prop) : Prop :=
  ∀ node node', R node node' → (∃ c c', node = .file c ∧ node' = .file c') ∨
    ∃ es es', node = .directory es ∧ node' = .directory es' ∧
      ∀ name, Option.Rel R (es.lookup name) (es'.lookup name)

variable {R : Node → Node → Prop} {entries' : List (String × Node)}

/-- Steps of the same name from related directories lead to related nodes. -/
theorem Matching.stride? (hdirectory : R (.directory entries) (.directory entries'))
    (hentries : ∀ name, Option.Rel R (entries.lookup name) (entries'.lookup name))
    (habove : List.Forall₂ R above above') (name : String) :
    Option.Rel (fun next next' => List.Forall₂ R next.1 next'.1 ∧ R next.2 next'.2)
      (stride? name above entries) (stride? name above' entries') := by
  rw [Node.stride?, Node.stride?]
  split
  next => exact .some ⟨habove, hdirectory⟩
  next =>
    split
    next =>
      cases habove with
      | nil => exact .none
      | cons hup habove => exact .some ⟨habove, hup⟩
    next =>
      have hentry := hentries name
      generalize entries.lookup name = child at hentry ⊢
      generalize entries'.lookup name = child' at hentry ⊢
      cases hentry with
      | none => exact .none
      | some hnode => exact .some ⟨.cons hdirectory habove, hnode⟩

/-- A walk from related nodes leads to related nodes. -/
theorem Matching.walk (hR : Matching R) (h : R node node') (habove : List.Forall₂ R above above')
    (names : List String) : Option.Rel R (walk names above node) (walk names above' node') := by
  induction names generalizing above above' node node' with
  | nil => exact .some h
  | cons name names ih =>
    obtain ⟨c, c', rfl, rfl⟩ | ⟨entries, entries', rfl, rfl, hentries⟩ := hR _ _ h
    · exact .none
    · rw [walk_cons, walk_cons]
      have hstride := Matching.stride? h hentries habove name
      generalize Node.stride? name above entries = next at hstride ⊢
      generalize Node.stride? name above' entries' = next' at hstride ⊢
      cases hstride with
      | none => exact .none
      | some hnext => exact ih hnext.2 hnext.1

/-- A path leads to related nodes in related trees. -/
theorem Matching.find? (hR : Matching R) (h : R root root') (path : String) :
    Option.Rel R (root.find? path) (root'.find? path) := by
  rw [Node.find?, Node.find?]
  split
  · exact .none
  · exact hR.walk h .nil _

/-- What a path leads to in a tree in order is in order. -/
theorem WellFormed.find? (h : root.WellFormed) (hfind : root.find? path = some node) :
    node.WellFormed := by
  have hmatching : Matching fun node node' => node = node' ∧ node.WellFormed := by
    rintro node node' ⟨rfl, hnode⟩
    cases hnode with
    | file c => exact .inl ⟨c, c, rfl, rfl⟩
    | @directory entries hnames hnodup hnodes =>
      refine .inr ⟨entries, entries, rfl, rfl, fun name => ?_⟩
      cases hlookup : entries.lookup name with
      | none => exact .none
      | some node => exact .some ⟨rfl, hnodes _ ((mem_iff_lookup hnodup).mpr hlookup)⟩
  have hrel := hmatching.find? ⟨rfl, h⟩ path
  rw [hfind] at hrel
  cases hrel with
  | some hnode => exact hnode.2

/-- Alike trees are two files, or two directories with alike entries. -/
theorem matching_alike : Matching Alike := by
  intro node node' h
  have hself := h []
  cases node with
  | file c =>
    cases node' with
    | file c' => exact .inl ⟨c, c', rfl, rfl⟩
    | directory => cases hself
  | directory entries =>
    cases node' with
    | file => cases hself
    | directory entries' =>
      refine .inr ⟨entries, entries', rfl, rfl, fun name => ?_⟩
      -- What is below an entry is seen at the places that begin with its name.
      have hbelow (names : List String) : (entries.lookup name).bind (look? names) =
          (entries'.lookup name).bind (look? names) := by
        have hsame := h (name :: names)
        simp only [look?, at?, Option.map_bind] at hsame
        exact hsame
      cases hlookup : entries.lookup name with
      | none =>
        -- That there is an entry at all is seen at its own place.
        cases hlookup' : entries'.lookup name with
        | none => exact .none
        | some child' => simpa [hlookup, hlookup', look?, at?] using hbelow []
      | some child =>
        cases hlookup' : entries'.lookup name with
        | none => simpa [hlookup, hlookup', look?, at?] using hbelow []
        | some child' => exact .some fun names => by simpa [hlookup, hlookup'] using hbelow names

/-- A file is where names lead exactly if it is seen there. -/
theorem at?_eq_file_iff : node.at? names = some (.file content) ↔
    node.look? names = some (some content) := by
  rw [look?, Option.map_eq_some_iff]
  constructor
  · intro h
    exact ⟨_, h, rfl⟩
  · rintro ⟨child, hchild, hcontent⟩
    cases child with
    | file c =>
      cases hcontent
      exact hchild
    | directory => cases hcontent

/-! ## Making a tree -/

/-- The file with the content, or without one an empty directory. -/
def ofContent? (content? : Option ByteArray) : Node :=
  content?.elim empty .file

/-- The tree that comes of making files and directories one after the other. -/
def make (items : List (List String × Option ByteArray)) : Node :=
  items.foldl (fun root item => put (ofContent? item.2) item.1 root) empty

/-- The items can all be there: each has a place of its own below the root, and what is at or below
a file is that file only. -/
structure Compatible (items : List (List String × Option ByteArray)) : Prop where
  /-- Each place is below the root. -/
  ne_nil : ∀ item ∈ items, item.1 ≠ []
  /-- It is given by names. -/
  names : ∀ item ∈ items, ∀ n ∈ item.1, IsName n
  /-- No other item is at or below a file. -/
  apart : items.Pairwise fun a b => (a.2 ≠ none → ¬a.1 <+: b.1) ∧ (b.2 ≠ none → ¬b.1 <+: a.1)

/-- An item can be put into a tree without replacing anything. -/
structure Fits (content? : Option ByteArray) (names : List String) (node : Node) : Prop where
  /-- There is no file on the way, and none in the place of a directory. -/
  above : ∀ ms c, ms <+: names → ms ≠ names ∨ content? = none → node.look? ms ≠ some (some c)
  /-- There is nothing below a file. -/
  below : content? ≠ none → ∀ ms, names <+: ms → ms ≠ names → node.look? ms = none

variable {item? : Option ByteArray}

/-- What is below a directory is in the entry that the first name leads to, or nowhere. -/
theorem look?_directory_cons (name : String) (names : List String) :
    (Node.directory entries).look? (name :: names) = (entries.lookup name).bind (look? names) := by
  rw [look?, at?, Option.map_bind]
  rfl

/-- An entry of another name does not show. -/
theorem lookup_cons_of_ne {n m : String} (h : m ≠ n) (node : Node)
    (entries : List (String × Node)) : ((n, node) :: entries).lookup m = entries.lookup m := by
  rw [List.lookup_cons, beq_eq_false_iff_ne.mpr h]

/-- Replacing the node of a name changes what is found by that name only. -/
theorem lookup_replace (new : Node) (name m : String) (entries : List (String × Node)) :
    (entries.map fun e => if e.1 = name then (name, new) else e).lookup m =
      if m = name then (entries.lookup name).map fun _ => new else entries.lookup m := by
  induction entries with
  | nil => simp
  | cons e entries ih =>
    obtain ⟨n, node⟩ := e
    rw [List.map_cons]
    by_cases hn : n = name
    · subst hn
      rw [if_pos rfl]
      by_cases hm : m = n
      · subst hm
        rw [List.lookup_cons_self, if_pos rfl, List.lookup_cons_self, Option.map_some]
      · rw [lookup_cons_of_ne hm, ih, if_neg hm, if_neg hm, lookup_cons_of_ne hm]
    · rw [if_neg hn, lookup_cons_of_ne (Ne.symm hn)]
      by_cases hm : m = n
      · subst hm
        rw [List.lookup_cons_self, if_neg hn, List.lookup_cons_self]
      · rw [lookup_cons_of_ne hm, ih, lookup_cons_of_ne hm]

/-- The names stay. -/
theorem map_fst_replace (new : Node) (name : String) (entries : List (String × Node)) :
    (entries.map fun e => if e.1 = name then (name, new) else e).map Prod.fst =
      entries.map Prod.fst := by
  rw [List.map_map]
  refine List.map_congr_left fun e _ => ?_
  rw [Function.comp]
  split
  next heq => exact heq.symm
  next => rfl

/-- Putting something into a directory changes the entry of the first name, or makes it. -/
theorem exists_put_directory (new : Node) (name : String) (names : List String)
    (entries : List (String × Node)) : ∃ entries',
      put new (name :: names) (.directory entries) = .directory entries' ∧
        ∀ m, entries'.lookup m =
          if m = name then some (put new names ((entries.lookup name).getD empty))
          else entries.lookup m := by
  rw [put]
  -- The entry is replaced where it stands, or appended behind the others.
  cases hlookup : entries.lookup name with
  | some child =>
    refine ⟨_, rfl, fun m => ?_⟩
    rw [lookup_replace, hlookup]
    rfl
  | none =>
    refine ⟨_, rfl, fun m => ?_⟩
    rw [List.lookup_append]
    by_cases hm : m = name
    · subst hm
      rw [hlookup, if_pos rfl, List.lookup_cons_self]
      rfl
    · rw [lookup_cons_of_ne hm, List.lookup_nil, if_neg hm, Option.or_none]

/-- An item that fits into a directory fits into the entry that its first name leads to. -/
theorem Fits.child (h : Fits item? (name :: names) (.directory entries)) :
    Fits item? names ((entries.lookup name).getD empty) := by
  cases hlookup : entries.lookup name with
  | none =>
    -- A name without an entry leads to an empty directory that is made for it.
    constructor
    · intro ms c hms hne hlook
      cases ms <;> cases hlook
    · intro hfile ms hms hne
      cases ms with
      | nil => exact absurd (List.prefix_nil.mp hms).symm hne
      | cons => rfl
  | some child =>
    have hlook (ms : List String) :
        (Node.directory entries).look? (name :: ms) = child.look? ms := by
      rw [look?_directory_cons, hlookup, Option.bind_some]
    constructor
    · intro ms c hms hne
      rw [Option.getD_some, ← hlook]
      exact h.above _ c ((List.cons_prefix_cons).mpr ⟨rfl, hms⟩)
        (hne.imp_left fun hne heq => hne (List.cons.inj heq).2)
    · intro hfile ms hms hne
      rw [Option.getD_some, ← hlook]
      exact h.below hfile _ ((List.cons_prefix_cons).mpr ⟨rfl, hms⟩) fun heq =>
        hne (List.cons.inj heq).2

/-- An item that has names left fits into a directory only. -/
theorem Fits.exists_directory (h : Fits item? (name :: names) node) :
    ∃ entries, node = .directory entries := by
  cases node with
  | file c => exact absurd rfl (h.above [] c List.nil_prefix (.inl (List.cons_ne_nil _ _).symm))
  | directory entries => exact ⟨entries, rfl⟩

/-- An item that was put into a tree is there, and on the way to it are directories. -/
theorem look?_put_along (h : Fits item? names node) {ms : List String} (hms : ms <+: names) :
    (put (ofContent? item?) names node).look? ms = some (if ms = names then item? else none) := by
  induction names generalizing node ms with
  | nil =>
    obtain rfl := List.prefix_nil.mp hms
    cases item? with
    | none =>
      cases node with
      | file c => exact absurd rfl (h.above [] c List.nil_prefix (.inr rfl))
      | directory => rfl
    | some c => cases node <;> rfl
  | cons name names ih =>
    obtain ⟨entries, rfl⟩ := h.exists_directory
    obtain ⟨entries', hput, hlookup⟩ := exists_put_directory (ofContent? item?) name names entries
    rw [hput]
    cases ms with
    | nil => rfl
    | cons m ms =>
      obtain ⟨rfl, hrest⟩ := List.cons_prefix_cons.mp hms
      rw [look?_directory_cons, hlookup, if_pos rfl, Option.bind_some, ih h.child hrest]
      simp only [List.cons.injEq, true_and]

/-- Everything else is as it was before. -/
theorem look?_put_aside (h : Fits item? names node) {ms : List String} (hms : ¬ms <+: names) :
    (put (ofContent? item?) names node).look? ms = node.look? ms := by
  induction names generalizing node ms with
  | nil =>
    have hne : ms ≠ [] := fun hnil => hms (List.prefix_nil.mpr hnil)
    cases item? with
    | none =>
      cases node with
      | file c => exact absurd rfl (h.above [] c List.nil_prefix (.inr rfl))
      | directory => rfl
    | some c =>
      rw [h.below (Option.some_ne_none c) ms List.nil_prefix hne]
      obtain ⟨m, ms, rfl⟩ := List.exists_cons_of_ne_nil hne
      cases node <;> rfl
  | cons name names ih =>
    obtain ⟨entries, rfl⟩ := h.exists_directory
    obtain ⟨entries', hput, hlookup⟩ := exists_put_directory (ofContent? item?) name names entries
    rw [hput]
    cases ms with
    | nil => exact absurd List.nil_prefix hms
    | cons m ms =>
      rw [look?_directory_cons, look?_directory_cons, hlookup]
      -- A place under another name is not reached; under the same name the rest still leads aside.
      by_cases hm : m = name
      · subst hm
        have hrest : ¬ms <+: names := fun hrest => hms (List.cons_prefix_cons.mpr ⟨rfl, hrest⟩)
        rw [if_pos rfl, Option.bind_some, ih h.child hrest]
        cases entries.lookup m with
        | some child => rfl
        | none =>
          have hne : ms ≠ [] := by
            rintro rfl
            exact hrest List.nil_prefix
          obtain ⟨m', ms, rfl⟩ := List.exists_cons_of_ne_nil hne
          rfl
      · rw [if_neg hm]

variable {items items' : List (List String × Option ByteArray)}

/-- What was made is there, and on the way to it are directories. -/
structure Made (items : List (List String × Option ByteArray)) (node : Node) : Prop where
  /-- The files are those that were made. -/
  file_iff : ∀ names c, node.look? names = some (some c) ↔ (names, some c) ∈ items
  /-- The directories are those that were made, and those that lead to something. -/
  directory_iff : ∀ names, node.look? names = some none ↔
    names = [] ∨ ∃ item ∈ items, names <+: item.1 ∧ (names = item.1 → item.2 = none)

/-- An item fits into what was made of others that are compatible with it. -/
theorem Made.fits {item : List String × Option ByteArray} (h : Made items node)
    (hcompatible : Compatible (items ++ [item])) : Fits item.2 item.1 node := by
  have hapart (other : List String × Option ByteArray) (hother : other ∈ items) :=
    (List.pairwise_append.mp hcompatible.apart).2.2 other hother item (List.mem_singleton_self _)
  constructor
  · intro ms c hms hne hlook
    exact (hapart _ ((h.file_iff ms c).mp hlook)).1 (Option.some_ne_none c) hms
  · intro hfile ms hms hne
    -- Whatever is at or below the place of the file has been made there.
    cases hlook : node.look? ms with
    | none => rfl
    | some seen =>
      cases seen with
      | some c => exact absurd hms ((hapart _ ((h.file_iff ms c).mp hlook)).2 hfile)
      | none =>
        rcases (h.directory_iff ms).mp hlook with rfl | ⟨other, hother, hother', -⟩
        · exact absurd (List.prefix_nil.mp hms)
            (hcompatible.ne_nil item (List.mem_append_right _ (List.mem_singleton_self _)))
        · exact absurd (hms.trans hother') ((hapart other hother).2 hfile)

/-- An item that is compatible with those of which a tree was made is put into it. -/
theorem Made.append {item : List String × Option ByteArray} (hmade : Made items node)
    (h : Compatible (items ++ [item])) :
    Made (items ++ [item]) (put (ofContent? item.2) item.1 node) := by
  have hfits := hmade.fits h
  have hapart (other : List String × Option ByteArray) (hother : other ∈ items) :=
    (List.pairwise_append.mp h.apart).2.2 other hother item (List.mem_singleton_self _)
  constructor
  · intro names c
    -- On the way to the new item there was no file before; elsewhere nothing has changed.
    rw [List.mem_append, List.mem_singleton]
    by_cases halong : names <+: item.1
    · have hno : (names, some c) ∉ items := fun hmem =>
        (hapart _ hmem).1 (Option.some_ne_none c) halong
      rw [look?_put_along hfits halong, Option.some.injEq, or_iff_right hno]
      constructor
      · intro hcontent
        split at hcontent
        next hnames => rw [hnames, ← hcontent]
        next => cases hcontent
      · rintro rfl
        exact if_pos rfl
    · rw [look?_put_aside hfits halong, hmade.file_iff, or_iff_left]
      rintro rfl
      exact halong (List.prefix_refl names)
  · intro names
    simp only [List.mem_append, List.mem_singleton, or_and_right, exists_or, exists_eq_left]
    by_cases halong : names <+: item.1
    · rw [look?_put_along hfits halong, Option.some.injEq, ite_eq_right_iff]
      constructor
      · intro hcontent
        exact .inr (.inr ⟨halong, hcontent⟩)
      · rintro (hnil | ⟨other, hother, hbelow, -⟩ | ⟨-, hcontent⟩) hnames
        · exact absurd (hnames.symm.trans hnil)
            (h.ne_nil item (List.mem_append_right _ (List.mem_singleton_self _)))
        · exact Classical.not_not.mp fun hfile => (hapart other hother).2 hfile (hnames ▸ hbelow)
        · exact hcontent hnames
    · rw [look?_put_aside hfits halong, hmade.directory_iff,
        or_iff_left (a := ∃ item, _) fun h => halong h.1]

/-- What is made of compatible items is there, whatever their order. -/
theorem made_make (h : Compatible items) : Made items (make items) := by
  induction items using List.reverseRecOn with
  | nil =>
    constructor
    · intro names c
      cases names <;> simp [make, look?, at?, empty, content?]
    · intro names
      cases names <;> simp [make, look?, at?, empty, content?]
  | append_singleton items item ih =>
    have hmade : Made items (make items) := ih
      { ne_nil := fun i hi => h.ne_nil i (List.mem_append_left _ hi)
        names := fun i hi => h.names i (List.mem_append_left _ hi)
        apart := (List.pairwise_append.mp h.apart).1 }
    have hmake : make (items ++ [item]) = put (ofContent? item.2) item.1 (make items) := by
      rw [make, List.foldl_append]
      rfl
    rw [hmake]
    exact hmade.append h

/-- Trees in which the same was made are alike. -/
theorem Made.alike (h : Made items node) (h' : Made items' node') (hperm : items.Perm items') :
    node.Alike node' := by
  intro names
  refine Option.ext fun seen => ?_
  cases seen with
  | some c => rw [h.file_iff, h'.file_iff, hperm.mem_iff]
  | none => simp only [h.directory_iff, h'.directory_iff, hperm.mem_iff]

/-- Items in another order are still compatible. -/
theorem Compatible.perm (h : Compatible items) (hperm : items.Perm items') : Compatible items' where
  ne_nil item hitem := h.ne_nil item (hperm.mem_iff.mpr hitem)
  names item hitem := h.names item (hperm.mem_iff.mpr hitem)
  apart := (hperm.pairwise_iff fun hab => ⟨hab.2, hab.1⟩).mp h.apart

/-- The order in which compatible items are made does not show. -/
theorem make_alike (h : Compatible items) (hperm : items.Perm items') :
    (make items).Alike (make items') :=
  (made_make h).alike (made_make (h.perm hperm)) hperm

/-- An empty directory is in order. -/
theorem wellFormed_empty : empty.WellFormed :=
  .directory (List.forall_mem_nil _) List.nodup_nil (List.forall_mem_nil _)

/-- Putting something under names into a tree in order leaves it in order. -/
theorem WellFormed.put {new : Node} (h : node.WellFormed) (hnew : new.WellFormed)
    (hnames : ∀ n ∈ names, IsName n) : (put new names node).WellFormed := by
  induction names generalizing node with
  | nil =>
    cases node with
    | file => exact hnew
    | directory entries =>
      cases new with
      | file => exact hnew
      | directory => exact h
  | cons name names ih =>
    obtain ⟨hname, hrest⟩ := List.forall_mem_cons.mp hnames
    cases h with
    | file c => exact .file c
    | @directory entries hentries hnodup hnodes =>
      rw [Node.put]
      cases hlookup : entries.lookup name with
      | some child =>
        have hchild := ih (hnodes _ ((mem_iff_lookup hnodup).mpr hlookup)) hrest
        refine .directory (List.forall_mem_map.mpr fun e he => ?_) ?_
          (List.forall_mem_map.mpr fun e he => ?_)
        · split
          · exact hname
          · exact hentries e he
        · rw [map_fst_replace]
          exact hnodup
        · split
          · exact hchild
          · exact hnodes e he
      | none =>
        have hchild := ih wellFormed_empty hrest
        -- A name that is not found is that of no entry, so adding it keeps the names apart.
        have hfresh : ∀ e ∈ entries, e.1 ≠ name := by
          intro e he heq
          have hfound := (mem_iff_lookup hnodup).mp he
          rw [heq, hlookup] at hfound
          cases hfound
        refine .directory ?_ ?_ ?_
        · exact List.forall_mem_append.mpr ⟨hentries, List.forall_mem_singleton.mpr hname⟩
        · rw [List.map_append, List.nodup_append]
          refine ⟨hnodup, List.pairwise_singleton _ _, fun n hn m hm => ?_⟩
          obtain ⟨e, he, rfl⟩ := List.mem_map.mp hn
          rw [List.mem_singleton.mp hm]
          exact hfresh e he
        · exact List.forall_mem_append.mpr ⟨hnodes, List.forall_mem_singleton.mpr hchild⟩

/-- What is made of compatible items is in order. -/
theorem wellFormed_make (h : Compatible items) : (make items).WellFormed := by
  have hnames := h.names
  clear h
  induction items using List.reverseRecOn with
  | nil => exact wellFormed_empty
  | append_singleton items item ih =>
    obtain ⟨hitems, hitem⟩ := List.forall_mem_append.mp hnames
    rw [make, List.foldl_append]
    refine (ih hitems).put ?_ (List.forall_mem_singleton.mp hitem)
    cases item.2 with
    | none => exact wellFormed_empty
    | some c => exact .file c

end Deferral.Audit.Node
