import Deferral.Audit.Tree
import Mathlib.Data.List.Lex
import Mathlib.Data.List.TakeWhile
import Mathlib.Data.String.Basic

/-!
# Paths as lists of names

A path is a text in which slashes stand between names. Empty names and points in it lead nowhere, so
what counts are its components. Putting further names behind a path adds them to its components,
whether or not the path ends in a slash.

Main statements:
* `components_extend`: the components of a path with names behind it.
* `isSourceName_iff`: which names are those of source files.
* `pathLe_iff`: the order of paths is that of lists of names.
-/

namespace Deferral.Audit

/-- The names in a path that lead somewhere. -/
def components (path : String) : List String :=
  (namesOf path).filter fun n => n ≠ "" ∧ n ≠ "."

/-- A name that an entry of a directory can have. -/
structure IsName (name : String) : Prop where
  /-- It is not empty. -/
  ne_empty : name ≠ ""
  /-- It does not stand for the directory itself. -/
  ne_here : name ≠ "."
  /-- Nor for the one above. -/
  ne_above : name ≠ ".."
  /-- It is a single name. -/
  no_slash : '/' ∉ name.toList

instance (name : String) : Decidable (IsName name) :=
  decidable_of_iff (name ≠ "" ∧ name ≠ "." ∧ name ≠ ".." ∧ '/' ∉ name.toList)
    ⟨fun ⟨hempty, hhere, habove, hslash⟩ => ⟨hempty, hhere, habove, hslash⟩,
      fun h => ⟨h.ne_empty, h.ne_here, h.ne_above, h.no_slash⟩⟩

/-! ## Names between slashes -/

/-- There is always a first name. -/
theorem splitSlashes_ne_nil (s : List Char) : splitSlashes s ≠ [] := by
  cases s with
  | nil => exact List.cons_ne_nil _ _
  | cons c rest =>
    rw [splitSlashes]
    split
    · exact List.cons_ne_nil _ _
    · split <;> exact List.cons_ne_nil _ _

/-- A slash ends a name, and a new one begins. -/
theorem splitSlashes_append (s rest : List Char) :
    splitSlashes (s ++ '/' :: rest) = splitSlashes s ++ splitSlashes rest := by
  induction s with
  | nil =>
    cases h : splitSlashes rest with
    | nil => exact absurd h (splitSlashes_ne_nil rest)
    | cons name names => simp [splitSlashes, h]
  | cons c s ih =>
    cases h : splitSlashes s with
    | nil => exact absurd h (splitSlashes_ne_nil s)
    | cons name names =>
      rw [List.cons_append, splitSlashes, ih, h, splitSlashes, h]
      simp only [List.cons_append]
      split <;> rfl

/-- Without a slash there is one name. -/
theorem splitSlashes_of_not_mem {s : List Char} (h : '/' ∉ s) : splitSlashes s = [s] := by
  induction s with
  | nil => rfl
  | cons c s ih =>
    rw [List.mem_cons, not_or] at h
    rw [splitSlashes, ih h.2]
    exact if_neg (Ne.symm h.1)

/-- The names in two paths with a slash between them. -/
theorem namesOf_append (path rest : String) :
    namesOf (path ++ "/" ++ rest) = namesOf path ++ namesOf rest := by
  have htext : (path ++ "/" ++ rest).toList = path.toList ++ '/' :: rest.toList := by simp
  rw [namesOf, htext, splitSlashes_append, List.map_append]
  rfl

/-- A name is all that is in it. -/
theorem IsName.namesOf_eq {name : String} (h : IsName name) : namesOf name = [name] := by
  rw [namesOf, splitSlashes_of_not_mem h.no_slash]
  simp

/-- A name that is put behind a path follows the names in the path, or takes the place of the empty
name behind its last slash. -/
theorem namesOf_joinPath (path : String) {name : String} (h : IsName name) :
    ∃ names, namesOf (joinPath path name) = names ++ [name] ∧
      (namesOf path = names ∨ namesOf path = names ++ [""]) := by
  rw [joinPath]
  split
  next hslash =>
    -- Behind the last slash is an empty name, which the new one replaces.
    obtain ⟨s, hs⟩ := List.getLast?_eq_some_iff.mp hslash
    have hpath : path = String.ofList s ++ "/" ++ "" := by
      rw [← String.toList_inj, hs]
      simp
    refine ⟨namesOf (String.ofList s), ?_, .inr ?_⟩
    · rw [hpath, String.append_empty, namesOf_append, h.namesOf_eq]
    · rw [hpath, namesOf_append]
      rfl
  next => exact ⟨namesOf path, by rw [namesOf_append, h.namesOf_eq], .inl rfl⟩

/-! ## Components -/

/-- A name behind a path is a further component. -/
theorem components_joinPath (path : String) {name : String} (h : IsName name) :
    components (joinPath path name) = components path ++ [name] := by
  obtain ⟨names, hjoin, hpath⟩ := namesOf_joinPath path h
  have hnames : components (joinPath path name) =
      names.filter (fun n => n ≠ "" ∧ n ≠ ".") ++ [name] := by
    rw [components, hjoin, List.filter_append]
    simp [h.ne_empty, h.ne_here]
  rw [hnames, components]
  rcases hpath with hpath | hpath
  · rw [hpath]
  · rw [hpath, List.filter_append]
    simp

/-- Names behind a path are further components. -/
theorem components_extend (path : String) {names : List String} (h : ∀ n ∈ names, IsName n) :
    components (extend path names) = components path ++ names := by
  induction names generalizing path with
  | nil => exact (List.append_nil _).symm
  | cons name names ih =>
    have hname := h name List.mem_cons_self
    calc components (extend (joinPath path name) names)
        = components (joinPath path name) ++ names :=
          ih _ fun n hn => h n (List.mem_cons_of_mem _ hn)
      _ = components path ++ name :: names := by
        rw [components_joinPath path hname, List.append_assoc, List.singleton_append]

/-- The last name of a path with names behind it is the last of these, if there are any. -/
theorem lastName_extend (path : String) {names : List String} (h : ∀ n ∈ names, IsName n) :
    lastName (extend path names) = names.getLast?.getD (lastName path) := by
  rw [lastName, ← components, components_extend path h, List.getLast?_append, Option.getD_or]
  rfl

/-- Different names behind a path lead to different paths. -/
theorem extend_inj (path : String) {names names' : List String} (h : ∀ n ∈ names, IsName n)
    (h' : ∀ n ∈ names', IsName n) (heq : extend path names = extend path names') :
    names = names' := by
  have hcomponents := congrArg components heq
  rw [components_extend path h, components_extend path h'] at hcomponents
  exact List.append_cancel_left hcomponents

/-! ## Source files -/

/-- The name ends in `.rs`, and that is not all of it. -/
def IsSource (name : String) : Prop :=
  ∃ stem, stem ≠ "" ∧ name = stem ++ ".rs"

/-- Up to the first point is what stands before it. -/
theorem takeWhile_append_point {s : List Char} (rest : List Char) (h : '.' ∉ s) :
    (s ++ '.' :: rest).takeWhile (· ≠ '.') = s := by
  have hs : ∀ c ∈ s, decide (c ≠ '.') = true := fun c hc =>
    decide_eq_true (ne_of_mem_of_not_mem hc h)
  rw [List.takeWhile_append_of_pos hs]
  simp

/-- The extension of a name with a point is what follows the last one, if something precedes it. -/
theorem extension?_append_point (stem : List Char) {ext : List Char} (h : '.' ∉ ext) {name : String}
    (hname : name.toList = stem ++ '.' :: ext) :
    extension? name = if stem = [] then none else some ext := by
  -- The name is read from its end, where its last point is the first one.
  have hreverse : name.toList.reverse = ext.reverse ++ '.' :: stem.reverse := by
    rw [hname]
    simp
  have htake : name.toList.reverse.takeWhile (· ≠ '.') = ext.reverse := by
    rw [hreverse]
    exact takeWhile_append_point _ (by simpa using h)
  rw [extension?, htake, hreverse, List.drop_left]
  split
  next c d rest hrest =>
    have hstem : stem ≠ [] := by
      rintro rfl
      simp at hrest
    rw [if_neg hstem, List.reverse_reverse]
  next hrest =>
    -- Nothing precedes the point, so it begins a name without an extension.
    cases hstem : stem.reverse with
    | nil => rw [if_pos (List.reverse_eq_nil_iff.mp hstem)]
    | cons d rest => exact absurd (by rw [hstem]) (hrest '.' d rest)

/-- A name without a point has no extension. -/
theorem extension?_of_no_point {name : String} (h : '.' ∉ name.toList) :
    extension? name = none := by
  have htake : name.toList.reverse.takeWhile (· ≠ '.') = name.toList.reverse :=
    List.takeWhile_eq_self_iff.mpr fun c hc =>
      decide_eq_true (ne_of_mem_of_not_mem (List.mem_reverse.mp hc) h)
  rw [extension?, htake, List.drop_length]

/-- The extension of a name is what follows its last point, if something precedes it. -/
theorem extension?_eq_some_iff (name : String) (ext : List Char) :
    extension? name = some ext ↔
      '.' ∉ ext ∧ ∃ stem, stem ≠ [] ∧ name.toList = stem ++ '.' :: ext := by
  constructor
  · intro h
    by_cases hpoint : '.' ∈ name.toList
    -- The last point splits the name.
    · obtain ⟨back, front, hsplit, hback⟩ :=
        List.eq_append_cons_of_mem (List.mem_reverse.mpr hpoint)
      have hname : name.toList = front.reverse ++ '.' :: back.reverse := by
        rw [List.reverse_eq_iff.mp hsplit]
        simp
      rw [extension?_append_point _ (by simpa using hback) hname] at h
      split at h
      next => cases h
      next hfront =>
        cases h
        exact ⟨by simpa using hback, _, hfront, hname⟩
    · rw [extension?_of_no_point hpoint] at h
      cases h
  · rintro ⟨hext, stem, hstem, hname⟩
    rw [extension?_append_point stem hext hname, if_neg hstem]

/-- The names that are searched for are those of source files. -/
theorem isSourceName_iff (name : String) : isSourceName name = true ↔ IsSource name := by
  rw [isSourceName, beq_iff_eq, extension?_eq_some_iff]
  constructor
  · rintro ⟨-, stem, hstem, hname⟩
    refine ⟨String.ofList stem, by simpa using hstem, ?_⟩
    rw [← String.toList_inj, hname]
    simp
  · rintro ⟨stem, hstem, rfl⟩
    exact ⟨by decide, stem.toList, by simpa using hstem, by simp⟩

/-! ## The order of paths -/

/-- The order of paths is the order of lists of names. -/
theorem pathLe_iff (p q : List String) : pathLe p q = true ↔ p = q ∨ p < q := by
  induction p generalizing q with
  | nil => cases q <;> simp [pathLe]
  | cons a p ih =>
    cases q with
    | nil => simp [pathLe]
    | cons b q =>
      rw [pathLe, List.cons_lt_cons_iff, List.cons.injEq]
      by_cases hab : a = b
      · subst hab
        simp [ih]
      · simp [hab]

/-- A name comes before the names that it is the beginning of, also where a slash comes
after what follows. -/
example : pathLe ["src", "a", "b.rs"] ["src", "a-b.rs"] = true ∧ "src/a-b.rs" < "src/a/b.rs" := by
  decide +kernel

/-- The order of paths is transitive. -/
theorem pathLe_trans {p q r : List String} (hpq : pathLe p q = true) (hqr : pathLe q r = true) :
    pathLe p r = true := by
  rw [pathLe_iff, ← le_iff_eq_or_lt] at *
  exact le_trans hpq hqr

/-- Of two paths one comes first. -/
theorem pathLe_total (p q : List String) : (pathLe p q || pathLe q p) = true := by
  rw [Bool.or_eq_true, pathLe_iff, pathLe_iff, ← le_iff_eq_or_lt, ← le_iff_eq_or_lt]
  exact le_total p q

end Deferral.Audit
