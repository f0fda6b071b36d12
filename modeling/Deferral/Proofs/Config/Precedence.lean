import Deferral.Proofs.Config.Contribution
import Mathlib.Data.List.Induction

/-!
# Which source decides

A configuration is merged from the defaults, a file and the environment, and is checked as a whole.
Overrides come on top of what was loaded. Each value is that of the strongest source that sets it,
whatever the others set, and of several overrides the last one that sets a value decides.

`Settings.Merged` says so value by value, without reference to the order in which the layers are
laid over each other, and of the environment by the texts of its variables. `Settings.RefusedFor`
says which defect a configuration is refused for.

Main statements:
* `Settings.Merged.overrideAll`: overrides on top of what was merged.
* `load_precedence`: what comes of loading a configuration, and of overriding what was loaded.
-/

namespace Deferral

/-! ## Valid settings -/

namespace Settings

/-- The configuration is refused for this defect, which is the first that it has. -/
inductive RefusedFor (s : Settings) : Defect → Prop
  /-- There are no worker threads. -/
  | noWorkers (hworkers : s.workers = 0) : RefusedFor s .noWorkers
  /-- There are worker threads, but their name holds nothing but blanks. -/
  | blankName (hworkers : s.workers ≠ 0)
      (hname : s.threadName.toList ⊆ Text.whiteSpace) : RefusedFor s .blankName
  /-- The worker threads have a name, but no stack. -/
  | emptyStack (hworkers : s.workers ≠ 0)
      (hname : ¬s.threadName.toList ⊆ Text.whiteSpace)
      (hstack : s.stackSize = some 0) : RefusedFor s .emptyStack

/-- The check finds the defect that the configuration is refused for. -/
theorem defect?_eq_some_iff (s : Settings) (d : Defect) : s.defect? = some d ↔ s.RefusedFor d := by
  simp only [defect?, Text.trim_eq_nil_iff]
  constructor
  · intro h
    split at h
    next hworkers => cases h; exact .noWorkers hworkers
    next hworkers =>
      split at h
      next hname => cases h; exact .blankName hworkers hname
      next hname =>
        split at h
        next hstack => cases h; exact .emptyStack hworkers hname hstack
        next => cases h
  · intro h
    cases h with
    | noWorkers hworkers => rw [if_pos hworkers]
    | blankName hworkers hname => rw [if_neg hworkers, if_pos hname]
    | emptyStack hworkers hname hstack =>
      rw [if_neg hworkers, if_neg hname, if_pos hstack]

/-- A configuration that is refused is refused with the wording of the defect. -/
theorem validate_eq_error_iff (s : Settings) (e : ConfigError) :
    s.validate = .error e ↔ ∃ d, s.RefusedFor d ∧ e = .invalid d.text := by
  simp only [← defect?_eq_some_iff, validate]
  cases s.defect? with
  | none => simp
  | some d => simp [eq_comm]

/-- The defaults are accepted. -/
theorem validate_default : ({} : Settings).validate = .ok () := by
  decide

end Settings

/-! ## Merged settings -/

namespace Settings

/-- What the last override sets that sets this value at all. -/
def lastSet {A : Type} (f : Overrides → Option A) (os : List Overrides) : Option A :=
  (os.filterMap f).getLast?

/-- Each value of the configuration is that of the strongest source that sets it: of the last
override that does, of the environment's layer, of the file's, and otherwise the default. -/
structure MergedFrom (file? : Option (String × Layer)) (l : Layer) (os : List Overrides)
    (s : Settings) : Prop where
  /-- The number of worker threads. -/
  workers_eq : s.workers =
    ((lastSet Overrides.workers os).or (l.workers.or (file?.bind fun f => f.2.workers))).getD
      ({} : Settings).workers
  /-- The thread name. -/
  threadName_eq : s.threadName =
    ((lastSet Overrides.threadName os).or
      (l.threadName.or (file?.bind fun f => f.2.threadName))).getD ({} : Settings).threadName
  /-- The stack size, which overrides do not set. -/
  stackSize_eq : s.stackSize =
    (l.stackSize.or (file?.bind fun f => f.2.stackSize)).or ({} : Settings).stackSize
  /-- The time that a shutdown waits, in milliseconds wherever it is set. -/
  grace_eq : s.grace =
    (((lastSet Overrides.graceMilliseconds os).or
      (l.graceMilliseconds.or (file?.bind fun f => f.2.graceMilliseconds))).map
        fun n => ⟨n * 10 ^ 6⟩).getD ({} : Settings).grace
  /-- The path is that of the file that was read. -/
  path_eq : s.path = file?.map Prod.fst
  /-- The source is the strongest one that sets anything; a file counts if it was read. -/
  source_eq : s.source =
    if ∃ o ∈ os, o ≠ {} then .commandLine
    else if l ≠ {} then .environment
    else if file?.isSome then .file
    else .defaults

/-- The configuration is merged from the file, from what the environment sets by the texts of its
variables, and from the overrides. -/
def Merged (file? : Option (String × Layer)) (env : Environment) (os : List Overrides)
    (s : Settings) : Prop :=
  ∃ l, env.Sets l ∧ s.MergedFrom file? l os

variable {file? : Option (String × Layer)} {env : Environment} {l : Layer} {os : List Overrides}
  {s s' : Settings}

theorem lastSet_nil {A : Type} (f : Overrides → Option A) : lastSet f [] = none := rfl

/-- A further override decides if it sets the value. -/
theorem lastSet_concat {A : Type} (f : Overrides → Option A) (os : List Overrides) (o : Overrides) :
    lastSet f (os ++ [o]) = (f o).or (lastSet f os) := by
  rw [lastSet, List.filterMap_append]
  cases hf : f o with
  | none => simp [hf, lastSet]
  | some a => simp [hf]

/-- What is merged is determined by the layers. -/
theorem MergedFrom.unique (h : s.MergedFrom file? l os) (h' : s'.MergedFrom file? l os) :
    s' = s := by
  cases s
  cases s'
  simp only [Settings.mk.injEq]
  exact ⟨h'.workers_eq.trans h.workers_eq.symm, h'.threadName_eq.trans h.threadName_eq.symm,
    h'.stackSize_eq.trans h.stackSize_eq.symm, h'.grace_eq.trans h.grace_eq.symm,
    h'.path_eq.trans h.path_eq.symm, h'.source_eq.trans h.source_eq.symm⟩

/-- There is one layer that the environment sets, and it is the one that is read from it. -/
theorem merged_iff : s.Merged file? env os ↔ s.MergedFrom file? env.layer os := by
  simp only [Merged, Environment.sets_iff, exists_eq_left]

/-- What is merged is determined by the sources. -/
theorem Merged.unique (h : s.Merged file? env os) (h' : s'.Merged file? env os) : s' = s :=
  (merged_iff.mp h).unique (merged_iff.mp h')

/-- The defaults with the file over them. -/
def withFile? (file? : Option (String × Layer)) : Settings :=
  match file? with
  | none => {}
  | some (p, l) => withFile {} p l

/-- The environment's layer takes precedence over the file, and the file over the defaults. -/
theorem mergedFrom_withEnvironment (file? : Option (String × Layer)) (l : Layer) :
    ((withFile? file?).withEnvironment l).MergedFrom file? l [] where
  workers_eq := by
    rw [lastSet_nil, Option.none_or, Option.getD_or]
    cases file? <;> rfl
  threadName_eq := by
    rw [lastSet_nil, Option.none_or, Option.getD_or]
    cases file? <;> rfl
  stackSize_eq := by
    rw [Option.or_assoc]
    cases file? <;> simp [withFile?, withFile, withEnvironment, overlay]
  grace_eq := by
    rw [lastSet_nil, Option.none_or, Option.map_or, Option.getD_or]
    cases file? <;> rfl
  path_eq := by
    cases file? <;> rfl
  source_eq := by
    rw [if_neg (by simp)]
    -- An environment that sets nothing is not named as a source.
    by_cases hlayer : l = {}
    · rw [withEnvironment, if_pos hlayer, if_neg (not_not_intro hlayer)]
      cases file? <;> rfl
    · rw [withEnvironment, if_neg hlayer, if_pos hlayer]

/-- The environment takes precedence over the file, and the file over the defaults. -/
theorem merged_withEnvironment (file? : Option (String × Layer)) (env : Environment) :
    ((withFile? file?).withEnvironment env.layer).Merged file? env [] :=
  merged_iff.mpr (mergedFrom_withEnvironment file? env.layer)

/-- Overrides take precedence over whatever was merged before, value by value. -/
theorem MergedFrom.override (h : s.MergedFrom file? l os) (o : Overrides) :
    (s.override o).MergedFrom file? l (os ++ [o]) where
  workers_eq := by
    rw [lastSet_concat, Option.or_assoc, Option.getD_or, ← h.workers_eq]
    rfl
  threadName_eq := by
    rw [lastSet_concat, Option.or_assoc, Option.getD_or, ← h.threadName_eq]
    rfl
  stackSize_eq := by
    rw [← h.stackSize_eq]
    rfl
  grace_eq := by
    rw [lastSet_concat, Option.or_assoc, Option.map_or, Option.getD_or, ← h.grace_eq]
    rfl
  path_eq := h.path_eq
  source_eq := by
    by_cases ho : o = {}
    · simp [Settings.override, ho, h.source_eq]
    · simp [Settings.override, ho]

/-- Overrides take precedence over what was merged from all sources. -/
theorem Merged.override (h : s.Merged file? env os) (o : Overrides) :
    (s.override o).Merged file? env (os ++ [o]) :=
  merged_iff.mpr ((merged_iff.mp h).override o)

/-- Any number of overrides take precedence over what was merged, the later ones over the earlier
ones. -/
theorem Merged.overrideAll (h : s.Merged file? env []) (os : List Overrides) :
    (os.foldl Settings.override s).Merged file? env os := by
  -- The last override is the one on top, so the induction is on the list from its end.
  induction os using List.reverseRecOn with
  | nil => exact h
  | append_singleton os o ih =>
    rw [List.foldl_append]
    exact ih.override o

end Settings

/-! ## Loading -/

section Loading

variable {path : Option String} {files : Files} {env : Environment}
  {file? : Option (String × Layer)} {s : Settings}

/-- The file at the path makes its contribution, if it can be read. -/
theorem FileLayer.merge_eq (h : FileLayer files path file?) :
    merge path files env = .ok ((Settings.withFile? file?).withEnvironment env.layer) := by
  cases h with
  | noPath => rfl
  | absent habsent => simp only [merge, habsent, FileState.text?]; rfl
  | read htext hlayer =>
    simp only [merge, (FileState.text?_eq_ok_some_iff _ _).mpr htext,
      Layer.read?_eq_some_iff.mpr hlayer]
    rfl

/-- Merging fails at a file that cannot be read. -/
theorem FileState.Unreadable.merge_eq {p : String} {fault : FileFault}
    (h : (files p).Unreadable fault) :
    merge (some p) files env = .error (.unreadable p fault.text) := by
  simp only [merge, (FileState.text?_eq_error_iff _ _).mpr h]
  rfl

/-- Merging fails at a file that holds no layer. -/
theorem FileState.Holds.merge_eq {p text : String} (h : (files p).Holds text)
    (hlayer : ¬∃ l, Layer.InText text l) : merge (some p) files env = .error .malformed := by
  simp only [merge, (FileState.text?_eq_ok_some_iff _ _).mpr h,
    Layer.read?_eq_none_iff.mpr hlayer]
  rfl

/-- The file contributes, or it cannot be read, or it holds no layer. -/
theorem fileLayer_cases (path : Option String) (files : Files) :
    (∃ file?, FileLayer files path file?) ∨
      (∃ p fault, path = some p ∧ (files p).Unreadable fault) ∨
      ∃ p text, path = some p ∧ (files p).Holds text ∧ ¬∃ l, Layer.InText text l := by
  cases path with
  | none => exact .inl ⟨none, .noPath⟩
  | some p =>
    cases h : (files p).text? with
    | error fault => exact .inr (.inl ⟨p, fault, rfl, (FileState.text?_eq_error_iff _ _).mp h⟩)
    | ok text? =>
      cases text? with
      | none => exact .inl ⟨none, .absent ((FileState.text?_eq_ok_none_iff _).mp h)⟩
      | some text =>
        have hholds := (FileState.text?_eq_ok_some_iff _ _).mp h
        by_cases hlayer : ∃ l, Layer.InText text l
        · obtain ⟨l, hl⟩ := hlayer
          exact .inl ⟨some (p, l), .read hholds hl⟩
        · exact .inr (.inr ⟨p, text, rfl, hholds, hlayer⟩)

/-- Merging succeeds exactly if the file contributes, with the strongest source of each value. -/
theorem merge_eq_ok_iff : merge path files env = .ok s ↔
    ∃ file?, FileLayer files path file? ∧ s.Merged file? env [] := by
  constructor
  · intro h
    obtain ⟨file?, hfile⟩ | ⟨p, fault, rfl, hfault⟩ | ⟨p, text, rfl, htext, hlayer⟩ :=
      fileLayer_cases path files
    · rw [hfile.merge_eq] at h
      cases h
      exact ⟨file?, hfile, Settings.merged_withEnvironment file? env⟩
    · rw [hfault.merge_eq] at h
      cases h
    · rw [htext.merge_eq hlayer] at h
      cases h
  · rintro ⟨file?, hfile, hmerged⟩
    rw [hfile.merge_eq, hmerged.unique (Settings.merged_withEnvironment file? env)]

/-- Merging fails exactly if the file cannot be read or holds no layer. -/
theorem merge_eq_error_iff {e : ConfigError} : merge path files env = .error e ↔
    (∃ p fault, path = some p ∧ (files p).Unreadable fault ∧ e = .unreadable p fault.text) ∨
      (∃ p text, path = some p ∧ (files p).Holds text ∧ ¬∃ l, Layer.InText text l) ∧
        e = .malformed := by
  constructor
  · intro h
    obtain ⟨file?, hfile⟩ | ⟨p, fault, rfl, hfault⟩ | ⟨p, text, rfl, htext, hlayer⟩ :=
      fileLayer_cases path files
    · rw [hfile.merge_eq] at h
      cases h
    · rw [hfault.merge_eq] at h
      cases h
      exact .inl ⟨p, fault, rfl, hfault, rfl⟩
    · rw [htext.merge_eq hlayer] at h
      cases h
      exact .inr ⟨⟨p, text, rfl, htext, hlayer⟩, rfl⟩
  · rintro (⟨p, fault, rfl, hfault, rfl⟩ | ⟨⟨p, text, rfl, htext, hlayer⟩, rfl⟩)
    · exact hfault.merge_eq
    · exact htext.merge_eq hlayer

/-- What is loaded is what was merged, if it is valid. -/
theorem load_eq_ok_iff : load path files env = .ok s ↔
    merge path files env = .ok s ∧ s.validate = .ok () := by
  rw [load]
  cases merge path files env with
  | error e => exact ⟨nofun, nofun⟩
  | ok merged =>
    cases hvalid : merged.validate with
    | error e =>
      refine ⟨by simp [bind, Except.bind, hvalid], ?_⟩
      rintro ⟨⟨⟩, hok⟩
      rw [hvalid] at hok
      cases hok
    | ok u =>
      simp only [bind, Except.bind, hvalid, Except.ok.injEq]
      refine ⟨?_, And.left⟩
      rintro rfl
      exact ⟨rfl, hvalid⟩

/-- Loading fails if merging does, or if what was merged is invalid. -/
theorem load_eq_error_iff {e : ConfigError} : load path files env = .error e ↔
    merge path files env = .error e ∨
      ∃ s, merge path files env = .ok s ∧ s.validate = .error e := by
  rw [load]
  cases merge path files env with
  | error e' => simp [bind, Except.bind]
  | ok merged =>
    cases hvalid : merged.validate with
    | error e' => simp [bind, Except.bind, hvalid]
    | ok u => simp [bind, Except.bind, hvalid]

/-- What comes of loading a configuration. -/
structure Precedence (path : Option String) (files : Files) (env : Environment) : Prop where
  /-- Loading fails to read exactly if something stands at the path that cannot be read as text. -/
  unreadable_iff : ∀ p cause, load path files env = .error (.unreadable p cause) ↔
    ∃ fault, path = some p ∧ (files p).Unreadable fault ∧ cause = fault.text
  /-- It fails to parse exactly if there is a text, but no document of the expected form. -/
  malformed_iff : load path files env = .error .malformed ↔
    ∃ p text, path = some p ∧ (files p).Holds text ∧ ¬∃ l, Layer.InText text l
  /-- Otherwise it fails exactly if what is merged is invalid, and tells the first defect. -/
  invalid_iff : ∀ reason, load path files env = .error (.invalid reason) ↔
    ∃ file?, ∃ s : Settings, ∃ d, FileLayer files path file? ∧ s.Merged file? env [] ∧
      s.RefusedFor d ∧ reason = d.text
  /-- It succeeds exactly with what is merged, if that is valid. -/
  ok_iff : ∀ s, load path files env = .ok s ↔
    ∃ file?, FileLayer files path file? ∧ s.Merged file? env [] ∧ s.validate = .ok ()
  /-- Overrides take precedence over what was loaded, the last one that sets a value over the
  others. -/
  override : ∀ (s : Settings) (os : List Overrides), load path files env = .ok s →
    ∃ file?, FileLayer files path file? ∧ (os.foldl Settings.override s).Merged file? env os

/-- Which source decides: a configuration that can be read holds for each value what the strongest
source of it says, and one that cannot be read or that is invalid as a whole is told apart. -/
theorem load_precedence (path : Option String) (files : Files) (env : Environment) :
    Precedence path files env where
  unreadable_iff p cause := by
    rw [load_eq_error_iff, merge_eq_error_iff]
    constructor
    · -- The other errors are of other kinds.
      rintro ((⟨p, fault, rfl, hfault, ⟨⟩⟩ | ⟨-, ⟨⟩⟩) | ⟨s, -, hinvalid⟩)
      · exact ⟨fault, rfl, hfault, rfl⟩
      · obtain ⟨d, -, ⟨⟩⟩ := s.validate_eq_error_iff _ |>.mp hinvalid
    · rintro ⟨fault, rfl, hfault, rfl⟩
      exact .inl (.inl ⟨p, fault, rfl, hfault, rfl⟩)
  malformed_iff := by
    rw [load_eq_error_iff, merge_eq_error_iff]
    constructor
    · rintro ((⟨p, fault, -, -, ⟨⟩⟩ | ⟨h, -⟩) | ⟨s, -, hinvalid⟩)
      · exact h
      · obtain ⟨d, -, ⟨⟩⟩ := s.validate_eq_error_iff _ |>.mp hinvalid
    · exact fun h => .inl (.inr ⟨h, rfl⟩)
  invalid_iff reason := by
    rw [load_eq_error_iff, merge_eq_error_iff]
    constructor
    · rintro ((⟨p, fault, -, -, ⟨⟩⟩ | ⟨-, ⟨⟩⟩) | ⟨s, hs, hinvalid⟩)
      obtain ⟨file?, hfile, hmerged⟩ := merge_eq_ok_iff.mp hs
      obtain ⟨d, hd, ⟨⟩⟩ := s.validate_eq_error_iff _ |>.mp hinvalid
      exact ⟨file?, s, d, hfile, hmerged, hd, rfl⟩
    · rintro ⟨file?, s, d, hfile, hmerged, hd, rfl⟩
      exact .inr ⟨s, merge_eq_ok_iff.mpr ⟨file?, hfile, hmerged⟩,
        s.validate_eq_error_iff _ |>.mpr ⟨d, hd, rfl⟩⟩
  ok_iff s := by
    rw [load_eq_ok_iff, merge_eq_ok_iff]
    constructor
    · rintro ⟨⟨file?, hfile, hmerged⟩, hvalid⟩
      exact ⟨file?, hfile, hmerged, hvalid⟩
    · rintro ⟨file?, hfile, hmerged, hvalid⟩
      exact ⟨⟨file?, hfile, hmerged⟩, hvalid⟩
  override s os h := by
    obtain ⟨file?, hfile, hmerged⟩ := merge_eq_ok_iff.mp (load_eq_ok_iff.mp h).1
    exact ⟨file?, hfile, hmerged.overrideAll os⟩

end Loading

end Deferral
