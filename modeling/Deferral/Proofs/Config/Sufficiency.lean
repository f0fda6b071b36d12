import Deferral.Proofs.Config.Checking

/-!
# What the check lets through

A scope is built from a configuration only if the configuration passes the check. The threads of its
pool can be made if there is at least one, if they have a stack, and if there is no null character
in their name. The check asks for the first two. It also refuses a name of nothing but blanks, but a
null character is none, and a name that holds one gets through. Then the threads cannot be made, and
the caller panics instead of being told an error.

`Settings.Makeable` says what making the threads demands, and `Settings.CheckSuffices` that whatever
passes the check meets it.

Main statements:
* `checkSuffices_iff`: the check suffices unless a null character in the name gets through.
* `sufficiency`: what becomes of every configuration, and of what the sources are merged to.
-/

namespace Deferral

namespace Settings

variable {c : Settings} {file? : Option (String × Layer)} {env : Environment} {os : List Overrides}

/-- The character that no thread's name can hold. -/
def null : Char := '\x00'

/-- The threads of a pool can be made from the configuration without a panic. -/
structure Makeable (c : Settings) : Prop where
  /-- There is at least one. -/
  workers_pos : 1 ≤ c.workers
  /-- Their stack, if it is set, is not empty. -/
  stackSize_ne : c.stackSize ≠ some 0
  /-- Their name holds no null character. -/
  null_notMem : null ∉ c.threadName.toList

/-- The check is sufficient for the configuration: if it is passed, the threads can be made. -/
def CheckSuffices (c : Settings) : Prop :=
  c.validate = .ok () → c.Makeable

/-- What passes the check has threads, and they have a stack. -/
theorem pos_and_ne_of_validate (h : c.validate = .ok ()) :
    1 ≤ c.workers ∧ c.stackSize ≠ some 0 := by
  have hsound := c.validate_eq_ok_iff.mp h
  have hworkers : c.workers ≠ 0 := fun hzero => hsound ⟨_, .noWorkers hzero⟩
  refine ⟨Nat.one_le_iff_ne_zero.mpr hworkers, fun hstack => ?_⟩
  -- An empty stack is found if no other defect is found before it.
  by_cases hname : c.threadName.toList ⊆ Text.whiteSpace
  · exact hsound ⟨_, .blankName hworkers hname⟩
  · exact hsound ⟨_, .emptyStack hworkers hname hstack⟩

/-- What passes the check can be made exactly if there is no null character in the name. -/
theorem makeable_iff_of_validate (h : c.validate = .ok ()) :
    c.Makeable ↔ null ∉ c.threadName.toList := by
  obtain ⟨hworkers, hstack⟩ := pos_and_ne_of_validate h
  exact ⟨Makeable.null_notMem, fun hnull => ⟨hworkers, hstack, hnull⟩⟩

/-- The check suffices exactly if a null character in the name does not get through. -/
theorem checkSuffices_iff (c : Settings) :
    c.CheckSuffices ↔ (null ∈ c.threadName.toList → ∃ d, c.RefusedFor d) := by
  constructor
  · intro h hnull
    by_contra hsound
    exact (h (c.validate_eq_ok_iff.mpr hsound)).null_notMem hnull
  · intro h hvalid
    exact (makeable_iff_of_validate hvalid).mpr fun hnull =>
      c.validate_eq_ok_iff.mp hvalid (h hnull)

/-- The name that is merged is one of the names that the sources set, or the default. -/
theorem Merged.threadName_cases (h : c.Merged file? env os) :
    (∃ o ∈ os, o.threadName = some c.threadName) ∨
      env Environment.threadNameVariable = some c.threadName ∨
      (∃ f, file? = some f ∧ f.2.threadName = some c.threadName) ∨
      c.threadName = ({} : Settings).threadName := by
  obtain ⟨l, hl, hmerged⟩ := h
  have hname := hmerged.threadName_eq
  cases hlast : lastSet Overrides.threadName os with
  | some name =>
    rw [hlast, Option.some_or, Option.getD_some] at hname
    obtain ⟨o, ho, hset⟩ := List.mem_filterMap.mp (List.mem_of_getLast? hlast)
    exact .inl ⟨o, ho, hname ▸ hset⟩
  | none =>
    cases hlayer : l.threadName with
    | some name =>
      rw [hlast, hlayer, Option.none_or, Option.some_or, Option.getD_some] at hname
      exact .inr (.inl (hname ▸ (hl.threadName_iff name).mp hlayer))
    | none =>
      rw [hlast, hlayer, Option.none_or, Option.none_or] at hname
      cases hfile : file?.bind fun f => f.2.threadName with
      | some name =>
        rw [hfile, Option.getD_some] at hname
        obtain ⟨f, hf, hset⟩ := Option.bind_eq_some_iff.mp hfile
        exact .inr (.inr (.inl ⟨f, hf, hname ▸ hset⟩))
      | none =>
        rw [hfile, Option.getD_none] at hname
        exact .inr (.inr (.inr hname))

/-- No source sets a name with a null character in it. -/
structure NullFree (file? : Option (String × Layer)) (env : Environment) (os : List Overrides) : Prop where
  /-- The file does not. -/
  file : ∀ f name, file? = some f → f.2.threadName = some name → null ∉ name.toList
  /-- The environment does not. -/
  environment : ∀ name, env Environment.threadNameVariable = some name → null ∉ name.toList
  /-- No override does. -/
  overrides : ∀ o ∈ os, ∀ name, o.threadName = some name → null ∉ name.toList

/-- What is merged from such sources has no null character in its name. -/
theorem Merged.null_notMem (h : c.Merged file? env os) (hfree : NullFree file? env os) :
    null ∉ c.threadName.toList := by
  rcases h.threadName_cases with ⟨o, ho, hset⟩ | hset | ⟨f, hf, hset⟩ | hdefault
  · exact hfree.overrides o ho _ hset
  · exact hfree.environment _ hset
  · exact hfree.file f _ hf hset
  · rw [hdefault]
    decide

end Settings

/-- The threads of a pool are made as the configuration says, if they can be made. -/
theorem Pool.create?_of_makeable {c : Settings} (h : c.Makeable) :
    Pool.create? c.threadName c.workers c.stackSize =
      some { threadName := c.threadName, workers := c.workers } := by
  rw [create?, if_neg]
  rintro (hworkers | hstack | hnull)
  · exact Nat.one_le_iff_ne_zero.mp h.workers_pos hworkers
  · exact h.stackSize_ne hstack
  · exact h.null_notMem hnull

/-- They are not made exactly if they cannot be. -/
theorem Pool.create?_eq_none_iff (c : Settings) :
    Pool.create? c.threadName c.workers c.stackSize = none ↔ ¬c.Makeable := by
  constructor
  · intro hnone h
    cases hnone.symm.trans (create?_of_makeable h)
  · intro h
    rw [create?, if_pos]
    by_contra hneither
    simp only [not_or] at hneither
    exact h ⟨Nat.one_le_iff_ne_zero.mpr hneither.1, hneither.2.1, hneither.2.2⟩

namespace System

variable {V : Type} {w : System V} {c : Settings}

/-- A scope is built from what passes the check and can be made. -/
theorem exists_built (w : System V) (hvalid : c.validate = .ok ()) (h : c.Makeable) :
    ∃ w', w.build c = .built w.scopes.length w' ∧
      w'.pools = w.pools ++ [{ threadName := c.threadName, workers := c.workers }] := by
  simp only [build, hvalid, Pool.create?_of_makeable h]
  exact ⟨_, rfl, rfl⟩

/-- The caller panics exactly if the configuration passes the check and its threads
cannot be made. -/
theorem build_eq_collapsed_iff (w : System V) (c : Settings) :
    w.build c = .collapsed ↔ c.validate = .ok () ∧ ¬c.Makeable := by
  rw [build, ← Pool.create?_eq_none_iff]
  cases c.validate with
  | error e => simp
  | ok u => cases Pool.create? c.threadName c.workers c.stackSize <;> simp

/-- The caller panics exactly if a null character in the name gets through the check. -/
theorem build_eq_collapsed_iff_null_mem (w : System V) (c : Settings) :
    w.build c = .collapsed ↔ (¬∃ d, c.RefusedFor d) ∧ Settings.null ∈ c.threadName.toList := by
  rw [build_eq_collapsed_iff, ← c.validate_eq_ok_iff]
  constructor
  · rintro ⟨hvalid, h⟩
    refine ⟨hvalid, ?_⟩
    by_contra hnull
    exact h ((Settings.makeable_iff_of_validate hvalid).mpr hnull)
  · exact fun ⟨hvalid, hnull⟩ => ⟨hvalid, fun h => h.null_notMem hnull⟩

end System

/-- What becomes of a configuration that a scope of a system is to be built from. -/
structure Sufficiency {V : Type} (w : System V) (c : Settings) : Prop where
  /-- The check suffices exactly if a null character in the name does not get through. -/
  suffices_iff : c.CheckSuffices ↔ (Settings.null ∈ c.threadName.toList → ∃ d, c.RefusedFor d)
  /-- What else the threads demand is checked: there are some, and they have a stack. -/
  covers : c.validate = .ok () → 1 ≤ c.workers ∧ c.stackSize ≠ some 0
  /-- A configuration with a defect, and no other, is answered with an error that
  tells the first one. -/
  refused_iff : ∀ f, w.build c = .refused f ↔ ∃ d, c.RefusedFor d ∧ f = .config (.invalid d.text)
  /-- The caller panics exactly if a null character in the name gets through. -/
  collapsed_iff : w.build c = .collapsed ↔
    (¬∃ d, c.RefusedFor d) ∧ Settings.null ∈ c.threadName.toList
  /-- Otherwise he gets a scope on a pool with the threads that the configuration asks for. -/
  builds : (¬∃ d, c.RefusedFor d) → Settings.null ∉ c.threadName.toList →
    ∃ w', w.build c = .built w.scopes.length w' ∧
      w'.pools = w.pools ++ [{ threadName := c.threadName, workers := c.workers }]
  /-- What is merged from sources of which none sets a name with a null character does no harm. -/
  merged : ∀ file? env os, c.Merged file? env os → Settings.NullFree file? env os →
    c.CheckSuffices ∧ w.build c ≠ .collapsed

/-- For every configuration, the check suffices unless there is a null character in the name, which
it does not look for. -/
theorem sufficiency {V : Type} (w : System V) (c : Settings) : Sufficiency w c where
  suffices_iff := c.checkSuffices_iff
  covers h := Settings.pos_and_ne_of_validate h
  refused_iff f := by
    rw [w.build_eq_refused_iff]
    simp only [Settings.validate_eq_error_iff]
    constructor
    · rintro ⟨_, ⟨d, hd, rfl⟩, rfl⟩
      exact ⟨d, hd, rfl⟩
    · rintro ⟨d, hd, rfl⟩
      exact ⟨_, ⟨d, hd, rfl⟩, rfl⟩
  collapsed_iff := w.build_eq_collapsed_iff_null_mem c
  builds hsound hnull := by
    have hvalid := c.validate_eq_ok_iff.mpr hsound
    exact w.exists_built hvalid ((Settings.makeable_iff_of_validate hvalid).mpr hnull)
  merged file? env os hmerged hfree := by
    have hnull := hmerged.null_notMem hfree
    refine ⟨c.checkSuffices_iff.mpr fun h => absurd h hnull, fun hcollapsed => ?_⟩
    exact hnull ((w.build_eq_collapsed_iff_null_mem c).mp hcollapsed).2

/-- A file that sets a name with a null character, where the configuration is looked for. -/
def nullFile : Files := fun _ => .bytes "[runtime]\nthread_name = \"a\\u0000b\"\n".toUTF8

/-- The defaults with this name. -/
def nullSettings : Settings :=
  { threadName := "a\x00b", path := some "runner.toml", source := .file }

/-- The file is loaded, and the name gets through the check. The caller that builds a scope from it
panics, and so does the probe, which tells no error. -/
theorem not_checkSuffices_nullSettings :
    load (some "runner.toml") nullFile (fun _ => none) = .ok nullSettings ∧
      nullSettings.validate = .ok () ∧ ¬nullSettings.CheckSuffices ∧
      ({} : System Nat).build nullSettings = .collapsed ∧
      Probe.course (some "runner.toml") nullFile [] [] = .over { status := 101 } := by
  have hvalid : nullSettings.validate = .ok () := by decide
  have hnull : Settings.null ∈ nullSettings.threadName.toList := by decide
  have hlayer : FileLayer nullFile (some "runner.toml") (some ("runner.toml", { threadName := some "a\x00b" })) :=
    .read rfl (Layer.read?_eq_some_iff.mp (by decide +kernel))
  have hload {env : Environment} (henv : env.layer = {}) :
      load (some "runner.toml") nullFile env = .ok nullSettings := by
    refine load_eq_ok_iff.mpr ⟨?_, hvalid⟩
    rw [hlayer.merge_eq, henv]
    rfl
  have hcollapsed {V : Type} : ({} : System V).build nullSettings = .collapsed :=
    (System.build_eq_collapsed_iff_null_mem _ _).mpr ⟨nullSettings.validate_eq_ok_iff.mp hvalid, hnull⟩
  refine ⟨hload rfl, hvalid, fun h => (h hvalid).null_notMem hnull, hcollapsed, ?_⟩
  have hread : Probe.Options.read [] [] = .ok {} := rfl
  have hsettings : Probe.settings (some "runner.toml") nullFile [] {} = .ok nullSettings := by
    rw [Probe.settings]
    exact congrArg (· >>= _) (hload rfl)
  simp only [Probe.course, hread, hsettings, hcollapsed]

end Deferral
