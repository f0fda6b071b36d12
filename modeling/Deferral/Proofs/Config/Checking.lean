import Deferral.Probe.Basic
import Deferral.Proofs.Config.Precedence

/-!
# Where the configuration is checked

Overrides take precedence over what was loaded, but the configuration is checked twice on its way to
a scope: when it was loaded, before the overrides are applied, and again when the scope is built,
after them. So the overrides can spoil a configuration, but they cannot repair one. The environment
can repair what the file sets, since these two are merged before the first check.

The documented priority alone would have a configuration refused exactly if the configuration
with the overrides merged into it is invalid. `PriorityDecides` says so, and the main statement
says where it holds.

Main statements:
* `rejected_iff`: what is refused, and for which reason.
* `checking_overrides`: the priority decides unless the overrides repair what was loaded, and a call
  of the probe ends with whatever is refused.
-/

namespace Deferral

/-- On the way to a scope of a system, the configuration at the path with the overrides on top is
refused as invalid for this reason. -/
inductive Rejected {V : Type} (w : System V) (path : Option String) (files : Files) (env : Environment)
    (o : Overrides) (reason : String) : Prop
  /-- It is refused when it is loaded. -/
  | loading (h : load path files env = .error (.invalid reason)) : Rejected w path files env o reason
  /-- It is loaded, but no scope is built from it with the overrides on top. -/
  | building (s : Settings) (hload : load path files env = .ok s)
      (hbuild : w.build (s.override o) = .refused (.config (.invalid reason))) :
      Rejected w path files env o reason

/-- The documented priority decides: the configuration is refused as invalid exactly if what is
merged from all sources, the overrides on top, is invalid. -/
def PriorityDecides {V : Type} (w : System V) (path : Option String) (files : Files) (env : Environment)
    (o : Overrides) : Prop :=
  ∀ (file? : Option (String × Layer)) (s : Settings), FileLayer files path file? →
    s.Merged file? env [o] → ((∃ reason, Rejected w path files env o reason) ↔ ∃ d, s.RefusedFor d)

namespace Settings

/-- The check passes exactly if there is no defect. -/
theorem validate_eq_ok_iff (s : Settings) : s.validate = .ok () ↔ ¬∃ d, s.RefusedFor d := by
  simp only [← defect?_eq_some_iff, validate]
  cases s.defect? <;> simp

/-- The check fails with the wording of the defect. -/
theorem validate_eq_invalid_iff (s : Settings) (reason : String) :
    s.validate = .error (.invalid reason) ↔ ∃ d, s.RefusedFor d ∧ reason = d.text := by
  rw [validate_eq_error_iff]
  simp only [ConfigError.invalid.injEq]

end Settings

/-- No scope is built from settings exactly if they do not pass the check. -/
theorem System.build_eq_refused_iff {V : Type} (w : System V) (s : Settings) (f : Failure) :
    w.build s = .refused f ↔ ∃ e, s.validate = .error e ∧ f = .config e := by
  rw [build]
  cases s.validate with
  | error e => simp [eq_comm]
  | ok u =>
    simp only
    split <;> simp

section Checking

variable {V : Type} {w : System V} {path : Option String} {files : Files} {env : Environment}
  {file? : Option (String × Layer)} {o : Overrides} {base final : Settings} {reason : String}

/-- What is merged with the overrides on top is what is merged without them, overridden. -/
theorem FileLayer.override_eq (hfile : FileLayer files path file?)
    (hmerge : merge path files env = .ok base)
    (hfinal : final.Merged file? env [o]) : base.override o = final := by
  have hbase := Settings.merged_withEnvironment file? env
  cases hmerge.symm.trans (merge_eq_ok_iff.mpr ⟨file?, hfile, hbase⟩)
  exact hfinal.unique (hbase.override o)

/-- A configuration is refused if it is invalid without the overrides, and otherwise if it is
invalid with them. -/
theorem rejected_iff (hmerge : merge path files env = .ok base) :
    Rejected w path files env o reason ↔
      ∃ d, (base.RefusedFor d ∨ (¬∃ d', base.RefusedFor d') ∧ (base.override o).RefusedFor d) ∧
      reason = d.text := by
  constructor
  · intro h
    cases h with
    | loading hload =>
      -- Merging succeeds, so it is the check of what was merged that has failed.
      rcases load_eq_error_iff.mp hload with hfailed | ⟨s, hs, hinvalid⟩
      · cases hmerge.symm.trans hfailed
      · cases hmerge.symm.trans hs
        obtain ⟨d, hd, hreason⟩ := (base.validate_eq_invalid_iff reason).mp hinvalid
        exact ⟨d, .inl hd, hreason⟩
    | building s hload hbuild =>
      -- That check has passed, and it is made once more with the overrides on top.
      obtain ⟨hs, hvalid⟩ := load_eq_ok_iff.mp hload
      cases hmerge.symm.trans hs
      obtain ⟨e, hinvalid, he⟩ := (w.build_eq_refused_iff _ _).mp hbuild
      cases he
      obtain ⟨d, hd, hreason⟩ := (Settings.validate_eq_invalid_iff _ reason).mp hinvalid
      exact ⟨d, .inr ⟨base.validate_eq_ok_iff.mp hvalid, hd⟩, hreason⟩
  · rintro ⟨d, hd | ⟨hvalid, hd⟩, hreason⟩
    · have hinvalid := (base.validate_eq_invalid_iff reason).mpr ⟨d, hd, hreason⟩
      exact .loading (load_eq_error_iff.mpr (.inr ⟨base, hmerge, hinvalid⟩))
    · have hload := load_eq_ok_iff.mpr ⟨hmerge, base.validate_eq_ok_iff.mpr hvalid⟩
      have hinvalid := (Settings.validate_eq_invalid_iff _ reason).mpr ⟨d, hd, hreason⟩
      exact .building base hload ((w.build_eq_refused_iff _ _).mpr ⟨_, hinvalid, rfl⟩)

/-- Something is refused exactly if it is invalid without the overrides or with them. -/
theorem exists_rejected_iff (hmerge : merge path files env = .ok base) :
    (∃ reason, Rejected w path files env o reason) ↔
      (∃ d, base.RefusedFor d) ∨ ∃ d, (base.override o).RefusedFor d := by
  simp only [rejected_iff hmerge]
  constructor
  · rintro ⟨_, d, hd | ⟨-, hd⟩, -⟩
    · exact .inl ⟨d, hd⟩
    · exact .inr ⟨d, hd⟩
  · rintro (⟨d, hd⟩ | ⟨d, hd⟩)
    · exact ⟨_, d, .inl hd, rfl⟩
    -- A defect without the overrides is found first, and is the one that is told.
    · by_cases hvalid : ∃ d', base.RefusedFor d'
      · obtain ⟨d', hd'⟩ := hvalid
        exact ⟨_, d', .inl hd', rfl⟩
      · exact ⟨_, d, .inr ⟨hvalid, hd⟩, rfl⟩

/-- The priority decides unless the overrides repair what is invalid without them. -/
theorem priorityDecides_iff (hfile : FileLayer files path file?)
    (hmerge : merge path files env = .ok base) : PriorityDecides w path files env o ↔
      ((∃ d, base.RefusedFor d) → ∃ d, (base.override o).RefusedFor d) := by
  constructor
  · intro h hinvalid
    have hfinal := (Settings.merged_withEnvironment file? env).override o
    rw [hfile.override_eq hmerge hfinal]
    exact (h file? _ hfile hfinal).mp ((exists_rejected_iff hmerge).mpr (.inl hinvalid))
  -- What has a defect with the overrides is refused in any case, so only the other
  -- direction can fail.
  · intro h file?' s hfile' hs
    obtain rfl := hfile'.override_eq hmerge hs
    rw [exists_rejected_iff hmerge]
    exact or_iff_right_of_imp h

end Checking

namespace Probe

variable {default : Option String} {files : Files} {bindings : List (String × ByteArray)}
  {arguments : List String} {o : Options} {reason : String}

/-- The message with which a call of the probe ends for an invalid configuration. That a scope was
to be built from it is told only if it was loaded. -/
inductive Tells (reason : String) : String → Prop
  /-- The configuration was not loaded. -/
  | loading : Tells reason (ConfigError.invalid reason).message
  /-- No scope was built from it. -/
  | building : Tells reason (Failure.config (.invalid reason)).message

/-- A call of the probe whose configuration is refused ends at once and tells the reason. -/
theorem course_of_rejected (hread : Options.read arguments bindings = .ok o)
    (h : Rejected ({} : System String) (o.config <|> default) files (Environment.ofList bindings)
      { workers := o.workers } reason) :
    ∃ message, Tells reason message ∧
      course default files bindings arguments = .over { error := some message, status := 1 } := by
  rw [course, hread]
  cases h with
  | loading h =>
    have hsettings : settings default files bindings o = .error (.invalid reason) := by
      rw [settings, h]
      rfl
    exact ⟨_, .loading, by simp only [hsettings]⟩
  | building s h hbuild =>
    have hsettings :
        settings default files bindings o = .ok (s.override { workers := o.workers }) := by
      rw [settings, h]
      rfl
    exact ⟨_, .building, by simp only [hsettings, hbuild]⟩

end Probe

/-- How the configuration at the path, of which `base` is merged without the overrides and `final`
with them, is checked on the way to a scope. -/
structure Checking {V : Type} (w : System V) (path : Option String) (files : Files) (env : Environment)
    (o : Overrides) (base final : Settings) : Prop where
  /-- It is refused for the first defect that it has without the overrides, and if it has none, for
  the first one that it has with them. -/
  rejected_iff : ∀ reason, Rejected w path files env o reason ↔
    ∃ d, (base.RefusedFor d ∨ (¬∃ d', base.RefusedFor d') ∧ final.RefusedFor d) ∧ reason = d.text
  /-- So it is refused if it is invalid with the overrides, as the priority demands. -/
  spoiled : ∀ d, final.RefusedFor d → ∃ reason, Rejected w path files env o reason
  /-- If it is not refused, it is loaded, and a scope is built from it unless its
  threads cannot be made. -/
  accepted : (¬∃ reason, Rejected w path files env o reason) →
    load path files env = .ok base ∧ ∀ f, w.build final ≠ .refused f
  /-- The priority decides exactly if the overrides do not repair what is invalid without them. -/
  decides_iff : PriorityDecides w path files env o ↔
    ((∃ d, base.RefusedFor d) → ∃ d, final.RefusedFor d)
  /-- A call of the probe with these sources ends at once if it is refused. -/
  probe : ∀ default bindings arguments options, Probe.Options.read arguments bindings = .ok options →
    (options.config <|> default) = path → Environment.ofList bindings = env →
    ({ workers := options.workers } : Overrides) = o → ∀ reason, Rejected w path files env o reason →
      ∃ message, Probe.Tells reason message ∧
        Probe.course default files bindings arguments = .over { error := some message, status := 1 }

/-- For every file that can be read, every environment and all overrides, the configuration is
checked without the overrides and with them, so that it is refused for every defect of what the
documented priority makes of the sources, but also for one that the overrides repair. -/
theorem checking_overrides {V : Type} (w : System V) {path : Option String} {files : Files}
    {env : Environment} {file? : Option (String × Layer)} {o : Overrides} {base final : Settings}
    (hfile : FileLayer files path file?) (hbase : base.Merged file? env [])
    (hfinal : final.Merged file? env [o]) : Checking w path files env o base final := by
  have hmerge : merge path files env = .ok base := merge_eq_ok_iff.mpr ⟨file?, hfile, hbase⟩
  obtain rfl := hfile.override_eq hmerge hfinal
  refine ⟨fun reason => rejected_iff hmerge, ?_, ?_, priorityDecides_iff hfile hmerge, ?_⟩
  · intro d hd
    exact (exists_rejected_iff hmerge).mpr (.inr ⟨d, hd⟩)
  · intro haccepted
    rw [exists_rejected_iff hmerge, not_or] at haccepted
    refine ⟨load_eq_ok_iff.mpr ⟨hmerge, base.validate_eq_ok_iff.mpr haccepted.1⟩, fun f hf => ?_⟩
    obtain ⟨e, hinvalid, -⟩ := (w.build_eq_refused_iff _ f).mp hf
    cases hinvalid.symm.trans ((Settings.validate_eq_ok_iff _).mpr haccepted.2)
  · rintro default bindings arguments options hread rfl rfl rfl reason h
    -- Whether it is refused does not depend on the system, which in the probe is an empty one.
    exact Probe.course_of_rejected hread ((rejected_iff hmerge).mpr ((rejected_iff hmerge).mp h))

/-- A file that asks for no worker threads, where the configuration is looked for. -/
def idleFile : Files := fun _ => .bytes "[runtime]\nworker_threads = 0\n".toUTF8

/-- What the file holds. -/
theorem idleFile_layer :
    FileLayer idleFile (some "runner.toml") (some ("runner.toml", { workers := some 0 })) :=
  .read rfl (Layer.read?_eq_some_iff.mp (by decide +kernel))

/-- What is merged if nothing else is set. -/
theorem idleFile_merge : merge (some "runner.toml") idleFile (fun _ => none) =
    .ok { workers := 0, path := some "runner.toml", source := .file } :=
  idleFile_layer.merge_eq

/-- The file is refused, although the command line asks for a worker thread. -/
theorem checking_idleFile : Checking ({} : System Nat) (some "runner.toml") idleFile (fun _ => none)
    { workers := some 1 } { workers := 0, path := some "runner.toml", source := .file }
    { workers := 1, path := some "runner.toml", source := .commandLine } := by
  have hbase := Settings.merged_withEnvironment (some ("runner.toml", { workers := some 0 })) fun _ => none
  exact checking_overrides {} idleFile_layer hbase (hbase.override { workers := some 1 })

/-- By the documented priority the file does no harm, since what is merged with the command line on
top has no defect. It is refused all the same, and the call of the probe fails. -/
theorem not_priorityDecides_idleFile :
    ¬PriorityDecides ({} : System Nat) (some "runner.toml") idleFile (fun _ => none)
        { workers := some 1 } ∧
      Probe.course (some "runner.toml") idleFile [] ["--workers", "1"] =
        .over { error := some "Invalid configuration: worker_threads must be at least 1", status := 1 } := by
  refine ⟨fun h => ?_, ?_⟩
  · obtain ⟨d, hd⟩ := (priorityDecides_iff idleFile_layer idleFile_merge).mp h ⟨_, .noWorkers rfl⟩
    exact (Settings.validate_eq_ok_iff _).mp (by decide) ⟨d, hd⟩
  · have hread : Probe.Options.read ["--workers", "1"] [] = .ok { workers := some 1 } := rfl
    have hload : load (some "runner.toml") idleFile (Environment.ofList []) =
        .error (.invalid Defect.noWorkers.text) :=
      load_eq_error_iff.mpr (.inr ⟨_, idleFile_merge, by decide⟩)
    have hsettings : Probe.settings (some "runner.toml") idleFile [] { workers := some 1 } =
        .error (.invalid Defect.noWorkers.text) := by
      rw [Probe.settings]
      exact congrArg (· >>= _) hload
    simp only [Probe.course, hread, hsettings]
    rfl

end Deferral
