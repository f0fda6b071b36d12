import Deferral.Proofs.Config.Precedence
import Mathlib.Logic.Function.Basic

/-!
# Numbers in the environment

Three variables of the environment set a number of the configuration. What a variable holds counts
if it is a decimal numeral of 64 bits, perhaps behind a plus sign and between blanks. Anything else
is passed over as if the variable were unset, so that it leaves no trace in the configuration, not
even in its source.

`Text.Stands` tells which texts count, and for which number, without reference to how they are read.

Main statements:
* `merge_of_stands` and `merge_of_not_stands`: what such a text does to what is merged.
* `numeric_effect`: everything that a variable for a number does.
-/

namespace Deferral

/-! ## Variables -/

/-- A variable of the environment that sets a number. -/
inductive Numeric
  /-- The number of worker threads. -/
  | workers
  /-- The stack size. -/
  | stackSize
  /-- The time that a shutdown waits. -/
  | grace
  deriving DecidableEq

namespace Numeric

/-- The name of the variable. -/
def name : Numeric → String
  | workers => "SUSPEND_RUNNER_WORKERS"
  | stackSize => "SUSPEND_RUNNER_STACK_SIZE"
  | grace => "SUSPEND_RUNNER_SHUTDOWN_TIMEOUT_MS"

/-- The layer with this number, or none, in place of its own. -/
def lay (v : Numeric) (n? : Option Nat) (l : Layer) : Layer :=
  match v with
  | workers => { l with workers := n? }
  | stackSize => { l with stackSize := n? }
  | grace => { l with graceMilliseconds := n? }

/-- The configuration with this number, which the environment has set. -/
def put (v : Numeric) (n : Nat) (c : Settings) : Settings :=
  match v with
  | workers => { c with workers := n, source := .environment }
  | stackSize => { c with stackSize := some n, source := .environment }
  | grace => { c with grace := .ofMilliseconds n, source := .environment }

/-- The configuration holds this number. A time in milliseconds is held in seconds and nanoseconds,
of which there are not too many. -/
def Holds (v : Numeric) (n : Nat) (c : Settings) : Prop :=
  match v with
  | workers => c.workers = n
  | stackSize => c.stackSize = some n
  | grace => c.grace.seconds = n / 1000 ∧ c.grace.subsecond = n % 1000 * 10 ^ 6 ∧
      c.grace.nanoseconds ≤ Duration.max.nanoseconds

/-- Two configurations do not differ in what the variable sets. -/
def Agree (v : Numeric) (c c' : Settings) : Prop :=
  match v with
  | workers => c'.workers = c.workers
  | stackSize => c'.stackSize = c.stackSize
  | grace => c'.grace = c.grace

variable {v : Numeric} {env env' : Environment} {n : Nat}

/-- A number of 64 bits that was put there is held. -/
theorem holds_put (v : Numeric) (c : Settings) (h : n < 2 ^ 64) : v.Holds n (v.put n c) := by
  cases v with
  | workers | stackSize => rfl
  | grace =>
    simp only [Holds, put, Duration.seconds, Duration.subsecond, Duration.ofMilliseconds,
      Duration.max, Duration.ofParts, Duration.second, Duration.millisecond, Text.maxWord]
    omega

theorem source_put (v : Numeric) (n : Nat) (c : Settings) : (v.put n c).source = .environment := by
  cases v <;> rfl

/-- Setting a variable to a text changes the environment's layer in its own place only. -/
theorem layer_update (v : Numeric) (t? : Option String) (env : Environment) :
    Environment.layer (Function.update env v.name t?) =
      v.lay (t?.bind fun s => Text.readNatural? Text.maxWord (Text.trim s.toList)) env.layer := by
  cases v <;>
    simp [Environment.layer, Environment.number?, lay, name, Environment.workersVariable,
      Environment.threadNameVariable, Environment.stackSizeVariable, Environment.graceVariable]

/-- A number in the environment is put over what was there. -/
theorem withEnvironment_lay (v : Numeric) (n : Nat) (l : Layer) (c : Settings) :
    c.withEnvironment (v.lay (some n) l) = v.put n (c.withEnvironment (v.lay none l)) := by
  cases v <;> simp [Settings.withEnvironment, Settings.overlay, lay, put]

/-- What the variable sets is the same whatever the rest of the environment is. -/
theorem agree_of_eq (h : env' v.name = env v.name) (c : Settings) :
    v.Agree (c.withEnvironment env.layer) (c.withEnvironment env'.layer) := by
  cases v <;>
    simp only [Agree, name, Settings.withEnvironment, Settings.overlay, Environment.layer,
      Environment.number?, Environment.workersVariable, Environment.stackSizeVariable,
      Environment.graceVariable] at h ⊢ <;>
    rw [h]

/-- The variables have different names. -/
theorem name_ne {u v : Numeric} (h : u ≠ v) : u.name ≠ v.name := by
  cases u <;> cases v <;> first | exact absurd rfl h | decide

/-- None of them holds the thread name. -/
theorem threadNameVariable_ne (v : Numeric) : Environment.threadNameVariable ≠ v.name := by
  cases v <;> decide

end Numeric

/-! ## What is merged -/

section Merging

variable {path : Option String} {files : Files} {env env' : Environment} {v : Numeric}
  {s : String} {n : Nat} {c c' : Settings}

/-- If the environment makes of any settings something else than another one does, it makes the same
of what is merged. -/
theorem merge_map {f : Settings → Settings}
    (h : ∀ c : Settings, c.withEnvironment env'.layer = f (c.withEnvironment env.layer)) :
    merge path files env' = (merge path files env).map f := by
  obtain ⟨file?, hfile⟩ | ⟨p, fault, rfl, hfault⟩ | ⟨p, text, rfl, htext, hlayer⟩ :=
    fileLayer_cases path files
  · rw [hfile.merge_eq, hfile.merge_eq, h]
    rfl
  · rw [hfault.merge_eq, hfault.merge_eq]
    rfl
  · rw [htext.merge_eq hlayer, htext.merge_eq hlayer]
    rfl

/-- A text that stands for a number puts the number over what is merged with the variable unset. -/
theorem merge_of_stands (path : Option String) (files : Files) (env : Environment) (v : Numeric)
    (h : Text.Stands s n) : merge path files (Function.update env v.name (some s)) =
      (merge path files (Function.update env v.name none)).map (v.put n) := by
  refine merge_map fun c => ?_
  rw [Numeric.layer_update, Numeric.layer_update, Option.bind_some, Option.bind_none,
    Text.readNatural?_trim_eq_some_iff.mpr h, Numeric.withEnvironment_lay]

/-- A text that stands for none leaves no trace. -/
theorem merge_of_not_stands (path : Option String) (files : Files) (env : Environment) (v : Numeric)
    (h : ¬∃ n, Text.Stands s n) : merge path files (Function.update env v.name (some s)) =
      merge path files (Function.update env v.name none) := by
  have hnone : Text.readNatural? Text.maxWord (Text.trim s.toList) = none := by
    by_contra hsome
    obtain ⟨n, hn⟩ := Option.ne_none_iff_exists'.mp hsome
    exact h ⟨n, Text.readNatural?_trim_eq_some_iff.mp hn⟩
  have hmap : merge path files (Function.update env v.name (some s)) =
      (merge path files (Function.update env v.name none)).map id := by
    refine merge_map fun c => ?_
    rw [Numeric.layer_update, Numeric.layer_update, Option.bind_some, Option.bind_none, hnone, id]
  rw [hmap]
  cases merge path files (Function.update env v.name none) <;> rfl

/-- What is merged in two environments comes from the same settings. -/
theorem exists_of_merge (h : merge path files env = .ok c) (h' : merge path files env' = .ok c') :
    ∃ base : Settings, c = base.withEnvironment env.layer ∧
      c' = base.withEnvironment env'.layer := by
  obtain ⟨file?, hfile, hmerged⟩ := merge_eq_ok_iff.mp h
  rw [hfile.merge_eq] at h h'
  exact ⟨Settings.withFile? file?, (Except.ok.inj h).symm, (Except.ok.inj h').symm⟩

/-- What is merged is checked, and then it is what is loaded. -/
theorem load_of_merge (h : merge path files env = .ok c) :
    load path files env = c.validate.map fun _ => c := by
  rw [load, h]
  cases hvalid : c.validate <;> simp [bind, Except.bind, Except.map, hvalid]

end Merging

/-- Everything that a variable for a number does to the configuration at the path. -/
structure Numeric.Effect (v : Numeric) (path : Option String) (files : Files) (env : Environment) : Prop where
  /-- A text that stands for a number puts it over what is merged with the variable unset, and
  changes nothing else. -/
  accepts : ∀ s n, Text.Stands s n → merge path files (Function.update env v.name (some s)) =
    (merge path files (Function.update env v.name none)).map (v.put n)
  /-- So what is merged holds exactly this number, and its source is the environment. -/
  holds : ∀ s n c, Text.Stands s n → merge path files (Function.update env v.name (some s)) = .ok c →
    v.Holds n c ∧ c.source = .environment
  /-- A text that stands for none leaves everything as if the variable was unset. -/
  ignores : ∀ s, (¬∃ n, Text.Stands s n) →
    merge path files (Function.update env v.name (some s)) =
        merge path files (Function.update env v.name none) ∧
      load path files (Function.update env v.name (some s)) =
        load path files (Function.update env v.name none)
  /-- What is merged is checked, and then it is what is loaded. -/
  checks : ∀ s? c, merge path files (Function.update env v.name s?) = .ok c →
    load path files (Function.update env v.name s?) = c.validate.map fun _ => c
  /-- Whatever the variable holds, the others have the same effect. -/
  apart : ∀ s? s?' c c', merge path files (Function.update env v.name s?) = .ok c →
    merge path files (Function.update env v.name s?') = .ok c' →
      (∀ u ≠ v, u.Agree c c') ∧ c'.threadName = c.threadName ∧ c'.path = c.path
  /-- No text stands for two numbers. -/
  unique : ∀ s m n, Text.Stands s m → Text.Stands s n → n = m
  /-- Every number of 64 bits is put there by its digits, whatever zeros stand before them, with a
  plus sign or without, and between any blanks. -/
  returns : ∀ n < 2 ^ 64, ∀ before sign after, before ++ after ⊆ Text.whiteSpace →
    sign = [] ∨ sign = ['+'] → ∀ zeros, merge path files (Function.update env v.name
        (some (String.ofList (before ++ (sign ++ (List.replicate zeros '0' ++ Text.decimal n)) ++ after)))) =
      (merge path files (Function.update env v.name none)).map (v.put n)

/-- Each of the three variables sets its number if it holds a numeral of 64 bits, and has no effect
otherwise. -/
theorem numeric_effect (v : Numeric) (path : Option String) (files : Files) (env : Environment) :
    v.Effect path files env where
  accepts s n h := merge_of_stands path files env v h
  holds s n c h hmerge := by
    rw [merge_of_stands path files env v h] at hmerge
    cases hunset : merge path files (Function.update env v.name none) with
    | error e =>
      rw [hunset] at hmerge
      cases hmerge
    | ok base =>
      rw [hunset] at hmerge
      cases hmerge
      exact ⟨v.holds_put base h.2, v.source_put n base⟩
  ignores s h := by
    have hmerge := merge_of_not_stands path files env v h
    exact ⟨hmerge, by rw [load, load, hmerge]⟩
  checks s? c hmerge := load_of_merge hmerge
  apart s? s?' c c' hmerge hmerge' := by
    obtain ⟨base, rfl, rfl⟩ := exists_of_merge hmerge hmerge'
    have hother {a : String} (ha : a ≠ v.name) :
        Function.update env v.name s?' a = Function.update env v.name s? a := by
      rw [Function.update_of_ne ha, Function.update_of_ne ha]
    refine ⟨fun u hu => Numeric.agree_of_eq (hother (Numeric.name_ne hu)) base, ?_, rfl⟩
    simp only [Settings.withEnvironment, Settings.overlay, Environment.layer,
      hother v.threadNameVariable_ne]
  unique s m n h h' := h.unique h'
  returns n hn before sign after hblank hsign zeros := by
    refine merge_of_stands path files env v ⟨⟨_, ⟨before, after, String.toList_ofList, ?_, ?_⟩, ?_⟩, hn⟩
    · exact (List.append_subset.mp hblank).1
    · exact (List.append_subset.mp hblank).2
    · rcases hsign with rfl | rfl
      · exact .plain (Text.denotes_decimal zeros n)
      · exact .signed (Text.denotes_decimal zeros n)

/-- The greatest number counts, and the next one does not. -/
example : Text.readNatural? Text.maxWord (Text.trim " +018446744073709551615	".toList) =
    some 18446744073709551615 ∧
      Text.readNatural? Text.maxWord (Text.trim "18446744073709551616".toList) = none := by
  decide +kernel

end Deferral
