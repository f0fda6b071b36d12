import Deferral.Proofs.Config.Numbers
import Deferral.Proofs.Config.Sufficiency
import Deferral.Proofs.Probe.Arguments

/-!
# Who reads the number of threads

The library and the probe read the same variable of the environment for the number of worker
threads. The library looks for a numeral between blanks and passes over everything else. The probe
takes what the variable holds for an argument, and refuses everything but a numeral on its own.

`Asks` tells what the probe reads, and `ReadAlike` what the two readings have in common when they
agree: the probe runs, and the scope it builds is the one that the loaded configuration gives.

Main statements:
* `Options.workersOf_eq_ok_iff`: what the probe reads from the variable.
* `Asks.workers_eq`: the library reads the same from it.
* `workersReading`: they agree exactly if the variable is unset or holds a numeral and nothing else.
-/

namespace Deferral.Probe

/-- No argument gives the number of worker threads. -/
def WithoutWorkers (arguments : List String) : Prop :=
  ∀ a ∈ arguments, a ≠ "--workers" ∧ ∀ v, a ≠ "--workers=" ++ v

/-- The environment asks for this number of threads as an argument would, or for none. -/
inductive Asks (bindings : List (String × ByteArray)) : Option Nat → Prop
  /-- The variable is unset. -/
  | unset (h : bindings.lookup "SUSPEND_RUNNER_WORKERS" = none) : Asks bindings none
  /-- It holds a numeral of 64 bits, and nothing around it. -/
  | numeral {text : String} {n : Nat}
      (h : bindings.lookup "SUSPEND_RUNNER_WORKERS" = some text.toUTF8)
      (hn : Text.Numeral text.toList n) (hlimit : n < 2 ^ 64) : Asks bindings (some n)

/-- The probe that is called with these arguments reads the number of threads as the library
does, which has loaded these settings: its environment is not refused, and it builds the
scope that they give. -/
def ReadAlike (default : Option String) (files : Files) (bindings : List (String × ByteArray))
    (arguments : List String) (s : Settings) : Prop :=
  ∃ o c, Options.read arguments bindings = .ok o ∧ settings default files bindings o = .ok c ∧
    c.workers = s.workers ∧ ∀ w : System String, w.build c = w.build s

variable {default path : Option String} {files : Files} {bindings : List (String × ByteArray)}
  {arguments : List String} {g : Given} {s : Settings} {n? : Option Nat}

/-- A text is found in bytes exactly if they are its own. -/
theorem fromUTF8?_eq_some_iff {bytes : ByteArray} {text : String} :
    String.fromUTF8? bytes = some text ↔ bytes = text.toUTF8 := by
  rw [← FileState.bytes.injEq, ← FileState.Holds, ← FileState.text?_eq_ok_some_iff, FileState.text?]
  cases String.fromUTF8? bytes <;> simp

/-- The probe reads from the variable exactly what it asks for. -/
theorem Options.workersOf_eq_ok_iff : workersOf bindings = .ok n? ↔ Asks bindings n? := by
  rw [workersOf, Environment.workersVariable]
  constructor
  · intro h
    split at h
    next hunset =>
      cases h
      exact .unset hunset
    next bytes hset =>
      split at h
      next n hread =>
        cases h
        obtain ⟨text, htext, hn⟩ := Option.bind_eq_some_iff.mp hread
        obtain ⟨hn, hlimit⟩ := Text.readNatural?_eq_some_iff.mp hn
        exact .numeral (fromUTF8?_eq_some_iff.mp htext ▸ hset) hn (Text.le_maxWord_iff.mp hlimit)
      next => cases h
  · intro h
    cases h with
    | unset hunset => rw [hunset]
    | numeral hset hn hlimit =>
      have hread := Text.readNatural?_eq_some_iff.mpr ⟨hn, Text.le_maxWord_iff.mpr hlimit⟩
      simp only [hset, fromUTF8?_eq_some_iff.mpr rfl, Option.bind_some, number?, hread]

/-- It refuses the environment if nothing is asked for in this way. -/
theorem Options.workersOf_eq_error (h : ¬∃ n?, Asks bindings n?) :
    workersOf bindings = .error (.wrong (.unsuited .workers)) := by
  have hnot (n? : Option Nat) : workersOf bindings ≠ .ok n? :=
    fun hok => h ⟨n?, workersOf_eq_ok_iff.mp hok⟩
  rw [workersOf] at hnot ⊢
  split
  next hunset =>
    simp only [hunset] at hnot
    exact absurd rfl (hnot none)
  next bytes hset =>
    split
    next n hread =>
      simp only [hset, hread] at hnot
      exact absurd rfl (hnot (some n))
    next => rfl

/-- The library reads the same number. -/
theorem Asks.workers_eq {n : Nat} (h : Asks bindings (some n))
    (hload : load path files (Environment.ofList bindings) = .ok s) : s.workers = n := by
  obtain ⟨file?, -, l, hl, hmerged⟩ := merge_eq_ok_iff.mp (load_eq_ok_iff.mp hload).1
  cases h with
  | @numeral text n hset hn hlimit =>
    have henv : Environment.ofList bindings "SUSPEND_RUNNER_WORKERS" = some text := by
      rw [Environment.ofList, hset, Option.bind_some, fromUTF8?_eq_some_iff]
    have hstands : Text.Stands text n := ⟨⟨_, ⟨[], [], by simp, nofun, nofun⟩, hn⟩, hlimit⟩
    rw [hmerged.workers_eq, (hl.workers_iff n).mpr ⟨text, henv, hstands⟩]
    rfl

/-- Overriding the number of threads with the same one changes nothing but the source. -/
theorem override_eq (s : Settings) (h : ∀ n, n? = some n → s.workers = n) :
    ∃ source, s.override { workers := n? } = { s with source := source } := by
  refine ⟨(s.override { workers := n? }).source, ?_⟩
  cases n? with
  | none => rfl
  | some n =>
    cases h n rfl
    rfl

/-- The source plays no role when a scope is built. -/
theorem build_source {V : Type} (w : System V) (s : Settings) (source : Source) :
    w.build { s with source := source } = w.build s :=
  rfl

/-- Without an argument for it, no number of threads is given. -/
theorem workers_eq_none (hwithout : WithoutWorkers arguments)
    (hgiven : Given.read {} arguments = .ok g) : g.workers = none := by
  obtain ⟨l, hspelled⟩ := Given.exists_spelled_of_read hgiven
  have hvalues : valuesOf .workers l = [] := by
    refine List.eq_nil_iff_forall_not_mem.mpr fun v hv => ?_
    rcases hspelled.mem_of_valued hv with hname | hjoined
    · exact (hwithout _ hname).1 rfl
    · exact (hwithout _ hjoined).2 v rfl
  have hworkers := (Given.extends_of_spelled hspelled hgiven).workers
  rw [hvalues, Given.Reads] at hworkers
  simpa using hworkers

/-- Then it comes from the environment, which is refused if it cannot be read. -/
theorem read_of_withoutWorkers (hwithout : WithoutWorkers arguments)
    (hgiven : Given.read {} arguments = .ok g) :
    Options.read arguments bindings = (Options.workersOf bindings).map g.options := by
  rw [Options.read_of_given hgiven, workers_eq_none hwithout hgiven, Option.elim_none]

/-- The two readings agree exactly if the environment asks for a number of threads as an argument
would, or for none. -/
theorem readAlike_iff (hwithout : WithoutWorkers arguments)
    (hgiven : Given.read {} arguments = .ok g)
    (hload : load (g.config <|> default) files (Environment.ofList bindings) = .ok s) :
    ReadAlike default files bindings arguments s ↔ ∃ n?, Asks bindings n? := by
  rw [ReadAlike, read_of_withoutWorkers hwithout hgiven]
  constructor
  · rintro ⟨o, c, hread, -⟩
    by_contra hnone
    rw [Options.workersOf_eq_error hnone] at hread
    cases hread
  · rintro ⟨n?, hasks⟩
    obtain ⟨source, hoverride⟩ :=
      override_eq s fun n (hn : n? = some n) => (hn ▸ hasks).workers_eq hload
    refine ⟨g.options n?, { s with source := source }, ?_, ?_, rfl,
      fun w => build_source w s source⟩
    · rw [Options.workersOf_eq_ok_iff.mpr hasks]
      rfl
    · rw [← hoverride, settings]
      exact congrArg (· >>= _) hload

/-- A call of the probe whose environment is refused ends at once, whatever is configured. -/
theorem course_of_not_asks (hwithout : WithoutWorkers arguments)
    (hgiven : Given.read {} arguments = .ok g)
    (h : ¬∃ n?, Asks bindings n?) : course default files bindings arguments =
      .over { error := some (UsageError.unsuited .workers).message, status := 2 } := by
  rw [course, read_of_withoutWorkers hwithout hgiven, Options.workersOf_eq_error h]
  rfl

/-- How the library and the probe read the number of threads from an environment, if no
argument gives it. -/
structure WorkersReading (bindings : List (String × ByteArray)) : Prop where
  /-- If the library has loaded the configuration, the probe agrees with it exactly if the variable
  is unset or holds a numeral and nothing else. -/
  readAlike_iff : ∀ default files arguments g s, WithoutWorkers arguments → Given.read {} arguments = .ok g →
    load (g.config <|> default) files (Environment.ofList bindings) = .ok s →
      (ReadAlike default files bindings arguments s ↔ ∃ n?, Asks bindings n?)
  /-- Such a numeral is the number of threads for both. -/
  numeral : ∀ n, Asks bindings (some n) → ∀ path files s,
    load path files (Environment.ofList bindings) = .ok s → s.workers = n
  /-- Everything else is a wrong argument for the probe, whatever is configured. -/
  refused : (¬∃ n?, Asks bindings n?) → ∀ default files arguments g, WithoutWorkers arguments →
    Given.read {} arguments = .ok g → course default files bindings arguments =
      .over { error := some (UsageError.unsuited .workers).message, status := 2 }

/-- The library and the probe read the same number of threads from the environment, unless the
variable holds something else than a numeral on its own, which only the library accepts. -/
theorem workersReading (bindings : List (String × ByteArray)) : WorkersReading bindings where
  readAlike_iff _ _ _ _ _ hwithout hgiven hload := readAlike_iff hwithout hgiven hload
  numeral _ hasks _ _ _ hload := hasks.workers_eq hload
  refused h _ _ _ _ hwithout hgiven := course_of_not_asks hwithout hgiven h

/-- The environment in which only this variable is set, and holds this text. -/
def workersBindings (text : String) : List (String × ByteArray) :=
  [("SUSPEND_RUNNER_WORKERS", text.toUTF8)]

/-- What is loaded in this environment without a file, if it is valid. -/
theorem load_workersBindings {text : String} (hvalid : s.validate = .ok ())
    (h : ({} : Settings).withEnvironment
      { workers := Text.readNatural? Text.maxWord (Text.trim text.toList) } = s) :
    load none (fun _ => .absent) (Environment.ofList (workersBindings text)) = .ok s := by
  -- The environment binds one variable, so it is the empty one with that variable set.
  have henv : Environment.ofList (workersBindings text) =
      Function.update (fun _ => none) Numeric.workers.name (some text) := by
    funext name
    by_cases hname : name = Numeric.workers.name
    · rw [hname, Function.update_self, Environment.ofList, workersBindings, Numeric.name,
        List.lookup_cons_self, Option.bind_some, fromUTF8?_eq_some_iff]
    · rw [Function.update_of_ne hname]
      rw [Numeric.name] at hname
      rw [Environment.ofList, workersBindings, List.lookup_cons, beq_false_of_ne hname]
      rfl
  have hlayer : (Environment.ofList (workersBindings text)).layer =
      { workers := Text.readNatural? Text.maxWord (Text.trim text.toList) } := by
    rw [henv, Numeric.layer_update, Option.bind_some]
    rfl
  refine load_eq_ok_iff.mpr ⟨?_, hvalid⟩
  rw [FileLayer.noPath.merge_eq, hlayer]
  exact congrArg _ h

/-- A text that is no number for an argument asks for none. -/
theorem not_asks_workersBindings {text : String} (h : number? text = none) :
    ¬∃ n?, Asks (workersBindings text) n? := by
  rintro ⟨n?, hasks⟩
  have hread := Options.workersOf_eq_ok_iff.mpr hasks
  rw [Options.workersOf, Environment.workersVariable, workersBindings,
    List.lookup_cons_self] at hread
  simp only [fromUTF8?_eq_some_iff.mpr rfl, Option.bind_some, h] at hread
  cases hread

/-- The library passes over a word and takes a numeral between blanks. The probe refuses both. -/
theorem not_readAlike_many :
    load none (fun _ => .absent) (Environment.ofList (workersBindings "many")) = .ok {} ∧
      ¬ReadAlike none (fun _ => .absent) (workersBindings "many") [] {} ∧
      load none (fun _ => .absent) (Environment.ofList (workersBindings " 4 ")) =
        .ok { workers := 4, source := .environment } ∧
      ¬ReadAlike none (fun _ => .absent) (workersBindings " 4 ") []
        { workers := 4, source := .environment } := by
  have hgiven : Given.read {} [] = .ok {} := rfl
  have hwithout : WithoutWorkers [] := nofun
  have hmany : load none (fun _ => .absent) (Environment.ofList (workersBindings "many")) = .ok {} :=
    load_workersBindings (by decide) (by decide)
  have hpadded : load none (fun _ => .absent) (Environment.ofList (workersBindings " 4 ")) =
      .ok { workers := 4, source := .environment } :=
    load_workersBindings (by decide) (by decide)
  refine ⟨hmany, fun h => ?_, hpadded, fun h => ?_⟩
  · exact not_asks_workersBindings (by decide) ((readAlike_iff hwithout hgiven hmany).mp h)
  · exact not_asks_workersBindings (by decide) ((readAlike_iff hwithout hgiven hpadded).mp h)

end Deferral.Probe
