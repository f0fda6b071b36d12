import Deferral.Probe.Options

/-!
# What stands on the command line

A command line spells a list of options. An option with a value stands as one argument, with
an equals sign before the value, or as two; an option without stands as one. `Spelled` tells
which options a command line spells, and `Given.Extends` what options give in addition to
what was given before.

Main statements:
* `Given.exists_spelled_of_read`: a command line that is read spells options.
* `Given.extends_of_spelled`: the options that it spells are those that are given.
* `Spelled.mem_of_valued`: what the arguments of an option with a value look like.
-/

namespace Deferral.Probe

/-- An option on the command line. -/
inductive Argument
  /-- An option with its value. -/
  | valued (k : Key) (v : String)
  /-- An option without a value. -/
  | flag (f : Flag)
  deriving DecidableEq

/-- The arguments spell these options, one after the other. -/
inductive Spelled : List String → List Argument → Prop
  /-- There are no arguments. -/
  | done : Spelled [] []
  /-- There is only the mark behind which there are no options. -/
  | mark : Spelled ["--"] []
  /-- A value stands behind an equals sign. -/
  | joined {rest : List String} {l : List Argument} (k : Key) (v : String) (h : Spelled rest l) :
      Spelled (("--" ++ k.name ++ "=" ++ v) :: rest) (.valued k v :: l)
  /-- A value is an argument of its own, which does not look like an option. -/
  | apart {rest : List String} {l : List Argument} (k : Key) (v : String) (hv : isValue v = true)
      (h : Spelled rest l) : Spelled (("--" ++ k.name) :: v :: rest) (.valued k v :: l)
  /-- An option has no value. -/
  | flag {rest : List String} {l : List Argument} (f : Flag) (h : Spelled rest l) :
      Spelled (("--" ++ f.name) :: rest) (.flag f :: l)

/-- The values of an option, in the order in which they stand. -/
def valuesOf (k : Key) (l : List Argument) : List String :=
  l.filterMap fun
    | .valued k' v => if k' = k then some v else none
    | .flag _ => none

/-- An option with a value takes an argument that begins with its name. -/
theorem Spelled.mem_of_valued {arguments : List String} {l : List Argument} {k : Key} {v : String}
    (h : Spelled arguments l) (hmem : v ∈ valuesOf k l) :
    "--" ++ k.name ∈ arguments ∨ "--" ++ k.name ++ "=" ++ v ∈ arguments := by
  -- The value is that of the first argument, or of a later one.
  have hcons {a : Argument} {l : List Argument} (hmem : v ∈ valuesOf k (a :: l)) :
      a = .valued k v ∨ v ∈ valuesOf k l := by
    rw [valuesOf, List.filterMap_cons] at hmem
    cases a with
    | flag f => exact .inr hmem
    | valued k' v' =>
      by_cases hk : k' = k
      · simp only [hk, if_true, List.mem_cons] at hmem
        exact hmem.imp (fun heq => by rw [hk, heq]) id
      · simp only [hk, if_false] at hmem
        exact .inr hmem
  induction h with
  | done | mark => cases hmem
  | joined k' v' h ih =>
    rcases hcons hmem with ⟨⟨⟩⟩ | hmem
    · exact .inr List.mem_cons_self
    · exact (ih hmem).imp (List.mem_cons_of_mem _) (List.mem_cons_of_mem _)
  | apart k' v' hv h ih =>
    rcases hcons hmem with ⟨⟨⟩⟩ | hmem
    · exact .inl List.mem_cons_self
    · exact (ih hmem).imp (fun hmem => List.mem_cons_of_mem _ (List.mem_cons_of_mem _ hmem))
        fun hmem => List.mem_cons_of_mem _ (List.mem_cons_of_mem _ hmem)
  | flag f h ih =>
    rcases hcons hmem with ⟨⟨⟩⟩ | hmem
    exact (ih hmem).imp (List.mem_cons_of_mem _) (List.mem_cons_of_mem _)

/-! ## Tokens -/

namespace Token

variable {s name : List Char}

/-- The mark stands alone. -/
theorem eq_of_mark (h : ofCharacters s = .mark) : s = ['-', '-'] := by
  unfold ofCharacters at h
  split at h
  · rfl
  · split at h <;> cases h
  · cases h
  · cases h

/-- A long option with a value has an equals sign between them. -/
theorem eq_of_long_some {value : List Char} (h : ofCharacters s = .long name (some value)) :
    s = '-' :: '-' :: (name ++ '=' :: value) := by
  unfold ofCharacters at h
  split at h
  · cases h
  next t hmark =>
    split at h
    next c value' hdrop =>
      cases h
      -- Only an equals sign stops the name.
      have hc : c = '=' := by
        have hstop := List.head?_dropWhile_not (· ≠ '=') t
        rw [hdrop] at hstop
        simpa using hstop
      rw [hc] at hdrop
      rw [← hdrop, List.takeWhile_append_dropWhile]
    next => cases h
  · cases h
  · cases h

/-- A long option without a value has nothing behind its name. -/
theorem eq_of_long_none (h : ofCharacters s = .long name none) : s = '-' :: '-' :: name := by
  unfold ofCharacters at h
  split at h
  · cases h
  · split at h
    · cases h
    · cases h
      rfl
  · cases h
  · cases h

end Token

/-- An option that is found by a name has this name. -/
theorem Key.name_of_ofName? {s : String} {k : Key} (h : ofName? s = some k) : k.name = s := by
  simpa using List.find?_some h

/-- A flag that is found by a name has this name. -/
theorem Flag.name_of_ofName? {s : String} {f : Flag} (h : ofName? s = some f) : f.name = s := by
  simpa using List.find?_some h

/-- An option is found by its name. -/
@[simp]
theorem Key.ofName?_name (k : Key) : ofName? k.name = some k := by
  cases k <;> rfl

/-- A flag is found by its name. -/
@[simp]
theorem Flag.ofName?_name (f : Flag) : ofName? f.name = some f := by
  cases f <;> rfl

/-- The name of a flag is none of an option with a value. -/
@[simp]
theorem Key.ofName?_flag_name (f : Flag) : ofName? f.name = none := by
  cases f <;> rfl

/-- A name and a value are read from one argument. -/
theorem Key.ofCharacters_joined (k : Key) (v : String) :
    Token.ofCharacters ("--" ++ k.name ++ "=" ++ v).toList =
      .long k.name.toList (some v.toList) := by
  cases k <;> simp [Key.name, Token.ofCharacters]

/-- A name that stands alone has no value. -/
theorem Key.ofCharacters_name (k : Key) :
    Token.ofCharacters ("--" ++ k.name).toList = .long k.name.toList none := by
  cases k <;> decide

/-- The name of a flag has no value. -/
theorem Flag.ofCharacters_name (f : Flag) :
    Token.ofCharacters ("--" ++ f.name).toList = .long f.name.toList none := by
  cases f <;> decide

namespace Given

/-- The new values are the old ones and those that are read from the texts, all of
which can be read. -/
def Reads {A : Type} (read : String → Option A) (old : List A) (texts : List String) (new : List A) : Prop :=
  new.map some = old.map some ++ texts.map read

namespace Reads

variable {A : Type} {read : String → Option A} {old new newer : List A} {texts texts' : List String}

/-- Without texts nothing is added. -/
theorem nil (read : String → Option A) (old : List A) : Reads read old [] old := by
  rw [Reads, List.map_nil, List.append_nil]

/-- What is read is added one after the other. -/
theorem append (h : Reads read old texts new) (h' : Reads read new texts' newer) :
    Reads read old (texts ++ texts') newer := by
  rw [Reads] at h h' ⊢
  rw [h', h, List.map_append, List.append_assoc]

/-- A text that can be read adds what is read to what can be given once, if it was not given. -/
theorem once {old? : Option A} {text : String} {a : A} (hold : old? = none)
    (h : read text = some a) : Reads read old?.toList [text] [a] := by
  rw [hold, Reads, List.map_singleton, List.map_singleton, h]
  rfl

end Reads

/-- Options give this in addition to what was given before. What can be given once has
one value at most. -/
structure Extends (g : Given) (l : List Argument) (g' : Given) : Prop where
  /-- The value to echo is any text. -/
  value : Reads some g.value.toList (valuesOf .value l) g'.value.toList
  /-- The delay is a number. -/
  delay : Reads number? g.delay.toList (valuesOf .delay l) g'.delay.toList
  /-- The limit for a mono is a number. -/
  timeout : Reads number? g.timeout.toList (valuesOf .timeout l) g'.timeout.toList
  /-- The number of worker threads is one. -/
  workers : Reads number? g.workers.toList (valuesOf .workers l) g'.workers.toList
  /-- The path of the configuration file is a path. -/
  config : Reads path? g.config.toList (valuesOf .config l) g'.config.toList
  /-- The shapes are those of the names, each as often as it is given, in their order. -/
  only : Reads Shape.ofName? g.only (valuesOf .only l) g'.only
  /-- A list is printed if it is asked for. -/
  json : g'.json = (g.json || Argument.flag .json ∈ l)

variable {g g' g'' : Given} {l l' : List Argument} {k : Key} {f : Flag} {v : String}
  {arguments : List String}

theorem valuesOf_append (k : Key) (l l' : List Argument) :
    valuesOf k (l ++ l') = valuesOf k l ++ valuesOf k l' :=
  List.filterMap_append

/-- Without options nothing is given. -/
theorem Extends.nil (g : Given) : g.Extends [] g where
  value := .nil ..
  delay := .nil ..
  timeout := .nil ..
  workers := .nil ..
  config := .nil ..
  only := .nil ..
  json := by simp

/-- Options are given one after the other. -/
theorem Extends.append (h : g.Extends l g') (h' : g'.Extends l' g'') : g.Extends (l ++ l') g'' where
  value := by rw [valuesOf_append]; exact h.value.append h'.value
  delay := by rw [valuesOf_append]; exact h.delay.append h'.delay
  timeout := by rw [valuesOf_append]; exact h.timeout.append h'.timeout
  workers := by rw [valuesOf_append]; exact h.workers.append h'.workers
  config := by rw [valuesOf_append]; exact h.config.append h'.config
  only := by rw [valuesOf_append]; exact h.only.append h'.only
  json := by rw [h'.json, h.json]; simp [Bool.or_assoc]

/-- What can be given once is given if it was not, and if its value can be read. -/
theorem once_eq_ok_iff {A : Type} {old new : Option A} {put : Option A → Given} :
    once k old new put = .ok g' ↔ ∃ a, new = some a ∧ old = none ∧ g' = put (some a) := by
  rw [once.eq_def]
  cases new <;> cases old <;> simp [eq_comm]

/-- An option that is accepted adds its value. -/
theorem extends_of_set (h : g.set k v = .ok g') : g.Extends [.valued k v] g' := by
  have hnil := Extends.nil g
  rw [set.eq_def] at h
  -- An option adds to its own field and leaves the others; only the last may be given repeatedly.
  cases k with
  | value =>
    obtain ⟨a, hread, hold, rfl⟩ := once_eq_ok_iff.mp h
    exact { hnil with value := .once hold hread, json := by simp }
  | delay =>
    obtain ⟨a, hread, hold, rfl⟩ := once_eq_ok_iff.mp h
    exact { hnil with delay := .once hold hread, json := by simp }
  | timeout =>
    obtain ⟨a, hread, hold, rfl⟩ := once_eq_ok_iff.mp h
    exact { hnil with timeout := .once hold hread, json := by simp }
  | workers =>
    obtain ⟨a, hread, hold, rfl⟩ := once_eq_ok_iff.mp h
    exact { hnil with workers := .once hold hread, json := by simp }
  | config =>
    obtain ⟨a, hread, hold, rfl⟩ := once_eq_ok_iff.mp h
    exact { hnil with config := .once hold hread, json := by simp }
  | only =>
    simp only at h
    split at h
    next shape hread =>
      cases h
      refine { hnil with only := ?_, json := by simp }
      simp [Reads, valuesOf, hread]
    next => cases h

/-- A flag that is accepted is raised. -/
theorem extends_of_raise (h : g.raise f = .ok g') : g.Extends [.flag f] g' := by
  cases f with
  | json =>
    rw [raise] at h
    split at h
    next => cases h
    next =>
      cases h
      exact { Extends.nil g with json := by simp }
  | help | version => cases h

/-- What follows an accepted option is read after it. -/
theorem bind_eq_ok_iff {e : Except Refusal Given} {next : Given → Except Refusal Given} :
    (e >>= next) = .ok g' ↔ ∃ g₁, e = .ok g₁ ∧ next g₁ = .ok g' := by
  cases e <;> simp [bind, Except.bind]

/-- A command line that is read spells options. -/
theorem exists_spelled_of_read (h : g.read arguments = .ok g') : ∃ l, Spelled arguments l := by
  fun_induction Given.read g arguments generalizing g' with
  | case1 => exact ⟨[], .done⟩
  | case3 g a hmark =>
    have ha : a = "--" := String.toList_injective (Token.eq_of_mark hmark)
    rw [ha]
    exact ⟨[], .mark⟩
  | case7 g a rest name k v hk htoken ih =>
    obtain ⟨g₁, -, hread⟩ := bind_eq_ok_iff.mp h
    obtain ⟨l, hspelled⟩ := ih g₁ hread
    have ha : a = "--" ++ k.name ++ "=" ++ String.ofList v := by
      refine String.toList_injective ?_
      rw [Token.eq_of_long_some htoken, Key.name_of_ofName? hk]
      simp
    rw [ha]
    exact ⟨_, .joined k _ hspelled⟩
  | case8 g a name k hk v rest hv htoken ih =>
    obtain ⟨g₁, -, hread⟩ := bind_eq_ok_iff.mp h
    obtain ⟨l, hspelled⟩ := ih g₁ hread
    have ha : a = "--" ++ k.name := by
      refine String.toList_injective ?_
      rw [Token.eq_of_long_none htoken, Key.name_of_ofName? hk]
      simp
    rw [ha]
    exact ⟨_, .apart k v hv hspelled⟩
  | case11 g a rest name f hf hk htoken ih =>
    obtain ⟨g₁, -, hread⟩ := bind_eq_ok_iff.mp h
    obtain ⟨l, hspelled⟩ := ih g₁ hread
    have ha : a = "--" ++ f.name := by
      refine String.toList_injective ?_
      rw [Token.eq_of_long_none htoken, Flag.name_of_ofName? hf]
      simp
    rw [ha]
    exact ⟨_, .flag f hspelled⟩
  -- In every other case the arguments are refused.
  | case2 | case4 | case5 | case6 | case9 | case10 | case12 | case13 => cases h

/-- The options that a command line spells are those that are given when it is read. -/
theorem extends_of_spelled (h : Spelled arguments l) (hread : g.read arguments = .ok g') :
    g.Extends l g' := by
  induction h generalizing g with
  | done | mark =>
    cases hread
    exact .nil _
  | joined k v h ih =>
    rw [read.eq_def] at hread
    simp only [Key.ofCharacters_joined, String.ofList_toList, Key.ofName?_name] at hread
    obtain ⟨g₁, hset, hread⟩ := bind_eq_ok_iff.mp hread
    exact (extends_of_set hset).append (ih hread)
  | apart k v hv h ih =>
    rw [read.eq_def] at hread
    simp only [Key.ofCharacters_name, String.ofList_toList, Key.ofName?_name, hv, if_true] at hread
    obtain ⟨g₁, hset, hread⟩ := bind_eq_ok_iff.mp hread
    exact (extends_of_set hset).append (ih hread)
  | flag f h ih =>
    rw [read.eq_def] at hread
    simp only [Flag.ofCharacters_name, String.ofList_toList, Key.ofName?_flag_name,
      Flag.ofName?_name] at hread
    obtain ⟨g₁, hraise, hread⟩ := bind_eq_ok_iff.mp hread
    exact (extends_of_raise hraise).append (ih hread)

/-- What was given, with this number of worker threads. What was not given is as usual. -/
def options (g : Given) (workers : Option Nat) : Options where
  value := g.value.getD "forte"
  delay := .ofMilliseconds (g.delay.getD 100)
  timeout := .ofMilliseconds (g.timeout.getD 150)
  workers := workers
  config := g.config
  only := g.only
  json := g.json

end Given

section Reading

variable {arguments : List String} {bindings : List (String × ByteArray)} {g : Given} {o : Options}

/-- For want of an argument, the number of worker threads comes from the environment. -/
theorem Options.read_of_given (hgiven : Given.read {} arguments = .ok g) : read arguments bindings =
    (g.workers.elim (workersOf bindings) fun n => .ok (some n)).map g.options := by
  have hmilliseconds (n? : Option Nat) (n : Nat) :
      (n?.map Duration.ofMilliseconds).getD (.ofMilliseconds n) = .ofMilliseconds (n?.getD n) := by
    cases n? <;> rfl
  rw [read, hgiven]
  simp only [bind, Except.bind, hmilliseconds]
  cases g.workers with
  | some n => rfl
  | none => cases workersOf bindings <;> rfl

/-- Options are read only if the arguments are. -/
theorem Options.exists_given_of_read (h : read arguments bindings = .ok o) :
    ∃ g n?, Given.read {} arguments = .ok g ∧ o = g.options n? := by
  cases hgiven : Given.read {} arguments with
  | error e =>
    rw [read, hgiven] at h
    cases h
  | ok g =>
    rw [read_of_given hgiven] at h
    cases hworkers : g.workers.elim (workersOf bindings) fun n => .ok (some n) with
    | error e =>
      rw [hworkers] at h
      cases h
    | ok n? =>
      rw [hworkers] at h
      cases h
      exact ⟨g, n?, rfl, rfl⟩

end Reading

end Deferral.Probe
