import Deferral.Config.Load
import Deferral.Proofs.Text.Numeral

/-!
# What a source sets

A file and the environment each contribute a layer, which is told here by what they hold. The file
sets a value if its document has an item for it: under a key of its own, or at a place of its own
if the section is an array. A number must be an integer that is not negative, and the name a string.
The environment sets a number if the text of its variable stands for one, and the name to whatever
text there is.

`FileLayer` and `Environment.Sets` say so without reference to how the layers are read.

Main statements:
* `Layer.read?_eq_some_iff`: which layer is read from a text.
* `Environment.sets_iff`: which layer is read from the environment.
-/

namespace Deferral

/-! ## Files -/

/-- Something stands at the path that cannot be read as text, for this reason. -/
inductive FileState.Unreadable : FileState → FileFault → Prop
  /-- It is a directory. -/
  | directory : Unreadable .directory .isDirectory
  /-- Its bytes are not those of a text. -/
  | notText {content : ByteArray} (h : ¬content.IsValidUTF8) : Unreadable (.bytes content) .notText

/-- A file with this text stands at the path. -/
def FileState.Holds (f : FileState) (text : String) : Prop :=
  f = .bytes text.toUTF8

namespace FileState

/-- Reading fails exactly if there is something that cannot be read. -/
theorem text?_eq_error_iff (f : FileState) (fault : FileFault) :
    f.text? = .error fault ↔ f.Unreadable fault := by
  constructor
  · intro h
    cases f with
    | absent => cases h
    | directory => cases h; exact .directory
    | bytes content =>
      rw [text?, String.fromUTF8?] at h
      split at h
      next hvalid =>
        split at hvalid
        next => cases h
        next => cases hvalid
      next hvalid =>
        split at hvalid
        next => cases hvalid
        next hinvalid => cases h; exact .notText hinvalid
  · intro h
    cases h with
    | directory => rfl
    | notText hinvalid => rw [text?, String.fromUTF8?, dif_neg hinvalid]

/-- Nothing is read exactly if there is nothing. -/
theorem text?_eq_ok_none_iff (f : FileState) : f.text? = .ok none ↔ f = .absent := by
  cases f with
  | absent => simp [text?]
  | directory => simp [text?]
  | bytes content =>
    rw [text?]
    split <;> simp

/-- A text is read exactly if there is a file with this text. -/
theorem text?_eq_ok_some_iff (f : FileState) (text : String) :
    f.text? = .ok (some text) ↔ f.Holds text := by
  cases f with
  | absent => simp [text?, Holds]
  | directory => simp [text?, Holds]
  | bytes content =>
    rw [text?, Holds, FileState.bytes.injEq, String.fromUTF8?]
    by_cases hvalid : content.IsValidUTF8
    · rw [dif_pos hvalid]
      simp only [Except.ok.injEq, Option.some.injEq]
      constructor
      · rintro rfl
        rfl
      · rintro rfl
        rfl
    · rw [dif_neg hvalid]
      refine ⟨nofun, ?_⟩
      rintro rfl
      exact absurd text.isValidUTF8 hvalid

end FileState

/-! ## Documents -/

namespace Layer

open Toml

/-- The items of the four values hold the layer: a value is set exactly if there is an item for it,
to the integer or the string that it is. -/
structure InItems (workers threadName stackSize grace : Option Item) (l : Layer) : Prop where
  /-- The number of worker threads. -/
  workers : Option.Rel (fun item n => item = .integer (.ofNat n)) workers l.workers
  /-- The thread name. -/
  threadName : Option.Rel (fun item name => item = .text name.toList) threadName l.threadName
  /-- The stack size. -/
  stackSize : Option.Rel (fun item n => item = .integer (.ofNat n)) stackSize l.stackSize
  /-- The time that a shutdown waits. -/
  grace : Option.Rel (fun item n => item = .integer (.ofNat n)) grace l.graceMilliseconds

/-- The entries of a table hold the layer, each value under its key. -/
def InEntries (es : Entries) (l : Layer) : Prop :=
  l.InItems (es.lookup "worker_threads".toList) (es.lookup "thread_name".toList)
    (es.lookup "thread_stack_size".toList) (es.lookup "shutdown_timeout_ms".toList)

/-- The item of the section holds the layer. -/
inductive InSection : Item → Layer → Prop
  /-- It is a table. -/
  | table {origin : Origin} {es : Entries} {l : Layer} (h : l.InEntries es) :
      InSection (.table origin es) l
  /-- It is a table between braces. -/
  | inline {es : Entries} {l : Layer} (h : l.InEntries es) : InSection (.inline es) l
  /-- It is an array, whose first items are the four values. -/
  | array {items : List Item} {l : Layer} (h : l.InItems items[0]? items[1]? items[2]? items[3]?) :
      InSection (.array items) l
  /-- It is an array of tables, and these stand where the values would. -/
  | tables {ts : List Entries} {l : Layer}
      (h : l.InItems (ts[0]?.map (.table .header)) (ts[1]?.map (.table .header))
        (ts[2]?.map (.table .header)) (ts[3]?.map (.table .header))) :
      InSection (.tables ts) l
  /-- It is a date or a time, which sets nothing. -/
  | moment : InSection .moment {}

/-- The document holds the layer, in its section if there is one. -/
inductive InDocument (root : Entries) : Layer → Prop
  /-- There is no section, and nothing is set. -/
  | missing (h : root.lookup "runtime".toList = none) : InDocument root {}
  /-- There is a section that holds the layer. -/
  | present {item : Item} {l : Layer} (h : root.lookup "runtime".toList = some item)
      (hitem : InSection item l) : InDocument root l

/-- The text is a document that holds the layer. -/
def InText (text : String) (l : Layer) : Prop :=
  ∃ root, Document.read? text.toList = some root ∧ InDocument root l

variable {item : Item} {item? workers threadName stackSize grace : Option Item} {es root : Entries}
  {l : Layer} {n : Nat} {name : String}

/-- An item is read as a number exactly if it is this integer. -/
theorem number?_eq_some_iff : number? item = some n ↔ item = .integer (.ofNat n) := by
  constructor
  · intro h
    rw [number?.eq_def] at h
    split at h
    next => cases h; rfl
    next => cases h
  · rintro rfl
    rfl

/-- An item is read as a text exactly if it is this string. -/
theorem text?_eq_some_iff : text? item = some name ↔ item = .text name.toList := by
  constructor
  · intro h
    rw [text?.eq_def] at h
    split at h
    next => cases h; rw [String.toList_ofList]
    next => cases h
  · rintro rfl
    rw [text?, String.ofList_toList]

/-- What may be missing is read exactly if what is there can be read. -/
theorem optional?_eq_some_iff {A : Type} {read : Item → Option A} {holds : Item → A → Prop}
    (h : ∀ {item a}, read item = some a ↔ holds item a) {a? : Option A} :
    optional? read item? = some a? ↔ Option.Rel holds item? a? := by
  constructor
  · intro hread
    cases item? with
    | none =>
      cases hread
      exact .none
    | some item =>
      obtain ⟨a, ha, rfl⟩ := Option.map_eq_some_iff.mp hread
      exact .some (h.mp ha)
  · intro hrel
    cases hrel with
    | none => rfl
    | some ha => exact Option.map_eq_some_iff.mpr ⟨_, h.mpr ha, rfl⟩

/-- A layer is read from the items that hold it. -/
theorem ofItems?_eq_some_iff :
    ofItems? workers threadName stackSize grace = some l ↔
      l.InItems workers threadName stackSize grace := by
  simp only [ofItems?, bind, Option.bind_eq_some_iff, Option.some.injEq,
    optional?_eq_some_iff number?_eq_some_iff, optional?_eq_some_iff text?_eq_some_iff]
  constructor
  · rintro ⟨_, hworkers, _, hname, _, hstack, _, hgrace, rfl⟩
    exact ⟨hworkers, hname, hstack, hgrace⟩
  · exact fun h => ⟨_, h.workers, _, h.threadName, _, h.stackSize, _, h.grace, rfl⟩

/-- A layer is read from the entries that hold it. -/
theorem ofEntries?_eq_some_iff : ofEntries? es = some l ↔ l.InEntries es :=
  ofItems?_eq_some_iff

/-- A layer is read from the section that holds it. -/
theorem ofItem?_eq_some_iff : ofItem? item = some l ↔ InSection item l := by
  constructor
  · intro h
    cases item with
    | table origin es => exact .table (ofEntries?_eq_some_iff.mp h)
    | inline es => exact .inline (ofEntries?_eq_some_iff.mp h)
    | array items => exact .array (ofItems?_eq_some_iff.mp h)
    | tables ts =>
      simp only [ofItem?, List.getElem?_map] at h
      exact .tables (ofItems?_eq_some_iff.mp h)
    | moment =>
      cases h
      exact .moment
    | text _ | integer _ | float | boolean _ => cases h
  · intro h
    cases h with
    | table h | inline h => exact ofEntries?_eq_some_iff.mpr h
    | array h => exact ofItems?_eq_some_iff.mpr h
    | tables h =>
      simp only [ofItem?, List.getElem?_map]
      exact ofItems?_eq_some_iff.mpr h
    | moment => rfl

/-- A layer is read from the text that holds it. -/
theorem read?_eq_some_iff {text : String} : read? text = some l ↔ InText text l := by
  have hkey : sectionKey = "runtime".toList := rfl
  simp only [read?, hkey, bind, Option.bind_eq_some_iff, InText]
  refine exists_congr fun root => and_congr_right fun _ => ?_
  cases hsection : root.lookup "runtime".toList with
  | none =>
    constructor
    · intro h
      cases h
      exact .missing hsection
    · intro h
      cases h with
      | missing => rfl
      | present hitem => cases hsection.symm.trans hitem
  | some item =>
    rw [ofItem?_eq_some_iff]
    refine ⟨.present hsection, fun h => ?_⟩
    cases h with
    | missing hnone => cases hsection.symm.trans hnone
    | present hitem h =>
      cases hsection.symm.trans hitem
      exact h

/-- Nothing is read exactly if the text holds no layer. -/
theorem read?_eq_none_iff {text : String} : read? text = none ↔ ¬∃ l, InText text l := by
  simp only [← read?_eq_some_iff, ← Option.ne_none_iff_exists', not_not]

end Layer

/-- What the file at the path contributes: the layer that it holds, or nothing. -/
inductive FileLayer (files : Files) : Option String → Option (String × Layer) → Prop
  /-- There is no path. -/
  | noPath : FileLayer files none none
  /-- Nothing stands at the path. -/
  | absent {p : String} (h : files p = .absent) : FileLayer files (some p) none
  /-- A file with a layer stands there. -/
  | read {p text : String} {l : Layer} (htext : (files p).Holds text)
      (hlayer : Layer.InText text l) : FileLayer files (some p) (some (p, l))

/-! ## The environment -/

namespace Environment

variable {env : Environment} {l : Layer} {name : String} {n : Nat}

/-- The variable holds a text that stands for the number. -/
def Gives (env : Environment) (name : String) (n : Nat) : Prop :=
  ∃ s, env name = some s ∧ Text.Stands s n

/-- The environment sets the values of the layer. -/
structure Sets (env : Environment) (l : Layer) : Prop where
  /-- The number of worker threads is the one that its variable gives. -/
  workers_iff : ∀ n, l.workers = some n ↔ env.Gives "SUSPEND_RUNNER_WORKERS" n
  /-- The thread name is the text of its variable, whatever that is. -/
  threadName_iff : ∀ name,
    l.threadName = some name ↔ env "SUSPEND_RUNNER_THREAD_NAME" = some name
  /-- The stack size is the one that its variable gives. -/
  stackSize_iff : ∀ n, l.stackSize = some n ↔ env.Gives "SUSPEND_RUNNER_STACK_SIZE" n
  /-- So is the time that a shutdown waits, in milliseconds. -/
  grace_iff : ∀ n,
    l.graceMilliseconds = some n ↔ env.Gives "SUSPEND_RUNNER_SHUTDOWN_TIMEOUT_MS" n

/-- A number is read from a variable exactly if the variable gives it. -/
theorem number?_eq_some_iff : env.number? name = some n ↔ env.Gives name n := by
  simp only [number?, Option.bind_eq_some_iff, Text.readNatural?_trim_eq_some_iff, Gives]

/-- The layer that is read from the environment is the one that it sets. -/
theorem sets_iff : env.Sets l ↔ l = env.layer := by
  constructor
  · intro h
    have hworkers : l.workers = env.number? workersVariable :=
      Option.ext fun n => (h.workers_iff n).trans number?_eq_some_iff.symm
    have hname : l.threadName = env threadNameVariable := Option.ext h.threadName_iff
    have hstack : l.stackSize = env.number? stackSizeVariable :=
      Option.ext fun n => (h.stackSize_iff n).trans number?_eq_some_iff.symm
    have hgrace : l.graceMilliseconds = env.number? graceVariable :=
      Option.ext fun n => (h.grace_iff n).trans number?_eq_some_iff.symm
    cases l
    simp only [layer, Layer.mk.injEq]
    exact ⟨hworkers, hname, hstack, hgrace⟩
  · rintro rfl
    exact ⟨fun _ => number?_eq_some_iff, fun _ => Iff.rfl, fun _ => number?_eq_some_iff,
      fun _ => number?_eq_some_iff⟩

end Environment

end Deferral
