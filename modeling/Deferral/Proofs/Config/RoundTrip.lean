import Deferral.Proofs.Config.Precedence
import Deferral.Proofs.Toml.Section

/-!
# Writing a layer and reading it again

A layer is written as a section with a line for each value that is set. The thread name is
written between quotes, or between apostrophes if it holds a quote or a backslash, and reading
it again gives the same name, whatever else stands in it. Only numbers beyond the signed 64 bits
cannot be written.

Main statements:
* `Layer.render?_eq_none_iff`: which layers cannot be written.
* `Layer.read?_render`: a layer that is written is read again as it was.
* `layer_roundTrip`: what comes of writing a layer, of reading it, and of loading a
  file that holds it.
-/

namespace Deferral

/-- A control character. -/
def IsControl (c : Char) : Prop :=
  c.toNat < 0x20 ∨ 0x7F ≤ c.toNat ∧ c.toNat ≤ 0x9F

/-- A name that one of the two notations holds as it is. -/
structure IsPlain (name : String) : Prop where
  /-- It has no control characters. -/
  no_control : ∀ c ∈ name.toList, ¬IsControl c
  /-- If it holds an apostrophe, it holds neither a quote nor a backslash. -/
  one_notation : '\'' ∈ name.toList → '"' ∉ name.toList ∧ '\\' ∉ name.toList

namespace Layer

open Toml Document

variable {l : Layer}

/-- A number that is set exceeds the signed 64 bits. -/
def Exceeds (l : Layer) : Prop :=
  ∃ n, (l.workers = some n ∨ l.stackSize = some n ∨ l.graceMilliseconds = some n) ∧ 2 ^ 63 ≤ n

/-- The field of a number. -/
def numberField (key : Key) (n? : Option Nat) : Key × Option (List Char × Item) :=
  (key, n?.map fun n => (Text.decimal n, .integer n))

/-- The field of a text. -/
def textField (key : Key) (s? : Option String) : Key × Option (List Char × Item) :=
  (key, s?.map fun s => (textLiteral s.toList, .text s.toList))

/-- The fields of a layer in the order of their declaration. -/
def fields (l : Layer) : List (Key × Option (List Char × Item)) :=
  [numberField workersKey l.workers, textField threadNameKey l.threadName,
    numberField stackSizeKey l.stackSize, numberField graceKey l.graceMilliseconds]

/-! ## Writing -/

/-- A number cannot be written exactly if it is too large. -/
theorem numberLine?_eq_none_iff (key : Key) (n? : Option Nat) :
    numberLine? key n? = none ↔ ∃ n, n? = some n ∧ 2 ^ 63 ≤ n := by
  cases n? with
  | none => simp [numberLine?]
  | some n =>
    rw [numberLine?, Text.maxSigned, ite_eq_right_iff]
    simp only [reduceCtorEq, imp_false, Option.some.injEq, exists_eq_left']
    omega

/-- A number that is written takes the line of its field, if it is set. -/
theorem numberLine?_eq_some {key : Key} {n? : Option Nat} {text : List Char}
    (h : numberLine? key n? = some text) :
    text = (entriesOf [numberField key n?]).flatMap Entry.text := by
  cases n? with
  | none =>
    cases h
    rfl
  | some n =>
    rw [numberLine?] at h
    split at h
    next =>
      cases h
      simp [entriesOf, numberField, Entry.text]
    next => cases h

/-- A text takes the line of its field, if it is set. -/
theorem textLine_eq (key : Key) (s? : Option String) :
    textLine key s? = (entriesOf [textField key s?]).flatMap Entry.text := by
  cases s? with
  | none => rfl
  | some s => simp [textLine, entriesOf, textField, Entry.text]

/-- A layer cannot be written exactly if a number exceeds the signed 64 bits. -/
theorem render?_eq_none_iff (l : Layer) : l.render? = none ↔ l.Exceeds := by
  have hnone : l.render? = none ↔ numberLine? workersKey l.workers = none ∨
      numberLine? stackSizeKey l.stackSize = none ∨
      numberLine? graceKey l.graceMilliseconds = none := by
    rw [render?]
    cases numberLine? workersKey l.workers with
    | none => simp
    | some workers =>
      cases numberLine? stackSizeKey l.stackSize with
      | none => simp
      | some stackSize => cases numberLine? graceKey l.graceMilliseconds <;> simp
  rw [hnone, numberLine?_eq_none_iff, numberLine?_eq_none_iff, numberLine?_eq_none_iff, Exceeds]
  simp only [or_and_right, exists_or]

/-- A layer is written as a section with the lines of its fields. -/
theorem toList_of_render? {text : String} (h : l.render? = some text) :
    text.toList = '[' :: sectionKey ++ [']', '\n'] ++ (entriesOf l.fields).flatMap Entry.text := by
  rw [render?] at h
  obtain ⟨workers, hworkers, h⟩ := Option.bind_eq_some_iff.mp h
  obtain ⟨stackSize, hstackSize, h⟩ := Option.bind_eq_some_iff.mp h
  obtain ⟨grace, hgrace, h⟩ := Option.bind_eq_some_iff.mp h
  obtain rfl := Option.some.inj h
  -- Each field has its line, or none, and the lines stand in the order of the fields.
  have hentries : entriesOf l.fields = entriesOf [numberField workersKey l.workers] ++
      entriesOf [textField threadNameKey l.threadName] ++
      entriesOf [numberField stackSizeKey l.stackSize] ++
      entriesOf [numberField graceKey l.graceMilliseconds] := by
    simp only [entriesOf, ← List.filterMap_append]
    rfl
  rw [hentries, String.toList_ofList, numberLine?_eq_some hworkers, numberLine?_eq_some hstackSize,
    numberLine?_eq_some hgrace, textLine_eq]
  simp only [List.flatMap_append, List.append_assoc]

/-! ## Reading -/

/-- What is no control character is shown. -/
theorem isShown_of_not_isControl {c : Char} (h : ¬IsControl c) : isShown c = true := by
  rw [IsControl, not_or, not_and] at h
  have hdelete : c.toNat ≠ 0x7F := fun heq => h.2 (by omega) (by omega)
  simp only [isShown, Bool.or_eq_true, Bool.and_eq_true, decide_eq_true_eq]
  exact .inr ⟨Nat.le_of_not_lt h.1, hdelete⟩

/-- A plain name is represented by its notation. -/
theorem represents_textLiteral {name : String} (h : IsPlain name) :
    Represents (textLiteral name.toList) (.text name.toList) := by
  have hshown : ∀ c ∈ name.toList, isShown c = true := fun c hc =>
    isShown_of_not_isControl (h.no_control c hc)
  rw [textLiteral]
  split
  next hquoted =>
    exact represents_quoted fun c hc => by simpa [and_assoc] using List.all_eq_true.mp hquoted c hc
  next hquoted =>
    -- A quote or a backslash keeps the name from standing between quotes.
    obtain ⟨c, hc, hspecial⟩ : ∃ c ∈ name.toList, c = '"' ∨ c = '\\' := by
      by_contra hnone
      simp only [not_exists, not_and, not_or] at hnone
      refine hquoted (List.all_eq_true.mpr fun c hc => ?_)
      simp [hnone c hc, hshown c hc]
    have happostrophe : '\'' ∉ name.toList := by
      intro hmem
      obtain ⟨hquote, hbackslash⟩ := h.one_notation hmem
      rcases hspecial with rfl | rfl
      · exact hquote hc
      · exact hbackslash hc
    have hliteral : ∀ c ∈ name.toList, c ≠ '\'' ∧ isShown c = true := fun c hc =>
      ⟨ne_of_mem_of_not_mem hc happostrophe, hshown c hc⟩
    have hall : (name.toList.all fun c => c ≠ '\'' && isShown c) = true :=
      List.all_eq_true.mpr fun c hc => by simpa using hliteral c hc
    rw [if_pos hall]
    exact represents_literal hliteral (List.ne_nil_of_mem hc)

/-- What may be missing is read as it is, if the reader gives back what is there. -/
theorem optional?_map {A : Type} {read : Item → Option A} {item : A → Item}
    (h : ∀ a, read (item a) = some a) (a? : Option A) : optional? read (a?.map item) = some a? := by
  cases a? with
  | none => rfl
  | some a => simp [optional?, h]

/-- No two fields have the same key. -/
theorem nodup_fields (l : Layer) : (l.fields.map Prod.fst).Nodup :=
  (by decide : [workersKey, threadNameKey, stackSizeKey, graceKey].Nodup)

/-- The fields of a layer can be read line by line, if its numbers and its name can be written. -/
theorem readable_fields (hnumbers : ¬l.Exceeds)
    (hname : ∀ name, l.threadName = some name → IsPlain name) :
    Readable (entriesOf l.fields) := by
  have hbare : ∀ k ∈ [workersKey, threadNameKey, stackSizeKey, graceKey], IsBareKey k := by decide
  have hnumber {key : Key} {n? : Option Nat} (hn : ∀ n, n? = some n → ¬2 ^ 63 ≤ n)
      (v : List Char × Item) (hv : (numberField key n?).2 = some v) : Represents v.1 v.2 := by
    obtain ⟨n, hn?, rfl⟩ := Option.map_eq_some_iff.mp hv
    exact represents_decimal (Nat.le_of_lt_succ (Nat.lt_of_not_le (hn n hn?)))
  have htext (v : List Char × Item) (hv : (textField threadNameKey l.threadName).2 = some v) :
      Represents v.1 v.2 := by
    obtain ⟨name, hname?, rfl⟩ := Option.map_eq_some_iff.mp hv
    exact represents_textLiteral (hname name hname?)
  refine readable_entriesOf (fun f hf => hbare f.1 (List.mem_map_of_mem hf)) (nodup_fields l) ?_
  rw [fields]
  simp only [List.forall_mem_cons]
  refine ⟨hnumber ?_, htext, hnumber ?_, hnumber ?_, List.forall_mem_nil _⟩
  · exact fun n hn hle => hnumbers ⟨n, .inl hn, hle⟩
  · exact fun n hn hle => hnumbers ⟨n, .inr (.inl hn), hle⟩
  · exact fun n hn hle => hnumbers ⟨n, .inr (.inr hn), hle⟩

/-- From the entries of its fields a layer is read as it is. -/
theorem ofEntries?_fields (l : Layer) :
    ofEntries? ((entriesOf l.fields).map fun e => (e.key, e.item)) = some l := by
  -- No two fields have the same key, so each key leads to the item of its own field.
  have hworkers := lookup_entriesOf (nodup_fields l) (k := workersKey) (.head _)
  have hname := lookup_entriesOf (nodup_fields l) (k := threadNameKey) (.tail _ (.head _))
  have hstack := lookup_entriesOf (nodup_fields l) (k := stackSizeKey) (.tail _ (.tail _ (.head _)))
  have hgrace :=
    lookup_entriesOf (nodup_fields l) (k := graceKey) (.tail _ (.tail _ (.tail _ (.head _))))
  have hnumber (n? : Option Nat) :
      optional? number? ((n?.map fun n => (Text.decimal n, Item.integer n)).map Prod.snd) =
        some n? := by
    rw [Option.map_map]
    exact optional?_map (fun n : Nat => (rfl : number? (.integer n) = some n)) n?
  have htext (s? : Option String) :
      optional? text? ((s?.map fun s => (textLiteral s.toList, Item.text s.toList)).map Prod.snd) =
        some s? := by
    rw [Option.map_map]
    exact optional?_map (fun s : String => (by simp [text?] : text? (.text s.toList) = some s)) s?
  rw [ofEntries?, hworkers, hname, hstack, hgrace, ofItems?, hnumber, htext, hnumber, hnumber]
  rfl

/-- A layer that is written is read again as it was. -/
theorem read?_render {text : String} (h : l.render? = some text)
    (hname : ∀ name, l.threadName = some name → IsPlain name) : read? text = some l := by
  have hnumbers : ¬l.Exceeds := by
    -- Something was written, so every number fits.
    rw [← render?_eq_none_iff, h]
    exact Option.some_ne_none text
  have hsection : Document.read? text.toList = some [(sectionKey, .table .header
      ((entriesOf l.fields).map fun e => (e.key, e.item)))] := by
    rw [toList_of_render? h]
    exact read?_section (by decide) (readable_fields hnumbers hname)
  rw [read?, hsection]
  simp only [Option.bind_eq_bind, Option.bind_some, List.lookup_cons_self]
  exact ofEntries?_fields l

/-! ## Loading -/

/-- The defaults with the values of the layer in place of their own, as read from a
file at the path. -/
def settings (l : Layer) (path : String) : Settings where
  workers := l.workers.getD 2
  threadName := l.threadName.getD "suspend-runner"
  stackSize := l.stackSize
  grace := (l.graceMilliseconds.map fun n => ⟨n * 10 ^ 6⟩).getD ⟨5 * 10 ^ 9⟩
  path := some path
  source := .file

/-- What is merged if a file holds the layer and nothing else is set. -/
theorem merge_eq_settings {files : Files} {path : String}
    (h : FileLayer files (some path) (some (path, l))) :
    merge (some path) files (fun _ => none) = .ok (l.settings path) := by
  rw [h.merge_eq]
  obtain ⟨workers, threadName, stackSize, grace⟩ := l
  cases stackSize <;> rfl

end Layer

open Layer

/-- What comes of the text that a layer was written as. -/
structure Returns (l : Layer) (text : String) : Prop where
  /-- The layer is read again as it was: what was set with its value, and what was not as unset. -/
  reads : Layer.read? text = some l
  /-- If a file holds the text and no variable is set, the defaults are loaded with what was set in
  place of theirs, if they are valid then. -/
  loads : ∀ files path, (files path).Holds text → (l.settings path).validate = .ok () →
    load (some path) files (fun _ => none) = .ok (l.settings path)
  /-- Otherwise they are refused for their first defect. -/
  refuses : ∀ files path, (files path).Holds text → ∀ d, (l.settings path).RefusedFor d →
    load (some path) files (fun _ => none) = .error (.invalid d.text)
  /-- The file is never taken for one that is not of the expected form. -/
  not_malformed : ∀ files path, (files path).Holds text →
    load (some path) files (fun _ => none) ≠ .error .malformed

/-- What comes of writing a layer. -/
structure RoundTrip (l : Layer) : Prop where
  /-- Writing fails exactly if a number that is set exceeds the signed 64 bits. -/
  fails_iff : l.render? = none ↔ l.Exceeds
  /-- What was written returns, if the name is plain or there is none. -/
  returns : ∀ text, l.render? = some text → (∀ name, l.threadName = some name → IsPlain name) →
    Returns l text

/-- Every layer that can be written, with any plain name, is what is read again, and what is loaded
from a file that holds it. -/
theorem layer_roundTrip (l : Layer) : RoundTrip l := by
  refine ⟨render?_eq_none_iff l, fun text htext hname => ?_⟩
  have hread := read?_render htext hname
  -- What loading does after that is decided by the check of what is merged.
  have hmerge {files : Files} {path : String} (h : (files path).Holds text) :
      merge (some path) files (fun _ => none) = .ok (l.settings path) :=
    merge_eq_settings (.read h (Layer.read?_eq_some_iff.mp hread))
  refine ⟨hread, fun files path h hvalid => load_eq_ok_iff.mpr ⟨hmerge h, hvalid⟩,
    fun files path h d hd => ?_, fun files path h hmalformed => ?_⟩
  · refine load_eq_error_iff.mpr (.inr ⟨_, hmerge h, ?_⟩)
    exact (Settings.validate_eq_error_iff _ _).mpr ⟨d, hd, rfl⟩
  · rcases load_eq_error_iff.mp hmalformed with hfailed | ⟨s, -, hinvalid⟩
    · cases (hmerge h).symm.trans hfailed
    · obtain ⟨d, -, heq⟩ := (s.validate_eq_error_iff _).mp hinvalid
      cases heq

/-- A name may hold what delimits lines, keys and comments, and blanks at its ends. -/
example : (({ threadName := some " [a] = \"#\" " } : Layer).render?.bind Layer.read?) =
    some { threadName := some " [a] = \"#\" " } := by
  decide +kernel

end Deferral
