import Deferral.Probe.Basic
import Deferral.Proofs.Duration
import Deferral.Proofs.Text.Double
import Mathlib.Tactic.SplitIfs

/-!
# What is printed of entries

The entries of a probe are printed as a JSON list or as lines of text, and a reader must not have to
know them to tell what was printed. So both are read back here: JSON by a scanner that goes from
character to character and a second one that goes from lexeme to lexeme, a line of text word by
word. Neither is upset by what a value or a message contains, be it quotes, controls, blanks or what
looks like a part of the format.

A `Row` is what the two have in common.

Main statements:
* `table?_list`: the JSON list holds the members of each entry, in order.
* `splitOn_lines`: the text holds the line of each entry, in order, unless a line feed is shown.
* `Row.ofMembers?_members`, `Row.ofLine?_line`: an entry's members and its line show the same row.
-/

namespace Deferral.Probe

open Text

/-! ## Lexemes -/

/-- A part of a JSON text. -/
inductive Lexeme
  /-- A bracket, a brace, a colon or a comma. -/
  | mark (c : Char)
  /-- A text, by the characters it stands for. -/
  | text (s : List Char)
  /-- A number or a literal, as it is written. -/
  | word (s : List Char)
  deriving DecidableEq, Repr

/-- Where a scanner is. -/
inductive Mode
  /-- Between lexemes. -/
  | between
  /-- In a word, behind the characters `s`. -/
  | word (s : List Char)
  /-- In a text, behind what stands for `s`. -/
  | text (s : List Char)
  /-- In a text, behind a backslash. -/
  | escape (s : List Char)
  /-- In a text, where `missing` digits of a character's code are to come after
  those that denote `n`. -/
  | code (s : List Char) (n missing : Nat)
  deriving DecidableEq, Repr

/-- A scanner of JSON. -/
structure Scanner where
  /-- What it has found. -/
  lexemes : List Lexeme := []
  /-- Where it is. -/
  mode : Mode := .between
  deriving DecidableEq, Repr

/-- Whether a character separates lexemes and means nothing else. -/
def isSpace (c : Char) : Bool :=
  c = ' ' || c = '\n' || c = '\t' || c = '\r'

/-- Whether a character is a lexeme by itself. -/
def isMark (c : Char) : Bool :=
  c = '[' || c = ']' || c = '\x7b' || c = '\x7d' || c = ':' || c = ','

/-- Whether a character ends the word before it. -/
def isDelimiter (c : Char) : Bool :=
  isSpace c || isMark c

/-- The character that a letter stands for behind a backslash. -/
def escaped? : Char → Option Char
  | '"' => some '"'
  | '\\' => some '\\'
  | '/' => some '/'
  | 'b' => some '\x08'
  | 'f' => some '\x0c'
  | 'n' => some '\n'
  | 'r' => some '\r'
  | 't' => some '\t'
  | _ => none

/-- Find a lexeme. -/
def Scanner.find (x : Scanner) (l : Lexeme) : Scanner :=
  { lexemes := x.lexemes ++ [l] }

/-- Read a character that is not part of the lexeme before it. -/
def Scanner.begin (x : Scanner) (c : Char) : Option Scanner :=
  if isSpace c then some { x with mode := .between }
  else if isMark c then some (x.find (.mark c))
  else if c = '"' then some { x with mode := .text [] }
  else some { x with mode := .word [c] }

/-- Read a character. -/
def Scanner.step (x : Scanner) (c : Char) : Option Scanner :=
  match x.mode with
  | .between => x.begin c
  | .word s =>
    if isDelimiter c then (x.find (.word s)).begin c else some { x with mode := .word (s ++ [c]) }
  | .text s =>
    if c = '"' then some (x.find (.text s))
    else if c = '\\' then some { x with mode := .escape s }
    else if c.toNat < 0x20 then none
    else some { x with mode := .text (s ++ [c]) }
  | .escape s =>
    if c = 'u' then some { x with mode := .code s 0 4 }
    else (escaped? c).map fun d => { x with mode := .text (s ++ [d]) }
  | .code s n missing => do
    let n := 16 * n + (← hexDigit? c)
    if 1 < missing then some { x with mode := .code s n (missing - 1) }
    else if n.isValidChar then some { x with mode := .text (s ++ [Char.ofNat n]) }
    else none

/-- Read characters. -/
def Scanner.scan (x : Scanner) (s : List Char) : Option Scanner :=
  s.foldlM Scanner.step x

/-- The lexemes of a JSON text that ends between two of them. -/
def lexemes? (s : List Char) : Option (List Lexeme) :=
  match ({} : Scanner).scan s with
  | some ⟨ls, .between⟩ => some ls
  | _ => none

/-! ## Tables -/

/-- A member of a JSON object: its name and its value. -/
abbrev Member := List Char × Lexeme

/-- What is to come in a list of objects. -/
inductive Place
  /-- The list. -/
  | list
  /-- The first object, or the end of the list. -/
  | first
  /-- An object. -/
  | object
  /-- The name of a member, in an object that has some. -/
  | name (ms : List Member)
  /-- The colon behind a name. -/
  | colon (ms : List Member) (k : List Char)
  /-- The value for a name. -/
  | value (ms : List Member) (k : List Char)
  /-- The end of an object, or another member. -/
  | more (ms : List Member)
  /-- The end of the list, or another object. -/
  | further
  /-- Nothing. -/
  | nothing
  deriving DecidableEq, Repr

/-- A list of objects of which a part was read. -/
structure Table where
  /-- The objects that were read to their end. -/
  objects : List (List Member) := []
  /-- What is to come. -/
  place : Place := .list
  deriving DecidableEq, Repr

/-- Read a lexeme. -/
def Table.step (t : Table) (l : Lexeme) : Option Table :=
  match t.place, l with
  | .list, .mark '[' => some { t with place := .first }
  | .first, .mark ']' | .further, .mark ']' => some { t with place := .nothing }
  | .first, .mark '\x7b' | .object, .mark '\x7b' => some { t with place := .name [] }
  | .name ms, .text k => some { t with place := .colon ms k }
  | .colon ms k, .mark ':' => some { t with place := .value ms k }
  | .value ms k, .text s => some { t with place := .more (ms ++ [(k, .text s)]) }
  | .value ms k, .word s => some { t with place := .more (ms ++ [(k, .word s)]) }
  | .more ms, .mark ',' => some { t with place := .name ms }
  | .more ms, .mark '\x7d' => some { objects := t.objects ++ [ms], place := .further }
  | .further, .mark ',' => some { t with place := .object }
  | _, _ => none

/-- The objects of a JSON list. -/
def table? (s : String) : Option (List (List Member)) := do
  match (← lexemes? s.toList).foldlM Table.step {} with
  | some ⟨os, .nothing⟩ => some os
  | _ => none

/-! ## Scanning -/

theorem scan_append (x : Scanner) (s t : List Char) :
    x.scan (s ++ t) = (x.scan s).bind (·.scan t) :=
  List.foldlM_append

theorem scan_cons (x : Scanner) (c : Char) (s : List Char) :
    x.scan (c :: s) = (x.step c).bind (·.scan s) :=
  List.foldlM_cons

/-- A scanner that had found other lexemes before. -/
def Scanner.after (before : List Lexeme) (x : Scanner) : Scanner :=
  { x with lexemes := before ++ x.lexemes }

/-- What was found before plays no part. -/
theorem step_after (before : List Lexeme) (x : Scanner) (c : Char) :
    (x.after before).step c = (x.step c).map (·.after before) := by
  have hbegin (x : Scanner) : (x.after before).begin c = (x.begin c).map (·.after before) := by
    unfold Scanner.begin
    split_ifs <;> simp [Scanner.after, Scanner.find]
  have hfind (x : Scanner) (l : Lexeme) : (x.after before).find l = (x.find l).after before := by
    simp [Scanner.after, Scanner.find]
  -- In every mode a lexeme is found, or only the mode changes.
  obtain ⟨ls, mode⟩ := x
  cases mode with
  | between => exact hbegin _
  | word s =>
    change (if isDelimiter c then Scanner.begin _ c else _) =
      Option.map _ (if isDelimiter c then _ else _)
    split_ifs
    · exact hfind ⟨ls, .word s⟩ _ ▸ hbegin _
    · rfl
  | text s =>
    simp only [Scanner.step, Scanner.after]
    split_ifs <;> simp [Scanner.find]
  | escape s =>
    simp only [Scanner.step, Scanner.after]
    split_ifs
    · rfl
    · rw [Option.map_map]; rfl
  | code s n missing =>
    simp only [Scanner.step, Scanner.after]
    cases hexDigit? c with
    | none => rfl
    | some d =>
      simp only [Option.bind_eq_bind, Option.bind_some]
      split_ifs <;> rfl

theorem scan_after (before : List Lexeme) (x : Scanner) (s : List Char) :
    (x.after before).scan s = (x.scan s).map (·.after before) := by
  induction s generalizing x with
  | nil => rfl
  | cons c s ih =>
    rw [scan_cons, scan_cons, step_after]
    cases x.step c with
    | none => rfl
    | some y => exact ih y

/-- These characters hold these lexemes, and end between two of them. -/
def Holds (s : List Char) (ls : List Lexeme) : Prop :=
  ({} : Scanner).scan s = some ⟨ls, .between⟩

instance (s : List Char) (ls : List Lexeme) : Decidable (Holds s ls) :=
  inferInstanceAs (Decidable (_ = _))

/-- These characters are one lexeme, if a delimiter comes next. -/
def Spells (s : List Char) (l : Lexeme) : Prop :=
  ∃ x, ({} : Scanner).scan s = some x ∧
    ∀ c, isDelimiter c = true → x.step c = Scanner.step ⟨[l], .between⟩ c

theorem scan_of_holds {s : List Char} {ls : List Lexeme} (h : Holds s ls) (before : List Lexeme) :
    Scanner.scan ⟨before, .between⟩ s = some ⟨before ++ ls, .between⟩ := by
  have hframe := scan_after before {} s
  rw [h] at hframe
  simpa [Scanner.after] using hframe

theorem Holds.append {s t : List Char} {ls ms : List Lexeme} (hs : Holds s ls) (ht : Holds t ms) :
    Holds (s ++ t) (ls ++ ms) := by
  rw [Holds, scan_append, hs, Option.bind_some, scan_of_holds ht]

/-- A lexeme stands before a delimiter. -/
theorem Spells.append {s t : List Char} {l : Lexeme} {ls : List Lexeme} (hs : Spells s l)
    (ht : Holds t ls)
    (hdelimited : ∃ c u, t = c :: u ∧ isDelimiter c = true) : Holds (s ++ t) (l :: ls) := by
  obtain ⟨x, hx, hnext⟩ := hs
  obtain ⟨c, u, rfl, hc⟩ := hdelimited
  rw [Holds, scan_append, hx, Option.bind_some, scan_cons, hnext c hc, ← scan_cons,
    scan_of_holds ht, List.singleton_append]

/-- A control character is written by the four digits of its code. -/
theorem code_eq : ∀ n < 0x20, List.replicate (4 - (hexadecimal n).length) '0' ++ hexadecimal n =
    ['0', '0', Nat.digitChar (n / 16), Nat.digitChar (n % 16)] := by
  decide

theorem hexDigit?_digitChar : ∀ n < 16, hexDigit? (Nat.digitChar n) = some n := by
  decide

/-- A character is read back from what stands for it in a text. -/
theorem scan_jsonChar (s : List Char) (c : Char) :
    Scanner.scan ⟨[], .text s⟩ (jsonChar c) = some ⟨[], .text (s ++ [c])⟩ := by
  unfold jsonChar
  -- What is escaped by a letter is read back by evaluation.
  by_cases hquote : c = '"'
  · subst hquote; rfl
  by_cases hbackslash : c = '\\'
  · subst hbackslash; rfl
  by_cases hb : c = '\x08'
  · subst hb; rfl
  by_cases ht : c = '\t'
  · subst ht; rfl
  by_cases hn : c = '\n'
  · subst hn; rfl
  by_cases hf : c = '\x0c'
  · subst hf; rfl
  by_cases hr : c = '\r'
  · subst hr; rfl
  rw [if_neg hquote, if_neg hbackslash, if_neg hb, if_neg ht, if_neg hn, if_neg hf, if_neg hr]
  by_cases hcontrol : c.toNat < 0x20
  -- Every other control is escaped by its code, of which the first two digits are zero.
  · have hhigh : hexDigit? (Nat.digitChar (c.toNat / 16)) = some (c.toNat / 16) :=
      hexDigit?_digitChar _ (by omega)
    have hlow : hexDigit? (Nat.digitChar (c.toNat % 16)) = some (c.toNat % 16) :=
      hexDigit?_digitChar _ (by omega)
    have hcode : 16 * (c.toNat / 16) + c.toNat % 16 = c.toNat := by omega
    have hvalid : c.toNat.isValidChar := c.valid
    have hdigits : Scanner.scan ⟨[], .code s 0 4⟩ ['0', '0', Nat.digitChar (c.toNat / 16),
        Nat.digitChar (c.toNat % 16)] = some ⟨[], .text (s ++ [c])⟩ := by
      have hzero : hexDigit? '0' = some 0 := rfl
      simp [Scanner.scan, Scanner.step, hzero, hhigh, hlow, hcode, hvalid]
    rw [if_pos hcontrol, List.append_assoc, code_eq _ hcontrol, ← hdigits]
    rfl
  · rw [if_neg hcontrol]
    simp [Scanner.scan, Scanner.step, hquote, hbackslash, hcontrol]

theorem scan_flatMap_jsonChar (s t : List Char) :
    Scanner.scan ⟨[], .text s⟩ (t.flatMap jsonChar) = some ⟨[], .text (s ++ t)⟩ := by
  induction t generalizing s with
  | nil => rw [List.append_nil]; rfl
  | cons c t ih =>
    rw [List.flatMap_cons, scan_append, scan_jsonChar, Option.bind_some, ih, List.append_assoc,
      List.singleton_append]

/-- A text is read back from its JSON string. -/
theorem spells_jsonString (s : String) : Spells (jsonString s).toList (.text s.toList) := by
  refine ⟨⟨[.text s.toList], .between⟩, ?_, fun _ _ => rfl⟩
  rw [jsonString, String.toList_ofList, List.cons_append, scan_cons]
  change Scanner.scan ⟨[], .text []⟩ _ = _
  rw [scan_append, scan_flatMap_jsonChar, Option.bind_some, List.nil_append]
  rfl

/-- Whether a character can stand in a word. -/
def isPlain (c : Char) : Bool :=
  !isDelimiter c && c ≠ '"'

theorem scan_plain (s t : List Char) (h : ∀ c ∈ t, isPlain c = true) :
    Scanner.scan ⟨[], .word s⟩ t = some ⟨[], .word (s ++ t)⟩ := by
  induction t generalizing s with
  | nil => rw [List.append_nil]; rfl
  | cons c t ih =>
    obtain ⟨hc, ht⟩ := List.forall_mem_cons.mp h
    have hstep : Scanner.step ⟨[], .word s⟩ c = some ⟨[], .word (s ++ [c])⟩ := by
      simp_all [isPlain, Scanner.step]
    rw [scan_cons, hstep, Option.bind_some, ih _ ht, List.append_assoc, List.singleton_append]

/-- A word is read as it is written. -/
theorem spells_word {s : List Char} (hne : s ≠ []) (h : ∀ c ∈ s, isPlain c = true) :
    Spells s (.word s) := by
  obtain ⟨c, t, rfl⟩ := List.exists_cons_of_ne_nil hne
  obtain ⟨hc, ht⟩ := List.forall_mem_cons.mp h
  have hfirst : ({} : Scanner).step c = some ⟨[], .word [c]⟩ := by
    simp_all [isPlain, isDelimiter, Scanner.step, Scanner.begin]
  refine ⟨⟨[], .word (c :: t)⟩, ?_, fun d hd => ?_⟩
  · rw [scan_cons, hfirst, Option.bind_some, scan_plain _ _ ht, List.singleton_append]
  · simp [Scanner.step, hd, Scanner.find]

/-! ## The JSON list -/

/-- What stands for an optional text in JSON. -/
def Lexeme.ofText? : Option String → Lexeme
  | some s => .text s.toList
  | none => .word "null".toList

/-- What stands for a truth value in JSON. -/
def Lexeme.ofBool (b : Bool) : Lexeme :=
  .word (if b then "true" else "false").toList

/-- The lexemes of an object. -/
def lexemesOf (ms : List Member) : List Lexeme :=
  .mark '\x7b' :: [Lexeme.mark ','].intercalate (ms.map fun m => [.text m.1, .mark ':', m.2]) ++
    [.mark '\x7d']

/-- The members of an entry's object. -/
def Entry.members (e : Entry) : List Member :=
  [("shape".toList, .text e.shape.name.toList), ("value".toList, .ofText? e.value),
    ("error".toList, .ofText? e.error), ("elapsed_ms".toList, .word (fullMilliseconds e.elapsed)),
    ("ok".toList, .ofBool e.ok)]

theorem spells_jsonText (t : Option String) : Spells (Entry.jsonText t).toList (.ofText? t) := by
  cases t with
  | none =>
    rw [Entry.jsonText]
    exact spells_word (by simp) (by simp [isPlain, isDelimiter, isSpace, isMark])
  | some s => exact spells_jsonString s

theorem spells_bool (b : Bool) : Spells (if b then "true" else "false").toList (.ofBool b) := by
  cases b <;> exact spells_word (by simp) (by simp [isPlain, isDelimiter, isSpace, isMark])

theorem isPlain_of_isDigit {c : Char} (h : c.isDigit = true) : isPlain c = true := by
  have hne (d : Char) (hd : d.isDigit = false) : c ≠ d := by
    rintro rfl
    cases h.symm.trans hd
  simp (disch := decide) [isPlain, isDelimiter, isSpace, isMark, hne]

theorem spells_fullMilliseconds (d : Duration) :
    Spells (Entry.fullMilliseconds d) (.word (Entry.fullMilliseconds d)) := by
  obtain ⟨hnumeric, hne⟩ := Scientific.isNumeric_text (Scientific.shortest (Entry.milliseconds d))
  have hmarks : ∀ c ∈ ['.', 'e', '-'], isPlain c = true := by
    simp [isPlain, isDelimiter, isSpace, isMark]
  exact spells_word hne fun c hc => (hnumeric c hc).elim isPlain_of_isDigit (hmarks c)

/-- The milliseconds in an entry's object are those that were computed, with none of their
digits lost. -/
theorem double_shortest_milliseconds (d : Duration) :
    double (Scientific.shortest (Entry.milliseconds d)).value = Entry.milliseconds d :=
  Scientific.double_shortest (mul_nonneg (double_nonneg _) (by norm_num))

/-- The way by the seconds shows in the last digit. -/
example : Entry.fullMilliseconds ⟨8200000⟩ = "8.200000000000001".toList := by
  decide +kernel

theorem holds_object (e : Entry) : Holds e.object.toList (lexemesOf e.members) := by
  unfold Entry.object
  simp only [String.toList_append, String.toList_ofList, List.append_assoc]
  have hopen : Holds "  \x7b\n    \"shape\": ".toList
      [.mark '\x7b', .text "shape".toList, .mark ':'] := by decide
  have hvalue :
      Holds ",\n    \"value\": ".toList [.mark ',', .text "value".toList, .mark ':'] := by decide
  have herror :
      Holds ",\n    \"error\": ".toList [.mark ',', .text "error".toList, .mark ':'] := by decide
  have helapsed :
      Holds ",\n    \"elapsed_ms\": ".toList [.mark ',', .text "elapsed_ms".toList, .mark ':'] := by
    decide
  have hok : Holds ",\n    \"ok\": ".toList [.mark ',', .text "ok".toList, .mark ':'] := by decide
  have hclose : Holds "\n  \x7d".toList [.mark '\x7d'] := by decide
  -- From the end to the beginning, since the delimiter behind a value belongs to what comes next.
  have hafterError := (spells_fullMilliseconds e.elapsed).append
    (hok.append ((spells_bool e.ok).append hclose ⟨_, _, rfl, rfl⟩)) ⟨_, _, rfl, rfl⟩
  have hafterValue :=
    (spells_jsonText e.error).append (helapsed.append hafterError) ⟨_, _, rfl, rfl⟩
  have hafterShape := (spells_jsonText e.value).append (herror.append hafterValue) ⟨_, _, rfl, rfl⟩
  exact hopen.append
    ((spells_jsonString e.shape.name).append (hvalue.append hafterShape) ⟨_, _, rfl, rfl⟩)

/-- The objects of a list, one behind the other. -/
theorem holds_objects {es : List Entry} (hne : es ≠ []) :
    Holds (",\n".toList.intercalate (es.map fun e => e.object.toList))
      ([Lexeme.mark ','].intercalate (es.map fun e => lexemesOf e.members)) := by
  induction es with
  | nil => exact absurd rfl hne
  | cons e es ih =>
    cases es with
    | nil => simpa using holds_object e
    | cons e' es =>
      have hcomma : Holds ",\n".toList [.mark ','] := by decide
      have hrest := ih (List.cons_ne_nil _ _)
      simp only [List.map_cons, List.intercalate_cons_cons] at hrest ⊢
      exact ((holds_object e).append hcomma).append hrest

/-- An object is read where one can be. -/
theorem read_object (os : List (List Member)) {p : Place} (hp : p = .first ∨ p = .object)
    (e : Entry) :
    (lexemesOf e.members).foldlM Table.step ⟨os, p⟩ = some ⟨os ++ [e.members], .further⟩ := by
  obtain ⟨shape, value, error, elapsed, ok⟩ := e
  rcases hp with rfl | rfl <;> cases value <;> cases error <;> rfl

theorem read_objects (os : List (List Member)) {p : Place} (hp : p = .first ∨ p = .object)
    {es : List Entry} (hne : es ≠ []) :
    ([Lexeme.mark ','].intercalate (es.map fun e => lexemesOf e.members)).foldlM
      Table.step ⟨os, p⟩ = some ⟨os ++ es.map Entry.members, .further⟩ := by
  induction es generalizing os p with
  | nil => exact absurd rfl hne
  | cons e es ih =>
    cases es with
    | nil => simpa using read_object os hp e
    | cons e' es =>
      have hrest := ih (os ++ [e.members]) (.inr rfl) (List.cons_ne_nil _ _)
      simp only [List.map_cons, List.intercalate_cons_cons, List.foldlM_append,
        read_object os hp e] at hrest ⊢
      simpa [Table.step] using hrest

theorem lexemes?_of_holds {s : List Char} {ls : List Lexeme} (h : Holds s ls) :
    lexemes? s = some ls := by
  rw [lexemes?, h]

/-- The JSON list holds the members of each entry, in order. -/
theorem table?_list (es : List Entry) : table? (Entry.list es) = some (es.map Entry.members) := by
  by_cases hne : es = []
  · subst hne
    decide
  -- The brackets and what stands between them are split into lexemes apart from each other.
  have hopen : Holds "[\n".toList [.mark '['] := by decide
  have hclose : Holds "\n]\n".toList [.mark ']'] := by decide
  have hlexemes := lexemes?_of_holds ((hopen.append (holds_objects hne)).append hclose)
  have hread : List.foldlM Table.step {} ([.mark '['] ++
      [Lexeme.mark ','].intercalate (es.map fun e => lexemesOf e.members) ++ [.mark ']']) =
      some ⟨es.map Entry.members, .nothing⟩ := by
    have hfirst : List.foldlM Table.step {} [.mark '['] = some ⟨[], .first⟩ := rfl
    have hobjects := read_objects [] (.inl rfl) hne
    simp only [List.foldlM_append, hfirst, Option.bind_eq_bind, Option.bind_some, hobjects]
    rfl
  rw [table?, Entry.list, String.toList_append, String.toList_append, String.toList_intercalate,
    List.map_map]
  simp only [Function.comp_def, hlexemes, Option.bind_eq_bind, Option.bind_some, hread]

/-! ## Rows -/

/-- What an entry shows, however it is printed. -/
structure Row where
  /-- How the computation was consumed. -/
  shape : Shape
  /-- Whether all is in order. -/
  ok : Bool
  /-- The value, else the message of the failure, else that there is neither. -/
  shown : String
  deriving DecidableEq, Repr

/-- What an entry is to show. -/
def Entry.row (e : Entry) : Row :=
  { shape := e.shape, ok := e.ok, shown := e.shown }

/-- The text that a value in JSON stands for, if any. -/
def Lexeme.text? : Lexeme → Option String
  | .text s => some (String.ofList s)
  | _ => none

/-- What an object shows. -/
def Row.ofMembers? (ms : List Member) : Option Row := do
  let shape ← ((← ms.lookup "shape".toList).text?).bind Shape.ofName?
  let value ← ms.lookup "value".toList
  let error ← ms.lookup "error".toList
  let ok ← ms.lookup "ok".toList
  some { shape, ok := ok = .ofBool true, shown := (value.text? <|> error.text?).getD "<empty>" }

/-- The first word of a text, and what comes behind it. -/
def word (s : List Char) : List Char × List Char :=
  let s := s.dropWhile (· = ' ')
  (s.takeWhile (· ≠ ' '), s.dropWhile (· ≠ ' '))

/-- What a line shows: the shape, whether all is in order, the time, and behind two
blanks all the rest. -/
def Row.ofLine? (line : String) : Option Row :=
  let (shape, rest) := word line.toList
  let (ok, rest) := word rest
  match word rest with
  | (_, ' ' :: ' ' :: shown) => do
    some { shape := ← Shape.ofName? (String.ofList shape), ok := ok = "ok".toList, shown := String.ofList shown }
  | _ => none

@[simp]
theorem ofName?_name (shape : Shape) : Shape.ofName? shape.name = some shape := by
  cases shape <;> decide

@[simp]
theorem text?_text (s : String) : (Lexeme.text s.toList).text? = some s := by
  rw [Lexeme.text?, String.ofList_toList]

@[simp]
theorem text?_ofText? (t : Option String) : (Lexeme.ofText? t).text? = t := by
  cases t with
  | none => rfl
  | some s => exact text?_text s

/-- The members of an entry's object show what the entry is to show. -/
theorem Row.ofMembers?_members (e : Entry) : Row.ofMembers? e.members = some e.row := by
  have hok : (Lexeme.ofBool e.ok = .ofBool true) = (e.ok = true) := by
    cases e.ok <;> simp [Lexeme.ofBool]
  simp [Row.ofMembers?, Entry.members, List.lookup_cons, Entry.row, Entry.shown, hok]

/-- A word is what stands between blanks. -/
theorem word_append {w rest : List Char} (n : Nat) (hne : w ≠ []) (hw : ∀ c ∈ w, c ≠ ' ')
    (hrest : rest.head? = some ' ') : word (List.replicate n ' ' ++ (w ++ rest)) = (w, rest) := by
  have hblank : ∀ c ∈ List.replicate n ' ', decide (c = ' ') = true := fun c hc =>
    decide_eq_true (List.eq_of_mem_replicate hc)
  obtain ⟨c, w, rfl⟩ := List.exists_cons_of_ne_nil hne
  obtain ⟨t, rfl⟩ : ∃ t, rest = ' ' :: t := by
    cases rest with
    | nil => cases hrest
    | cons d t => exact ⟨t, by rw [List.head?_cons, Option.some.injEq] at hrest; rw [hrest]⟩
  have hc : decide (c = ' ') = false := decide_eq_false (hw c List.mem_cons_self)
  have hword : ∀ d ∈ c :: w, decide (d ≠ ' ') = true := by simpa using hw
  -- The blanks before the word are skipped, and the one behind it ends it.
  have hskip :
      (List.replicate n ' ' ++ (c :: w ++ ' ' :: t)).dropWhile (· = ' ') = c :: w ++ ' ' :: t := by
    rw [List.dropWhile_append_of_pos hblank, List.cons_append,
      List.dropWhile_cons_of_neg (by simp [hc])]
  rw [word, hskip, List.takeWhile_append_of_pos hword, List.dropWhile_append_of_pos hword]
  simp

/-- A duration in milliseconds with two places is written in digits and a point, too. -/
theorem notMem_roundMilliseconds (d : Duration) {c : Char} (hdigit : c.isDigit = false)
    (hpoint : c ≠ '.') : c ∉ Entry.roundMilliseconds d := by
  intro h
  rcases List.mem_append.mp h with hwhole | hplaces
  · cases hdigit.symm.trans (isDigit_of_mem_decimal hwhole)
  · rcases List.mem_cons.mp hplaces with heq | hplace
    · exact hpoint heq
    · cases hdigit.symm.trans (Duration.isDigit_of_mem_padded hplace)

/-- A line is three words with blanks between them, and behind two more blanks what is shown. -/
theorem toList_line (e : Entry) : ∃ m n : Nat,
    e.line.toList = List.replicate 0 ' ' ++ (e.shape.name.toList ++
      (List.replicate (m + 1) ' ' ++ ((if e.ok then "ok" else "FAIL").toList ++
        (List.replicate (n + 1) ' ' ++ (Entry.roundMilliseconds e.elapsed ++ "ms".toList ++
          ' ' :: ' ' :: e.shown.toList))))) := by
  refine ⟨7 - e.shape.name.toList.length, 4 - (if e.ok then "ok" else "FAIL").toList.length +
    (9 - (Entry.roundMilliseconds e.elapsed).length), ?_⟩
  have hblanks (k l : Nat) :
      List.replicate (k + l + 1) ' ' = List.replicate k ' ' ++ ' ' :: List.replicate l ' ' := by
    rw [Nat.add_assoc, ← List.replicate_append_replicate, List.replicate_succ]
  -- The blanks behind the mark and those before the time are one gap.
  unfold Entry.line
  rw [hblanks]
  simp [Entry.padRight, Entry.padLeft, List.replicate_succ']

/-- An entry's line shows what the entry is to show. -/
theorem Row.ofLine?_line (e : Entry) : Row.ofLine? e.line = some e.row := by
  -- The first three columns hold no blank, so each of them ends at the padding that follows.
  have hshape : e.shape.name.toList ≠ [] ∧ ∀ c ∈ e.shape.name.toList, c ≠ ' ' := by
    cases e.shape <;> simp [Shape.name]
  have hmark : (if e.ok then "ok" else "FAIL").toList ≠ [] ∧
      ∀ c ∈ (if e.ok then "ok" else "FAIL").toList, c ≠ ' ' := by
    cases e.ok <;> simp
  have htime : ∀ c ∈ Entry.roundMilliseconds e.elapsed ++ "ms".toList, c ≠ ' ' := by
    refine List.forall_mem_append.mpr ⟨?_, by simp⟩
    rintro c hc rfl
    exact notMem_roundMilliseconds e.elapsed rfl (by decide) hc
  have hok : decide ((if e.ok then "ok" else "FAIL").toList = "ok".toList) = e.ok := by
    cases e.ok <;> simp
  obtain ⟨m, n, hline⟩ := toList_line e
  have hblank (n : Nat) (rest : List Char) :
      (List.replicate (n + 1) ' ' ++ rest).head? = some ' ' := rfl
  have hfirst (rest : List Char) := word_append 0 hshape.1 hshape.2 (hblank m rest)
  have hsecond (rest : List Char) := word_append (m + 1) hmark.1 hmark.2 (hblank n rest)
  have hthird (rest : List Char) :=
    word_append (n + 1) (List.append_ne_nil_of_right_ne_nil _ (by decide)) htime
    (List.head?_cons (a := ' ') (l := rest))
  simp only [Row.ofLine?, hline, hfirst, hsecond, hthird, hok, String.ofList_toList, ofName?_name]
  rfl

/-- Pieces that end with a separator are those between the separators, and nothing is
behind the last one. -/
theorem flatMap_concat_eq_intercalate {A : Type} (a : A) (ls : List (List A)) :
    ls.flatMap (· ++ [a]) = [a].intercalate (ls ++ [[]]) := by
  induction ls with
  | nil => rfl
  | cons l ls ih =>
    rw [List.flatMap_cons, ih]
    cases ls <;> simp [List.intercalate_cons_cons]

/-- If no line feed is shown, the lines of the text are those of the entries. -/
theorem splitOn_lines {es : List Entry} (h : ∀ e ∈ es, '\n' ∉ e.shown.toList) :
    (Entry.lines es).toList.splitOn '\n' = (es.map Entry.line).map String.toList ++ [[]] := by
  -- Nothing in a line holds a line feed: neither what the entry shows nor the columns before it.
  have hline : ∀ e ∈ es, '\n' ∉ e.line.toList := by
    intro e he hfeed
    obtain ⟨m, n, hline⟩ := toList_line e
    have hshape : '\n' ∉ e.shape.name.toList := by cases e.shape <;> simp [Shape.name]
    have hmark : '\n' ∉ (if e.ok then "ok" else "FAIL").toList := by cases e.ok <;> simp
    have htime := notMem_roundMilliseconds e.elapsed (c := '\n') rfl (by decide)
    rw [hline] at hfeed
    simp [hshape, hmark, htime, h e he] at hfeed
  have hlines :
      (Entry.lines es).toList = ((es.map Entry.line).map String.toList).flatMap (· ++ ['\n']) := by
    simp [Entry.lines, String.toList_join, List.flatMap_map]
  rw [hlines, flatMap_concat_eq_intercalate, List.splitOn_intercalate _ ?_ (by simp)]
  refine List.forall_mem_append.mpr ⟨?_, List.forall_mem_singleton.mpr List.not_mem_nil⟩
  simpa using hline

end Deferral.Probe
