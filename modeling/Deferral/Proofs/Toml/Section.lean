import Deferral.Config.Layer
import Deferral.Proofs.Toml.Value

/-!
# Reading a section

A document with one section, in which there is a line for each of some keys: a key without quotes,
an equals sign between spaces, and a value. Line by line the entries come into the open table, and
at the end of the text the table comes into the root.

Main statements:
* `key?_bare`: a key without quotes is read as it is.
* `Document.readWithin?_line`: a line adds its entry to the open table.
* `Document.readWithin?_lines`: so do several lines with different keys.
* `Document.read?_section`: what a document with one section holds.
-/

namespace Deferral.Toml

/-- A key that needs no quotes. -/
structure IsBareKey (k : Key) : Prop where
  /-- It has characters. -/
  ne_nil : k ≠ []
  /-- None of them needs quotes. -/
  bare : ∀ c ∈ k, isBare c = true

instance (k : Key) : Decidable (IsBareKey k) :=
  decidable_of_iff (k ≠ [] ∧ k.all isBare = true)
    ⟨fun ⟨hne, hbare⟩ => ⟨hne, List.all_eq_true.mp hbare⟩,
      fun h => ⟨h.ne_nil, List.all_eq_true.mpr h.bare⟩⟩

variable {k : Key} {rest : List Char}

/-! ## Keys -/

/-- A bare key begins with a character that needs no quotes. -/
theorem IsBareKey.exists_cons (h : IsBareKey k) : ∃ c s, k = c :: s ∧ isBare c = true := by
  obtain ⟨c, s, rfl⟩ := List.exists_cons_of_ne_nil h.ne_nil
  exact ⟨c, s, rfl, h.bare c List.mem_cons_self⟩

/-- A character that needs no quotes is none that does. -/
theorem ne_of_isBare {c d : Char} (hc : isBare c = true) (hd : isBare d = false) : c ≠ d := by
  rintro rfl
  rw [hc] at hd
  cases hd

/-- A bare key does not begin with a space. -/
theorem skipSpace_bare (h : IsBareKey k) (rest : List Char) :
    skipSpace (k ++ rest) = k ++ rest := by
  obtain ⟨c, s, rfl, hc⟩ := h.exists_cons
  have hspace : isSpace c = false := by
    simp [isSpace, ne_of_isBare hc (by decide : isBare ' ' = false),
      ne_of_isBare hc (by decide : isBare '\t' = false)]
  simp [skipSpace, hspace]

/-- A bare key is read up to a character that it cannot hold. -/
theorem keyPart?_bare (h : IsBareKey k) {c : Char} (hc : isBare c = false) :
    keyPart? (k ++ c :: rest) = some (k, c :: rest) := by
  have htake : (k ++ c :: rest).takeWhile isBare = k := by
    rw [List.takeWhile_append_of_pos h.bare, List.takeWhile_cons_of_neg (by simp [hc]),
      List.append_nil]
  obtain ⟨d, s, hk, hd⟩ := h.exists_cons
  rw [keyPart?.eq_def]
  -- A quote or an apostrophe would begin a key of another kind.
  split
  next heq =>
    rw [hk] at heq
    exact absurd (List.cons.inj heq).1 (ne_of_isBare hd (by decide))
  next heq =>
    rw [hk] at heq
    exact absurd (List.cons.inj heq).1 (ne_of_isBare hd (by decide))
  next => simp [htake, h.ne_nil]

/-- A bare key is read with the spaces behind it, if no point follows. -/
theorem key?_bare (h : IsBareKey k) {c d : Char} {s : List Char} (hc : isBare c = false)
    (hskip : skipSpace (c :: rest) = d :: s) (hd : d ≠ '.') :
    key? (k ++ c :: rest) = some ([k], d :: s) := by
  rw [key?, show depthLimit - 1 = 77 + 1 + 1 from rfl, keyWithin?, skipSpace_bare h,
    keyPart?_bare h hc]
  simp only [Option.bind_eq_bind, Option.bind_some, hskip]
  split
  next heq => exact absurd (List.cons.inj heq).1 hd
  next => rfl

/-- An entry of a new key comes to the end of a table. -/
theorem addKey?_of_lookup {es : Entries} (h : es.lookup k = none) (item : Item) :
    es.addKey? [k] item = some (es ++ [(k, item)]) := by
  simp [Entries.addKey?, Entries.addDotted?, Entries.alter?, Entries.add?, h]

/-! ## Lines -/

namespace Document

variable {d : Document} {value : List Char} {item : Item}

/-- A line adds its entry to the open table, if the key is new. -/
theorem readPair?_line (hk : IsBareKey k) (hvalue : Represents value item)
    (hnew : d.current.lookup k = none) (rest : List Char) :
    d.readPair? (Layer.line k value ++ rest) =
      some ({ d with current := d.current ++ [(k, item)] }, rest) := by
  obtain ⟨c, s, hfirst, hspace, -, -⟩ := hvalue.first
  have hskip : skipSpace (' ' :: (value ++ '\n' :: rest)) = value ++ '\n' :: rest := by
    rw [hfirst, skipSpace, List.dropWhile_cons_of_pos (by decide), List.cons_append,
      List.dropWhile_cons_of_neg (by simp [hspace])]
  have hline : Layer.line k value ++ rest = k ++ ' ' :: '=' :: ' ' :: (value ++ '\n' :: rest) := by
    simp [Layer.line]
  rw [hline, readPair?, key?_bare hk (by decide) (s := ' ' :: (value ++ '\n' :: rest)) rfl
    (by decide)]
  simp only [Option.bind_eq_bind, Option.bind_some, skip?, if_pos, hskip, hvalue.value?,
    addKey?_of_lookup hnew]
  rfl

/-- A line that begins with a bare key is that of an entry. -/
theorem readWithin?_of_isBare {c : Char} {s t : List Char} (hskip : skipSpace s = c :: t)
    (hc : isBare c = true) (n : Nat) (d : Document) : readWithin? (n + 1) d s =
      (d.readPair? (c :: t)).bind fun read => readWithin? n read.1 read.2 := by
  rw [readWithin?.eq_def]
  simp only [hskip]
  -- The line is not empty, and begins with no line end, comment or header.
  split
  next heq => cases heq
  next heq => exact absurd (List.cons.inj heq).1 (ne_of_isBare hc (by decide))
  next heq => exact absurd (List.cons.inj heq).1 (ne_of_isBare hc (by decide))
  next heq => exact absurd (List.cons.inj heq).1 (ne_of_isBare hc (by decide))
  next heq => exact absurd (List.cons.inj heq).1 (ne_of_isBare hc (by decide))
  next => rfl

/-- The line of an entry adds it to the open table. -/
theorem readWithin?_line (hk : IsBareKey k) (hvalue : Represents value item)
    (hnew : d.current.lookup k = none) (n : Nat) (rest : List Char) :
    readWithin? (n + 1) d (Layer.line k value ++ rest) =
      readWithin? n { d with current := d.current ++ [(k, item)] } rest := by
  obtain ⟨c, s, hfirst, hc⟩ := hk.exists_cons
  have hskip : skipSpace (Layer.line k value ++ rest) = Layer.line k value ++ rest := by
    rw [Layer.line, List.append_assoc, List.append_assoc, List.append_assoc]
    exact skipSpace_bare hk _
  have hline :
      Layer.line k value ++ rest = c :: (s ++ [' ', '=', ' '] ++ value ++ ['\n'] ++ rest) := by
    rw [Layer.line, hfirst]
    rfl
  rw [readWithin?_of_isBare (hskip.trans hline) hc, ← hline, readPair?_line hk hvalue hnew]
  rfl

/-- An entry of a section, and how it is written. -/
structure Entry where
  /-- The key. -/
  key : Key
  /-- The text of the value. -/
  value : List Char
  /-- What the text represents. -/
  item : Item

/-- The line of an entry. -/
def Entry.text (e : Entry) : List Char :=
  Layer.line e.key e.value

/-- The entries can be read line by line. -/
structure Readable (es : List Entry) : Prop where
  /-- Their keys need no quotes. -/
  bare : ∀ e ∈ es, IsBareKey e.key
  /-- Their values are read as the items. -/
  represents : ∀ e ∈ es, Represents e.value e.item
  /-- No key occurs twice. -/
  nodup : (es.map Entry.key).Nodup

/-- The lines of entries with new keys add them to the open table. -/
theorem readWithin?_lines {es : List Entry} (h : Readable es)
    (hnew : ∀ e ∈ es, d.current.lookup e.key = none) {n : Nat} (hn : es.length ≤ n) :
    readWithin? n d (es.flatMap Entry.text) =
      some { d with current := d.current ++ es.map fun e => (e.key, e.item) } := by
  induction es generalizing d n with
  | nil => cases n <;> simp [readWithin?, skipSpace]
  | cons e es ih =>
    obtain ⟨n, rfl⟩ : ∃ m, n = m + 1 := ⟨n - 1, by rw [List.length_cons] at hn; omega⟩
    obtain ⟨hbare, hbares⟩ := List.forall_mem_cons.mp h.bare
    obtain ⟨hvalue, hvalues⟩ := List.forall_mem_cons.mp h.represents
    obtain ⟨hkey, hkeys⟩ := List.nodup_cons.mp h.nodup
    obtain ⟨hnewKey, hnewKeys⟩ := List.forall_mem_cons.mp hnew
    -- The key of this line is none of those that are still to come.
    have hlater : ∀ e' ∈ es, (d.current ++ [(e.key, e.item)]).lookup e'.key = none := by
      intro e' he'
      have hne : e'.key ≠ e.key := fun heq => hkey (heq ▸ List.mem_map_of_mem he')
      rw [List.lookup_append, hnewKeys e' he', Option.none_or, List.lookup_cons,
        beq_eq_false_iff_ne.mpr hne, List.lookup_nil]
    rw [List.flatMap_cons, Entry.text, readWithin?_line hbare hvalue hnewKey,
      ih ⟨hbares, hvalues, hkeys⟩ hlater (Nat.le_of_succ_le_succ hn)]
    simp

/-- The header of a section opens a table. -/
theorem readWithin?_header {name : Key} (hname : IsBareKey name) (n : Nat) (rest : List Char) :
    readWithin? (n + 1) {} ('[' :: name ++ [']', '\n'] ++ rest) =
      readWithin? n { header := .table [] name } rest := by
  obtain ⟨c, s, hfirst, hc⟩ := hname.exists_cons
  have hread : readHeader? {} (name ++ ']' :: '\n' :: rest) =
      some ({ header := .table [] name }, rest) := by
    rw [readHeader?.eq_def]
    split
    -- A second bracket would make it the header of an array.
    next heq =>
      rw [hfirst] at heq
      exact absurd (List.cons.inj heq).1 (ne_of_isBare hc (by decide))
    next =>
      rw [key?_bare hname (by decide) (s := '\n' :: rest) rfl (by decide)]
      rfl
  have hheader :
      '[' :: name ++ [']', '\n'] ++ rest = '[' :: (name ++ ']' :: '\n' :: rest) := by simp
  have hskip :
      skipSpace ('[' :: (name ++ ']' :: '\n' :: rest)) = '[' :: (name ++ ']' :: '\n' :: rest) :=
    rfl
  rw [hheader, readWithin?.eq_def]
  simp only [hskip, hread]
  rfl

/-- There are at least as many characters as lines. -/
theorem length_le_length_flatMap_text (es : List Entry) :
    es.length ≤ (es.flatMap Entry.text).length := by
  induction es with
  | nil => exact Nat.zero_le _
  | cons e es ih =>
    have htext : 0 < e.text.length := by
      rw [Entry.text, Layer.line, List.length_append]
      exact Nat.succ_pos _
    rw [List.flatMap_cons, List.length_append, List.length_cons]
    omega

/-- A document with one section holds the entries of its lines under the name of the section. -/
theorem read?_section {name : Key} (hname : IsBareKey name) {es : List Entry} (h : Readable es) :
    read? ('[' :: name ++ [']', '\n'] ++ es.flatMap Entry.text) =
      some [(name, .table .header (es.map fun e => (e.key, e.item)))] := by
  obtain ⟨n, hn⟩ : ∃ n, ('[' :: name ++ [']', '\n'] ++ es.flatMap Entry.text).length = n + 1 :=
    ⟨_, rfl⟩
  -- There is one step for each character, and no more than one is needed for each line.
  have henough : es.length ≤ n := by
    have hlines := length_le_length_flatMap_text es
    simp only [List.length_append, List.length_cons] at hn
    omega
  calc read? ('[' :: name ++ [']', '\n'] ++ es.flatMap Entry.text)
      = (readWithin? (n + 1) {} ('[' :: name ++ [']', '\n'] ++ es.flatMap Entry.text)).bind
          complete? := by
        rw [← hn]
        rfl
    _ = (readWithin? n { header := .table [] name } (es.flatMap Entry.text)).bind complete? := by
        rw [readWithin?_header hname]
    _ = some [(name, .table .header (es.map fun e => (e.key, e.item)))] := by
        rw [readWithin?_lines h (fun _ _ => rfl) henough]
        rfl

/-! ## Fields -/

/-- The entries of the fields that are set, in order. -/
def entriesOf (fs : List (Key × Option (List Char × Item))) : List Entry :=
  fs.filterMap fun f => f.2.map fun v => { key := f.1, value := v.1, item := v.2 }

variable {fs : List (Key × Option (List Char × Item))}

/-- The keys of the entries are those of fields. -/
theorem keys_entriesOf_sublist (fs : List (Key × Option (List Char × Item))) :
    ((entriesOf fs).map Entry.key).Sublist (fs.map Prod.fst) := by
  induction fs with
  | nil => exact List.Sublist.refl _
  | cons f fs ih =>
    obtain ⟨k, v?⟩ := f
    cases v? with
    | none => exact ih.cons k
    | some v => exact ih.cons_cons k

/-- Entries of different fields whose values represent their items can be read line by line. -/
theorem readable_entriesOf (hbare : ∀ f ∈ fs, IsBareKey f.1) (hnodup : (fs.map Prod.fst).Nodup)
    (hvalues : ∀ f ∈ fs, ∀ v, f.2 = some v → Represents v.1 v.2) : Readable (entriesOf fs) where
  bare e he := by
    obtain ⟨f, hf, he⟩ := List.mem_filterMap.mp he
    obtain ⟨v, -, rfl⟩ := Option.map_eq_some_iff.mp he
    exact hbare f hf
  represents e he := by
    obtain ⟨f, hf, he⟩ := List.mem_filterMap.mp he
    obtain ⟨v, hv, rfl⟩ := Option.map_eq_some_iff.mp he
    exact hvalues f hf v hv
  nodup := hnodup.sublist (keys_entriesOf_sublist fs)

/-- What is found under the key of a field is its item, if it is set. -/
theorem lookup_entriesOf (hnodup : (fs.map Prod.fst).Nodup) {v? : Option (List Char × Item)}
    (h : (k, v?) ∈ fs) :
    ((entriesOf fs).map fun e => (e.key, e.item)).lookup k = v?.map Prod.snd := by
  induction fs with
  | nil => cases h
  | cons f fs ih =>
    obtain ⟨k', w?⟩ := f
    obtain ⟨hkey, hnodup⟩ := List.nodup_cons.mp hnodup
    have hother (hne : k ≠ k') :
        ((entriesOf ((k', w?) :: fs)).map fun e => (e.key, e.item)).lookup k =
        ((entriesOf fs).map fun e => (e.key, e.item)).lookup k := by
      cases w? with
      | none => rfl
      | some w =>
        refine List.lookup_cons.trans ?_
        rw [beq_eq_false_iff_ne.mpr hne]
        rfl
    -- If the field itself is not set, no other one has its key.
    rcases List.mem_cons.mp h with heq | hmem
    · obtain ⟨rfl, rfl⟩ := Prod.mk.inj heq
      cases v? with
      | some v => exact List.lookup_cons_self
      | none =>
        refine List.lookup_eq_none_iff.mpr fun e he => ?_
        obtain ⟨e', he', rfl⟩ := List.mem_map.mp he
        have hmem := (keys_entriesOf_sublist fs).subset (List.mem_map_of_mem he')
        simpa using ne_of_mem_of_not_mem hmem hkey |>.symm
    · have hne : k ≠ k' := by
        rintro rfl
        exact hkey (List.mem_map.mpr ⟨_, hmem, rfl⟩)
      rw [hother hne, ih hnodup hmem]

end Document

end Deferral.Toml
