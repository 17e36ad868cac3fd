import OrderingService.Proofs.Toml.Integers
import OrderingService.Proofs.Toml.Strings
import OrderingService.Toml.Parser

/-!
# Documents survive TOML

A document is written table by table: a header with the keys that lead to the table, a line for each
key of its own, and then its sub-tables in the same way, each under a header of its own. The reader
knows nothing of this. It goes from line to line, and each line changes the root table where the
last header points.

So what is read of a table is stated for a root table with a hole in it: a path leads to the hole,
and the lines of the table change what is in the hole and nothing else. A header makes an empty
table at the end of the hole and goes down into it; the path is then one key longer, and its hole is
again the end of a table, because no table comes back to its own keys once it has sub-tables. Where
the last header pointed before does not matter to a header, so tables can be read one after the
other.

The keys of a document are written without quotes, and its values are strings, booleans and integers
of 64 bits with sign. Such an integer is the only thing that may be too large to be written. What is
read may hold more than that, but arrays in it are nested to a limited depth.

## Main definitions

* `Toml.Reads` — what some lines make of a document
* `Toml.Leads` — a path to a hole in a root table
* `Toml.Writable`, `Toml.Savable` — tables that can be written, below a header and as a document

## Main results

* `Toml.keyParts_append` — a key of several parts is read to its end
* `Toml.OnLine.exists_writeLine?` — a value is read to the end of its line
* `Toml.Writable.readsTable` — a table is read below its header
* `Toml.documentLines_brackets` — a key that holds arrays nested too deep is not read
* `Toml.parse?_write?` — a document is read as the root table that was written
-/

namespace OrderingService

namespace Toml

variable {cs ds rest : List Char}

/-! ### Lines -/

/-- A key that is written without quotes. -/
def Bare (key : String) : Prop := key ≠ "" ∧ key.toList.all isBareKey = true

instance (key : String) : Decidable (Bare key) := inferInstanceAs (Decidable (_ ∧ _))

theorem Bare.toList_ne_nil {key : String} (hkey : Bare key) : key.toList ≠ [] :=
  fun h => hkey.1 (String.toList_eq_nil_iff.mp h)

/-- A value that stands on the line of its key: a string, an integer of 64 bits with sign, or a
boolean. -/
inductive OnLine : TomlValue → Prop
  | string (text : String) : OnLine (.string text)
  | integer {n : Int} (hlow : -(2 ^ 63) ≤ n) (hhigh : n < 2 ^ 63) : OnLine (.integer n)
  | boolean (b : Bool) : OnLine (.boolean b)

/-- What a key does not start with. -/
theorem Bare.exists_cons {key : String} (hkey : Bare key) : ∃ c more, key.toList = c :: more ∧
    c ∉ [' ', '\t', '\n', '\r', '"', '\'', '#', '['] := by
  obtain ⟨c, more, hcons⟩ := List.exists_cons_of_ne_nil hkey.toList_ne_nil
  refine ⟨c, more, hcons, fun hmem => ?_⟩
  have hc := List.all_eq_true.mp hkey.2 c (hcons ▸ List.mem_cons_self)
  have hnot : [' ', '\t', '\n', '\r', '"', '\'', '#', '['].all (!isBareKey ·) = true := by decide
  have hnone := List.all_eq_true.mp hnot c hmem
  rw [hc] at hnone
  cases hnone

theorem skipBlanks_cons {c : Char} (hc : c ≠ ' ' ∧ c ≠ '\t') (rest : List Char) :
    skipBlanks (c :: rest) = c :: rest := List.dropWhile_cons_of_neg (by simp [hc])

theorem Bare.skipBlanks_eq {key : String} (hkey : Bare key) (rest : List Char) :
    skipBlanks (key.toList ++ rest) = key.toList ++ rest := by
  obtain ⟨c, more, hcons, hc⟩ := hkey.exists_cons
  rw [hcons]
  exact skipBlanks_cons (by simp_all) _

/-- One part of a key, with something behind it that is not part of it. -/
theorem simpleKey_append {key : String} (hkey : Bare key) {c : Char} (hc : isBareKey c = false)
    (rest : List Char) : simpleKey (key.toList ++ c :: rest) = some (key, c :: rest) := by
  have htake : (key.toList ++ c :: rest).takeWhile isBareKey = key.toList := by
    rw [List.takeWhile_append_of_pos (List.all_eq_true.mp hkey.2),
      List.takeWhile_cons_of_neg (by simp [hc]), List.append_nil]
  obtain ⟨first, more, hcons, hfirst⟩ := hkey.exists_cons
  have hquote : ∀ quote ∈ ['"', '\''], ∀ tail, key.toList ++ c :: rest ≠ quote :: tail := by
    intro quote hquote tail heq
    rw [hcons] at heq
    rw [(List.cons.inj heq).1] at hfirst
    simp_all
  rw [simpleKey]
  · rw [htake, if_neg (by simpa using hkey.toList_ne_nil), List.drop_left, String.ofList_toList]
  all_goals exact hquote _ (by decide)

/-- The parts of a key as they are written, with a point behind each. -/
def partsOf (path : List String) : String := String.join (path.map (· ++ "."))

theorem partsOf_concat (path : List String) (key : String) :
    partsOf (path ++ [key]) = partsOf path ++ key ++ "." := by
  simp [partsOf, String.append_assoc]

theorem partsOf_cons (part : String) (path : List String) (key : String) :
    (partsOf (part :: path) ++ key).toList
      = part.toList ++ '.' :: (partsOf path ++ key).toList := by
  simp [partsOf]

/-- A key does not start with a bracket. -/
theorem Bare.ne_bracket {key : String} (hkey : Bare key) (more tail : List Char) :
    key.toList ++ more ≠ '[' :: tail := by
  intro heq
  obtain ⟨c, rest, hcons, hc⟩ := hkey.exists_cons
  rw [hcons] at heq
  rw [(List.cons.inj heq).1] at hc
  exact absurd hc (by decide)

theorem partsOf_ne_bracket {path : List String} {key : String} (hpath : ∀ part ∈ path, Bare part)
    (hkey : Bare key) (more tail : List Char) :
    (partsOf path ++ key).toList ++ more ≠ '[' :: tail := by
  cases path with
  | nil => simpa [partsOf] using hkey.ne_bracket more tail
  | cons part path =>
    rw [partsOf_cons, List.append_assoc]
    exact (hpath part List.mem_cons_self).ne_bracket _ _

/-- **A key is read part by part,** up to something that is not part of a key; blanks before that
are dropped. -/
theorem keyParts_append {path : List String} {key : String} (hpath : ∀ part ∈ path, Bare part)
    (hkey : Bare key) {c d : Char} {after : List Char} (hc : isBareKey c = false)
    (hafter : skipBlanks (c :: rest) = d :: after) (hd : d ≠ '.') {room : Nat}
    (hroom : path.length < room) :
    keyParts room ((partsOf path ++ key).toList ++ c :: rest)
      = some (path ++ [key], d :: after) := by
  induction path generalizing room with
  | nil =>
    obtain ⟨room, rfl⟩ : ∃ n, room = n + 1 := ⟨room - 1, by omega⟩
    have hread := simpleKey_append hkey hc rest
    rw [partsOf, List.map_nil, String.join_nil, String.empty_append, keyParts, hkey.skipBlanks_eq,
      hread, Option.bind_eq_bind, Option.bind_some]
    dsimp only
    rw [hafter]
    split
    next heq => exact absurd (List.cons.inj heq).1 hd
    next => rfl
  | cons part path ih =>
    rw [List.length_cons] at hroom
    rw [List.forall_mem_cons] at hpath
    obtain ⟨room, rfl⟩ : ∃ n, room = n + 1 := ⟨room - 1, by omega⟩
    rw [partsOf_cons, List.append_assoc, List.cons_append, keyParts, hpath.1.skipBlanks_eq,
      simpleKey_append hpath.1 (by decide), Option.bind_eq_bind, Option.bind_some]
    dsimp only
    rw [skipBlanks_cons (by decide)]
    show (keyParts room ((partsOf path ++ key).toList ++ c :: rest)).bind
      (fun x => some (part :: x.1, x.2)) = _
    rw [ih hpath.2 (by omega)]
    rfl

/-- A document goes on behind some of its text: the lines that were read made one document from
another, and enough of the bound is left for the rest. -/
def Reads (d : Document) (written : List Char) (d' : Document) : Prop :=
  ∀ bound rest, written.length + rest.length < bound → ∃ bound', rest.length < bound' ∧
    documentLines bound d (written ++ rest) = documentLines bound' d' rest

theorem Reads.refl (d : Document) : Reads d [] d :=
  fun bound _ hbound => ⟨bound, by simpa using hbound, rfl⟩

theorem Reads.trans {d d' d'' : Document} {first second : List Char} (h : Reads d first d')
    (h' : Reads d' second d'') : Reads d (first ++ second) d'' := by
  intro bound rest hbound
  rw [List.length_append] at hbound
  obtain ⟨bound', hbound', heq⟩ := h bound (second ++ rest) (by rw [List.length_append]; omega)
  rw [List.length_append] at hbound'
  obtain ⟨bound'', hbound'', heq'⟩ := h' bound' rest hbound'
  exact ⟨bound'', hbound'', by rw [List.append_assoc, heq, heq']⟩

/-- An empty line. -/
theorem documentLines_newline (bound : Nat) (d : Document) (rest : List Char) :
    documentLines (bound + 1) d ('\n' :: rest) = documentLines bound d rest := rfl

theorem reads_newline (d : Document) : Reads d ['\n'] d := by
  intro bound rest hbound
  obtain ⟨bound, rfl⟩ : ∃ n, bound = n + 1 := ⟨bound - 1, by omega⟩
  rw [List.length_singleton] at hbound
  exact ⟨bound, by omega, documentLines_newline bound d rest⟩

/-- A line that is neither empty nor a comment. -/
theorem documentLines_line {c : Char} (hc : c ∉ [' ', '\t', '\n', '\r', '#']) (bound : Nat)
    (d : Document) (cs : List Char) : documentLines (bound + 1) d (c :: cs)
      = (line bound d (c :: cs)).bind fun x => documentLines bound x.1 x.2 := by
  simp only [List.mem_cons, List.not_mem_nil, or_false, not_or] at hc
  rw [documentLines, skipBlanks_cons (by simp [hc])]
  split
  next heq => cases heq
  next heq => exact absurd (List.cons.inj heq).1 (by simp [hc])
  next heq => exact absurd (List.cons.inj heq).1 (by simp [hc])
  next heq => exact absurd (List.cons.inj heq).1 (by simp [hc])
  next => rfl

theorem reads_line {d d' : Document} {c : Char} {written : List Char}
    (hc : c ∉ [' ', '\t', '\n', '\r', '#'])
    (hline : ∀ bound rest, line bound d (c :: written ++ '\n' :: rest) = some (d', rest)) :
    Reads d (c :: written ++ ['\n']) d' := by
  intro bound rest hbound
  obtain ⟨bound, rfl⟩ : ∃ n, bound = n + 1 := ⟨bound - 1, by omega⟩
  simp only [List.cons_append, List.length_cons, List.length_append, List.length_nil] at hbound
  refine ⟨bound, by omega, ?_⟩
  have hread := hline bound rest
  rw [List.append_assoc, List.singleton_append]
  rw [List.cons_append] at hread ⊢
  rw [documentLines_line hc, hread, Option.bind_some]

/-- A key is the path to its table and its last part. -/
theorem key_append {path : List String} {last : String} (hpath : ∀ part ∈ path, Bare part)
    (hlast : Bare last) {c d : Char} {after : List Char} (hc : isBareKey c = false)
    (hafter : skipBlanks (c :: rest) = d :: after) (hd : d ≠ '.')
    (hroom : path.length < depthLimit - 1) :
    key ((partsOf path ++ last).toList ++ c :: rest) = some ((path, last), d :: after) := by
  rw [key, keyParts_append hpath hlast hc hafter hd hroom]
  simp

/-- The key of a setting is read up to its equals sign. -/
theorem key_equals {last : String} (hlast : Bare last) (rest : List Char) :
    key (last.toList ++ ' ' :: '=' :: rest) = some (([], last), '=' :: rest) := by
  have hread := key_append (show ∀ part ∈ [], Bare part from nofun) hlast
    (show isBareKey ' ' = false by decide)
    (show skipBlanks (' ' :: '=' :: rest) = '=' :: rest from rfl) (by decide) (by decide)
  rwa [partsOf, List.map_nil, String.join_nil, String.empty_append] at hread

theorem word_cons (c : Char) (rest : List Char) : word [c] (c :: rest) = some rest := by
  simp [word]

/-- The line of a header. -/
theorem reads_header {d : Document} {path : List String} {last : String} {root : TomlTable}
    (hpath : ∀ part ∈ path, Bare part) (hlast : Bare last) (hroom : path.length < depthLimit - 1)
    (hopen : d.root.openTable path last = some root) :
    Reads d (("[" ++ (partsOf path ++ last) ++ "]\n").toList) ⟨root, path ++ [last]⟩ := by
  have hsplit : ("[" ++ (partsOf path ++ last) ++ "]\n").toList
      = '[' :: ((partsOf path ++ last).toList ++ [']']) ++ ['\n'] := by simp
  rw [hsplit]
  refine reads_line (by decide) fun bound rest => ?_
  have hkey := key_append hpath hlast (by decide)
    (skipBlanks_cons (c := ']') (by decide) ('\n' :: rest)) (by decide) hroom
  rw [List.cons_append, List.append_assoc, List.singleton_append, line]
  · rw [hkey, Option.bind_eq_bind, Option.bind_some]
    dsimp only
    rw [Document.openTable, hopen, word_cons]
    rfl
  · intro more heq
    exact partsOf_ne_bracket hpath hlast _ _ heq

/-- The line of a key, from its value on. -/
theorem line_entry {key : String} (hkey : Bare key) (bound : Nat) (d : Document)
    (rest : List Char) : line bound d (key.toList ++ ' ' :: '=' :: rest)
      = (value (2 * bound + 2) (depthLimit - 1) (skipBlanks rest)).bind fun x =>
          (d.assign [] key x.1).bind fun d' => (lineEnd x.2).bind fun rest => some (d', rest) := by
  rw [line]
  · rw [key_equals hkey, Option.bind_eq_bind, Option.bind_some]
    dsimp only
    rw [word_cons]
    rfl
  all_goals exact fun _ => hkey.ne_bracket _ _

theorem reads_entry {d : Document} {key written : String} {v : TomlValue} {root : TomlTable}
    (hkey : Bare key) {c : Char} {more : List Char} (hwritten : written.toList = c :: more)
    (hc : c ≠ ' ' ∧ c ≠ '\t')
    (hvalue : ∀ bound depth rest, value (bound + 1) depth (written.toList ++ '\n' :: rest)
      = some (v, '\n' :: rest))
    (hassign : d.root.descend (TomlTable.insertNew key v) d.current = some root) :
    Reads d ((key ++ " = " ++ written ++ "\n").toList) { d with root := root } := by
  obtain ⟨first, tail, hcons, hfirst⟩ := hkey.exists_cons
  have hsplit : (key ++ " = " ++ written ++ "\n").toList
      = first :: (tail ++ ' ' :: '=' :: ' ' :: written.toList) ++ ['\n'] := by simp [hcons]
  rw [hsplit]
  refine reads_line (by simp_all) fun bound rest => ?_
  have hline : first :: (tail ++ ' ' :: '=' :: ' ' :: written.toList) ++ '\n' :: rest
      = key.toList ++ ' ' :: '=' :: ' ' :: (written.toList ++ '\n' :: rest) := by simp [hcons]
  have hskip : skipBlanks (' ' :: (written.toList ++ '\n' :: rest))
      = written.toList ++ '\n' :: rest := by
    rw [hwritten]
    exact skipBlanks_cons hc _
  have hinsert : TomlTable.assign [] key v = TomlTable.insertNew key v := by
    funext t
    rw [TomlTable.assign]
  rw [hline, line_entry hkey, hskip, hvalue (2 * bound + 1) (depthLimit - 1) rest,
    Option.bind_some]
  dsimp only
  rw [Document.assign, hinsert, hassign]
  rfl

/-! ### Tables -/

/-- A path leads to a hole of a root table. -/
def Leads (path : List String) (root : TomlTable → TomlTable) : Prop :=
  ∀ f sub, TomlTable.descend f path (root sub) = (f sub).map root

theorem leads_nil : Leads [] id := by
  intro f sub
  rw [TomlTable.descend, id, Option.map_id]
  rfl

theorem descend_append (f : TomlTable → Option TomlTable) (path path' : List String)
    (t : TomlTable) : TomlTable.descend f (path ++ path') t
      = TomlTable.descend (TomlTable.descend f path') path t := by
  induction path generalizing t with
  | nil => rw [List.nil_append, TomlTable.descend]
  | cons key path ih =>
    rw [List.cons_append, TomlTable.descend, TomlTable.descend]
    simp only [ih]

theorem update_append {key : String} {t : TomlTable} (hkey : key ∉ t.map (·.1))
    (f : Option TomlValue → Option TomlValue) (t' : TomlTable) :
    TomlTable.update key f (t ++ t') = (TomlTable.update key f t').map (t ++ ·) := by
  induction t with
  | nil => simp
  | cons entry t ih =>
    obtain ⟨k, v⟩ := entry
    rw [List.map_cons, List.mem_cons, not_or] at hkey
    rw [List.cons_append, TomlTable.update, if_neg (Ne.symm hkey.1), ih hkey.2]
    cases TomlTable.update key f t' <;> rfl

theorem update_absent {key : String} {t : TomlTable} (hkey : key ∉ t.map (·.1))
    {f : Option TomlValue → Option TomlValue} {v : TomlValue} (hf : f none = some v) :
    TomlTable.update key f t = some (t ++ [(key, v)]) := by
  have hend := update_append hkey f []
  rw [List.append_nil] at hend
  rw [hend, TomlTable.update, hf]
  rfl

/-- Below the last table of a hole there is another hole. -/
theorem Leads.concat {path : List String} {root : TomlTable → TomlTable} (h : Leads path root)
    {before : TomlTable} {key : String} (hkey : key ∉ before.map (·.1)) :
    Leads (path ++ [key]) fun sub => root (before ++ [(key, .table .header sub)]) := by
  intro f sub
  rw [descend_append, h, TomlTable.descend, update_append hkey, TomlTable.update, if_pos rfl]
  dsimp only
  rw [TomlTable.descend]
  cases f sub <;> rfl

/-- A table that can be written: its own keys come before its sub-tables, no key occurs twice, and
tables are nested `room - 1` deep at most. -/
def Writable : (room : Nat) → TomlTable → Prop
  | 0, _ => False
  | room + 1, t => ∃ own subs, t = own ++ subs ∧ (t.map (·.1)).Nodup ∧
      (∀ entry ∈ own, Bare entry.1 ∧ OnLine entry.2) ∧
      ∀ entry ∈ subs, Bare entry.1 ∧ ∃ sub, entry.2 = .table .header sub ∧ Writable room sub

/-- Each block of a document after an empty line. -/
def spaced (blocks : List String) : List Char := blocks.flatMap fun block => '\n' :: block.toList

theorem value_of_string {text : String} (h : string cs = some (text, rest)) (bound depth : Nat) :
    value (bound + 1) depth cs = some (.string text, rest) := by
  obtain ⟨quote, more, rfl, rfl | rfl⟩ := exists_cons_of_string h <;>
  · rw [value, h]
    rfl

theorem value_of_digit {c : Char} (hc : c = '-' ∨ Text.isDigit 10 c = true) (bound depth : Nat)
    (rest : List Char) : value (bound + 1) depth (c :: rest) = number (c :: rest) := by
  have hother : ∀ d ∈ ['"', '\'', '[', '\x7b', 't', 'f'], c ≠ d := by
    have hall : ['"', '\'', '[', '\x7b', 't', 'f'].all
        (fun d => d != '-' && !Text.isDigit 10 d) = true := by decide
    rintro d hd rfl
    have hnone := List.all_eq_true.mp hall c hd
    simp_all
  rw [value]
  all_goals exact fun more heq => hother _ (by decide) (List.cons.inj heq).1

/-- **The value of a key is read to the end of its line.** -/
theorem OnLine.exists_writeLine? {v : TomlValue} (hv : OnLine v) (key : String) :
    ∃ written c more, writeLine? key v = some (key ++ " = " ++ written ++ "\n") ∧
      written.toList = c :: more ∧ (c ≠ ' ' ∧ c ≠ '\t') ∧
      ∀ bound depth rest, value (bound + 1) depth (written.toList ++ '\n' :: rest)
        = some (v, '\n' :: rest) := by
  cases hv with
  | string text =>
    have hread := string_writeString text
    obtain ⟨quote, more, hcons, hquote⟩ := exists_cons_of_string (hread [])
    cases hwritten : (writeString text).toList with
    | nil =>
      rw [hwritten] at hcons
      rw [← (List.cons.inj hcons).1] at hquote
      exact absurd hquote (by decide)
    | cons c tail =>
      rw [hwritten] at hcons
      rw [← (List.cons.inj hcons).1] at hquote
      refine ⟨writeString text, c, tail, rfl, hwritten, ?_, fun bound depth rest =>
        value_of_string (hread rest) bound depth⟩
      rcases hquote with rfl | rfl <;> decide
  | @integer n hlow hhigh =>
    obtain ⟨negative, ds, hwritten, hds, hn⟩ := toList_toString n
    obtain ⟨d, tail, hcons, hd⟩ := hds.exists_cons
    have hfirst : ∃ c more, minus negative ++ ds = c :: more ∧
        (c = '-' ∨ Text.isDigit 10 c = true) := by
      cases negative with
      | true => exact ⟨_, _, rfl, Or.inl rfl⟩
      | false => exact ⟨d, tail, hcons, Or.inr hd⟩
    obtain ⟨c, more, hform, hc⟩ := hfirst
    refine ⟨toString n, c, more, if_pos ⟨hlow, hhigh⟩, hwritten.trans hform, ?_,
      fun bound depth rest => ?_⟩
    · constructor <;> rintro rfl <;> exact absurd hc (by decide)
    · have hread := number_append negative hds rest
      rw [hn, ranged, if_pos ⟨hlow, hhigh⟩, ← List.append_assoc, hform] at hread
      rw [hwritten, hform]
      exact (value_of_digit hc bound depth _).trans hread
  | boolean b =>
    cases b with
    | true =>
      refine ⟨"true", 't', ['r', 'u', 'e'], rfl, rfl, by decide, fun bound depth rest => ?_⟩
      simp [value, word]
    | false =>
      refine ⟨"false", 'f', ['a', 'l', 's', 'e'], rfl, rfl, by decide, fun bound depth rest => ?_⟩
      simp [value, word]

theorem notMem_of_nodup {before after : TomlTable} {key : String} {v : TomlValue}
    (h : ((before ++ (key, v) :: after).map (·.1)).Nodup) : key ∉ before.map (·.1) := by
  rw [List.map_append, List.nodup_append] at h
  exact fun hmem => h.2.2 key hmem key (by simp) rfl

/-- **The keys of a table before its sub-tables,** below any hole. -/
theorem reads_own {own : TomlTable} (hown : ∀ entry ∈ own, Bare entry.1 ∧ OnLine entry.2) :
    ∃ written, writeLines? own = some written ∧ ∀ path root before, Leads path root →
      ((before ++ own).map (·.1)).Nodup →
      Reads ⟨root before, path⟩ written.toList ⟨root (before ++ own), path⟩ := by
  induction own with
  | nil => exact ⟨"", rfl, fun path root before _ _ => by simpa using Reads.refl _⟩
  | cons entry own ih =>
    obtain ⟨key, v⟩ := entry
    rw [List.forall_mem_cons] at hown
    obtain ⟨⟨hkey, hv⟩, hown⟩ := hown
    obtain ⟨line, c, more, hline, hcons, hc, hvalue⟩ := hv.exists_writeLine? key
    obtain ⟨lines, hlines, hreads⟩ := ih hown
    refine ⟨key ++ " = " ++ line ++ "\n" ++ lines, by rw [writeLines?, hline, hlines]; rfl, ?_⟩
    intro path root before hleads hnodup
    have hassign : TomlTable.descend (TomlTable.insertNew key v) path (root before)
        = some (root (before ++ [(key, v)])) := by
      rw [hleads, TomlTable.insertNew, update_absent (notMem_of_nodup hnodup) rfl, Option.map_some]
    have hfirst := reads_entry (d := ⟨root before, path⟩) hkey hcons hc hvalue hassign
    rw [List.append_cons] at hnodup ⊢
    rw [String.toList_append]
    exact hfirst.trans (hreads path root _ hleads hnodup)

/-- What is to be shown of a table at the end of a path: it can be written, and what is written is
read as the table, below any hole that the path before it leads to. -/
def ReadsTable (path : List String) (key : String) (sub : TomlTable) : Prop :=
  ∃ blocks, writeTable? (partsOf path ++ key) (.table .header sub) = some blocks ∧
    ∀ root before current, Leads path root → key ∉ before.map (·.1) → ∃ current',
      Reads ⟨root before, current⟩ (spaced blocks)
        ⟨root (before ++ [(key, .table .header sub)]), current'⟩

/-- The tables among the entries of a table, one after the other. -/
theorem reads_subs {path : List String} {subs : TomlTable}
    (hsubs : ∀ entry ∈ subs, ∃ sub, entry.2 = .table .header sub ∧ ReadsTable path entry.1 sub) :
    ∃ blocks, writeTables? (partsOf path) subs = some blocks ∧ ∀ root before current,
      Leads path root → ((before ++ subs).map (·.1)).Nodup → ∃ current',
        Reads ⟨root before, current⟩ (spaced blocks) ⟨root (before ++ subs), current'⟩ := by
  induction subs with
  | nil =>
    exact ⟨[], rfl, fun root before current _ _ => ⟨current, by simpa [spaced] using Reads.refl _⟩⟩
  | cons entry subs ih =>
    obtain ⟨key, v⟩ := entry
    rw [List.forall_mem_cons] at hsubs
    obtain ⟨⟨sub, rfl, blocks, hblocks, hread⟩, hsubs⟩ := hsubs
    obtain ⟨more, hmore, hreads⟩ := ih hsubs
    refine ⟨blocks ++ more, by rw [writeTables?, hblocks, hmore]; rfl, ?_⟩
    intro root before current hleads hnodup
    obtain ⟨current', hfirst⟩ := hread root before current hleads (notMem_of_nodup hnodup)
    rw [List.append_cons] at hnodup ⊢
    obtain ⟨current'', hrest⟩ := hreads root _ current' hleads hnodup
    refine ⟨current'', ?_⟩
    rw [spaced, List.flatMap_append]
    exact hfirst.trans hrest

/-- Own keys are not written among the tables, and tables not among the own keys. -/
theorem writeTables?_append {path : String} {own : TomlTable}
    (hown : ∀ entry ∈ own, Bare entry.1 ∧ OnLine entry.2) (subs : TomlTable) :
    writeTables? path (own ++ subs) = writeTables? path subs := by
  induction own with
  | nil => rfl
  | cons entry own ih =>
    obtain ⟨key, v⟩ := entry
    rw [List.forall_mem_cons] at hown
    have hnone : writeTable? (path ++ key) v = some [] := by
      cases hown.1.2 <;> rfl
    rw [List.cons_append, writeTables?, hnone, ih hown.2]
    cases writeTables? path subs <;> rfl

theorem writeLines?_append (own : TomlTable) {subs : TomlTable}
    (hsubs : ∀ entry ∈ subs, ∃ sub, entry.2 = .table .header sub) :
    writeLines? (own ++ subs) = writeLines? own := by
  have hnone : writeLines? subs = some "" := by
    induction subs with
    | nil => rfl
    | cons entry subs ih =>
      obtain ⟨key, v⟩ := entry
      rw [List.forall_mem_cons] at hsubs
      obtain ⟨⟨sub, rfl⟩, hsubs⟩ := hsubs
      rw [writeLines?, writeLine?, ih hsubs]
      rfl
  induction own with
  | nil => rw [List.nil_append, hnone, writeLines?]
  | cons entry own ih =>
    obtain ⟨key, v⟩ := entry
    rw [List.cons_append, writeLines?, writeLines?, ih]

/-- **A table is read below its header.** The induction is on how deep tables may still be
nested. -/
theorem Writable.readsTable {room : Nat} {sub : TomlTable} (h : Writable room sub)
    {path : List String} {key : String} (hpath : ∀ part ∈ path, Bare part) (hkey : Bare key)
    (hroom : path.length + room < depthLimit) : ReadsTable path key sub := by
  induction room generalizing path key sub with
  | zero => cases h
  | succ room ih =>
    obtain ⟨own, subs, rfl, hnodup, hown, hsubs⟩ := h
    have hbelow : ∀ part ∈ path ++ [key], Bare part := by
      rw [List.forall_mem_append]
      exact ⟨hpath, by simpa using hkey⟩
    obtain ⟨lines, hlines, hreadOwn⟩ := reads_own hown
    obtain ⟨blocks, hblocks, hreadSubs⟩ := @reads_subs (path ++ [key]) subs (by
      intro entry hentry
      obtain ⟨hbare, sub, heq, hsub⟩ := hsubs entry hentry
      refine ⟨sub, heq, ih hsub hbelow hbare ?_⟩
      rw [List.length_append, List.length_singleton]
      omega)
    rw [partsOf_concat] at hblocks
    refine ⟨("[" ++ (partsOf path ++ key) ++ "]\n" ++ lines) :: blocks, ?_, ?_⟩
    · have hown' := writeLines?_append own fun entry hentry =>
        (hsubs entry hentry).2.imp fun _ h => h.1
      rw [writeTable?, hown', hlines, writeTables?_append hown, hblocks]
      rfl
    · intro root before current hleads habsent
      have hbelow' := hleads.concat habsent
      have hopen : (root before).openTable path key
          = some (root (before ++ [(key, .table .header [])])) := by
        rw [TomlTable.openTable, hleads, update_absent habsent rfl, Option.map_some]
      have hheader := reads_header (d := ⟨root before, current⟩) hpath hkey (by omega) hopen
      obtain ⟨current', hread⟩ := hreadSubs _ own (path ++ [key]) hbelow' hnodup
      refine ⟨current', ?_⟩
      rw [List.map_append] at hnodup
      have hlinesRead := hreadOwn (path ++ [key]) _ [] hbelow' (List.nodup_append.mp hnodup).1
      have hall := (reads_newline _).trans (hheader.trans (hlinesRead.trans hread))
      simpa [spaced] using hall

/-! ### Arrays that are nested too deep -/

/-- An array is no value when its first item is none. -/
theorem value_bracket {bound depth : Nat} (h : value bound depth ('[' :: cs) = none) :
    value (bound + 2) (depth + 1) ('[' :: '[' :: cs) = none := by
  have hskip : skipLines (bound + 1) ('[' :: cs) = '[' :: cs := rfl
  have hitems : arrayItems (bound + 1) depth ('[' :: cs) = none := by
    rw [arrayItems, hskip]
    show (value bound depth ('[' :: cs)).bind _ = none
    rw [h]
    rfl
  rw [value, hitems]
  rfl

/-- **More brackets than arrays may be nested are no value,** whatever stands behind them. -/
theorem value_brackets (bound depth : Nat) (rest : List Char) :
    value bound depth (List.replicate (depth + 1) '[' ++ rest) = none := by
  induction depth generalizing bound with
  | zero =>
    cases bound with
    | zero => rw [value]
    | succ bound => rfl
  | succ depth ih =>
    -- A bracket takes two from the bound, one for the array and one for its items.
    match bound with
    | 0 => rw [value]
    | 1 => rfl
    | bound + 2 => exact value_bracket (ih bound)

/-- So a document is not read any further once a key holds that many. -/
theorem documentLines_brackets {key : String} (hkey : Bare key) {count : Nat}
    (hcount : depthLimit ≤ count) (bound : Nat) (d : Document) (rest : List Char) :
    documentLines bound d (key.toList ++ ' ' :: '=' :: ' ' :: (List.replicate count '[' ++ rest))
      = none := by
  obtain ⟨more, rfl⟩ := Nat.exists_eq_add_of_le hcount
  obtain ⟨c, tail, hcons, hc⟩ := hkey.exists_cons
  have hvalue : ∀ bound, value bound (depthLimit - 1)
      (skipBlanks (' ' :: (List.replicate (depthLimit + more) '[' ++ rest))) = none := by
    intro bound
    rw [← List.replicate_append_replicate, List.append_assoc]
    exact value_brackets bound (depthLimit - 1) _
  cases bound with
  | zero => rfl
  | succ bound =>
    have hline := line_entry hkey bound d
      (' ' :: (List.replicate (depthLimit + more) '[' ++ rest))
    rw [hvalue, Option.bind_none] at hline
    rw [hcons, List.cons_append] at hline ⊢
    rw [documentLines_line (by simp_all), hline, Option.bind_none]

/-! ### Documents -/

/-- A root table that can be written: it holds nothing but tables. -/
def Savable (t : TomlTable) : Prop :=
  (t.map (·.1)).Nodup ∧ ∀ entry ∈ t, Bare entry.1 ∧
    ∃ sub, entry.2 = .table .header sub ∧ Writable (depthLimit - 1) sub

/-- A document that is not empty starts with a header. -/
theorem cases_of_writeTables? {path : String} {t : TomlTable} {blocks : List String}
    (h : writeTables? path t = some blocks) :
    blocks = [] ∨ ∃ first more, blocks = ("[" ++ first) :: more := by
  induction t generalizing blocks with
  | nil => exact Or.inl (Option.some.inj h).symm
  | cons entry t ih =>
    obtain ⟨key, v⟩ := entry
    simp only [writeTables?, Option.bind_eq_bind, Option.bind_eq_some_iff] at h
    obtain ⟨first, hfirst, rest, hrest, h⟩ := h
    obtain rfl := Option.some.inj h
    cases v with
    | table origin sub =>
      simp only [writeTable?, Option.bind_eq_bind, Option.bind_eq_some_iff] at hfirst
      obtain ⟨lines, -, subs, -, hfirst⟩ := hfirst
      obtain rfl := Option.some.inj hfirst
      exact Or.inr ⟨path ++ key ++ ("]\n" ++ lines), subs ++ rest, by simp [String.append_assoc]⟩
    | _ =>
      obtain rfl := Option.some.inj hfirst
      exact ih hrest

/-- An empty line at the front changes nothing. -/
theorem Reads.of_newline {d d' : Document} {cs : List Char} (h : Reads d ('\n' :: cs) d') :
    Reads d cs d' := by
  intro bound rest hbound
  obtain ⟨bound', hbound', heq⟩ := h (bound + 1) rest (by rw [List.length_cons]; omega)
  exact ⟨bound', hbound', by rwa [List.cons_append, documentLines_newline] at heq⟩

theorem spaced_cons (block : String) (blocks : List String) :
    spaced (block :: blocks) = '\n' :: ("\n".intercalate (block :: blocks)).toList := by
  induction blocks generalizing block with
  | nil => simp [spaced]
  | cons next blocks ih =>
    rw [String.intercalate_cons_cons, String.toList_append, String.toList_append, spaced,
      List.flatMap_cons, ← spaced, ih]
    simp

/-- **Documents survive TOML.** A root table that can be written is read back as it was, with all
tables in their order and each key in its table. -/
theorem parse?_write? {t : TomlTable} (h : Savable t) :
    ∃ text, write? t = some text ∧ parse? text = some t := by
  obtain ⟨hnodup, ht⟩ := h
  obtain ⟨blocks, hblocks, hreads⟩ := @reads_subs [] t (by
    intro entry hentry
    obtain ⟨hkey, sub, heq, hsub⟩ := ht entry hentry
    exact ⟨sub, heq, hsub.readsTable nofun hkey (by decide)⟩)
  obtain ⟨current, hread⟩ := hreads id [] [] leads_nil (by simpa using hnodup)
  have htext : write? t = some ("\n".intercalate blocks) := by
    rw [write?]
    exact congrArg _ hblocks
  refine ⟨_, htext, ?_⟩
  have hdocument : Reads ⟨[], []⟩ ("\n".intercalate blocks).toList ⟨t, current⟩ ∧
      ∀ more, ("\n".intercalate blocks).toList ≠ '\ufeff' :: more := by
    rcases cases_of_writeTables? hblocks with rfl | ⟨first, more, rfl⟩
    · exact ⟨hread, fun more heq => by simp at heq⟩
    · rw [spaced_cons] at hread
      refine ⟨hread.of_newline, fun tail heq => ?_⟩
      cases more with
      | nil => simp at heq
      | cons => simp at heq
  obtain ⟨hdocument, hmark⟩ := hdocument
  obtain ⟨bound, hbound, heq⟩ := hdocument (("\n".intercalate blocks).toList.length + 1) []
    (by simp)
  obtain ⟨bound, rfl⟩ : ∃ n, bound = n + 1 := ⟨bound - 1, by simp at hbound; omega⟩
  rw [List.append_nil] at heq
  rw [parse?]
  split
  next more heq' => exact absurd heq' (hmark more)
  next =>
    rw [heq]
    rfl

end Toml

end OrderingService
