import OrderingService.Proofs.Config.Settings
import OrderingService.Proofs.Toml.Documents

/-!
# Configurations survive their documents

A configuration is written as a document with one section for each of its parts, and one of these
has a section of its own. Reading goes section by section and key by key. A key that is not there
takes its default, whether only the key is gone or the section with it, and a key that no setting is
read from does not matter.

So a document that keeps some of what was written says, for each setting, either what was written
or nothing. Both ways of losing a setting come to the same: the section that is gone has the
defaults of its settings for a default. That is a property of the defaults of every section, and it
is used here once for each of them.

Any text can be written. Two things keep a configuration from being written: a number beyond 64 bits
with sign, which are the integers of TOML, and a path that is no text, since a document is one. And
a document of which a part is not to be read as a setting still has to be one: what other keys hold
may not be nested deeper than documents are read.

## Main definitions

* `Config.Keeps` — a document that keeps some of what is written
* `Config.keeping` — the settings that are kept, and the defaults of the others
* `Config.Fits` — the numbers of a configuration are integers of TOML
* `Config.Textual` — the paths of a configuration are texts

## Main results

* `Config.keyOr_section` — a section that is gone is read like one that keeps nothing
* `Config.Keeps.ofTable?_eq` — what is kept is read, and everything else takes its default
* `Config.isSome_toTable?_iff` — what is written has paths that are texts
* `Config.kept_in_toml` — a configuration is read from its document, and from what is kept of it
* `Config.parse?_nestedDocument` — a document with arrays that are nested too deep is not read
* `Config.not_kept_in_toml` — a path that is no text, and a key that holds too much
-/

namespace OrderingService

open Toml (Bare OnLine Writable Savable)

/-- The value at the end of a path of keys, through tables. -/
def TomlValue.at? : List String → TomlValue → Option TomlValue
  | [], v => some v
  | key :: path, .table _ entries => (TomlTable.lookup? entries key).bind (at? path)
  | _ :: _, _ => none

namespace Config

/-- The sections of a document. -/
def sections : List (List String) :=
  [["server"], ["server", "tls"], ["ledger"], ["ordering"], ["logging"]]

/-- The settings of a document. -/
def settings : List (List String) :=
  [["server", "listen_address"], ["server", "conn_timeout_secs"],
   ["server", "max_recv_message_size"], ["server", "max_send_message_size"],
   ["server", "tls", "cert_file"], ["server", "tls", "key_file"], ["ledger", "data_dir"],
   ["ordering", "max_batch_size"], ["ordering", "batch_timeout_ms"],
   ["ordering", "hash_algorithm"], ["ordering", "mailbox_capacity"],
   ["ordering", "subscriber_buffer"], ["logging", "level"], ["logging", "format"]]

/-- What a document says at a path. -/
def found? (t : TomlTable) (path : List String) : Option TomlValue :=
  (TomlValue.table .header t).at? path

/-- A document that keeps some of what is written: each section that it has is a table, and each
setting that it has is as it was written. Nothing is said about other keys. -/
structure Keeps (written t : TomlTable) : Prop where
  tables : ∀ path ∈ sections, ∀ v, found? t path = some v → ∃ origin entries,
    v = .table origin entries
  values : ∀ path ∈ settings, ∀ v, found? t path = some v → found? written path = some v

end Config

/-- The files of a key pair as far as they are kept. -/
def TlsConfig.keeping (c : TlsConfig) (kept : List String → Bool) : TlsConfig where
  certFile := if kept ["cert_file"] then c.certFile else none
  keyFile := if kept ["key_file"] then c.keyFile else none

/-- The settings of the server as far as they are kept, and the defaults of the others. -/
def ServerConfig.keeping (c : ServerConfig) (kept : List String → Bool) : ServerConfig :=
  let default : ServerConfig := {}
  { listenAddress := if kept ["listen_address"] then c.listenAddress else default.listenAddress
    connTimeoutSecs :=
      if kept ["conn_timeout_secs"] then c.connTimeoutSecs else default.connTimeoutSecs
    maxRecvMessageSize :=
      if kept ["max_recv_message_size"] then c.maxRecvMessageSize else default.maxRecvMessageSize
    maxSendMessageSize :=
      if kept ["max_send_message_size"] then c.maxSendMessageSize else default.maxSendMessageSize
    tls := c.tls.keeping fun path => kept ("tls" :: path) }

/-- The settings of the ledger as far as they are kept, and the defaults of the others. -/
def LedgerConfig.keeping (c : LedgerConfig) (kept : List String → Bool) : LedgerConfig :=
  let default : LedgerConfig := {}
  { dataDir := if kept ["data_dir"] then c.dataDir else default.dataDir }

/-- The settings of batching as far as they are kept, and the defaults of the others. -/
def OrderingConfig.keeping (c : OrderingConfig) (kept : List String → Bool) : OrderingConfig :=
  let default : OrderingConfig := {}
  { maxBatchSize := if kept ["max_batch_size"] then c.maxBatchSize else default.maxBatchSize
    batchTimeoutMs :=
      if kept ["batch_timeout_ms"] then c.batchTimeoutMs else default.batchTimeoutMs
    hashAlgorithm := if kept ["hash_algorithm"] then c.hashAlgorithm else default.hashAlgorithm
    mailboxCapacity :=
      if kept ["mailbox_capacity"] then c.mailboxCapacity else default.mailboxCapacity
    subscriberBuffer :=
      if kept ["subscriber_buffer"] then c.subscriberBuffer else default.subscriberBuffer }

/-- The settings of logging as far as they are kept, and the defaults of the others. -/
def LoggingConfig.keeping (c : LoggingConfig) (kept : List String → Bool) : LoggingConfig :=
  let default : LoggingConfig := {}
  { level := if kept ["level"] then c.level else default.level
    format := if kept ["format"] then c.format else default.format }

/-- The settings as far as they are kept, and the defaults of the others. -/
def Config.keeping (c : Config) (kept : List String → Bool) : Config where
  server := c.server.keeping fun path => kept ("server" :: path)
  ledger := c.ledger.keeping fun path => kept ("ledger" :: path)
  ordering := c.ordering.keeping fun path => kept ("ordering" :: path)
  logging := c.logging.keeping fun path => kept ("logging" :: path)

namespace Config

variable {c : Config} {t written : TomlTable}

/-! ### What is written -/

/-- The limits, counts and times of a configuration. -/
def counts (c : Config) : List Nat :=
  [c.server.connTimeoutSecs, c.server.maxRecvMessageSize, c.server.maxSendMessageSize,
   c.ordering.maxBatchSize, c.ordering.batchTimeoutMs, c.ordering.mailboxCapacity,
   c.ordering.subscriberBuffer]

/-- The numbers of a configuration fit 64 bits with sign. -/
def Fits (c : Config) : Prop := ∀ n ∈ c.counts, n ≤ 2 ^ 63 - 1

instance (c : Config) : Decidable c.Fits :=
  inferInstanceAs (Decidable (∀ n ∈ c.counts, n ≤ 2 ^ 63 - 1))

/-- The paths of a configuration. -/
def paths (c : Config) : List Path :=
  c.ledger.dataDir :: (c.server.tls.certFile.toList ++ c.server.tls.keyFile.toList)

/-- The paths of a configuration are texts. -/
def Textual (c : Config) : Prop := ∀ path ∈ c.paths, path.text?.isSome

instance (c : Config) : Decidable c.Textual :=
  inferInstanceAs (Decidable (∀ path ∈ c.paths, path.text?.isSome))

theorem ofPath?_eq_some_iff {path : Path} {v : TomlValue} :
    ofPath? path = some v ↔ ∃ text, path = .ofText text ∧ v = .string text := by
  rw [ofPath?, Option.map_eq_some_iff]
  constructor
  · rintro ⟨text, htext, rfl⟩
    exact ⟨text, (Path.ofText_of_text? htext).symm, rfl⟩
  · rintro ⟨text, rfl, rfl⟩
    exact ⟨text, Path.text?_ofText text, rfl⟩

/-- The entry of a file, if it is set. -/
def fileEntry (key : String) (text : Option String) : TomlTable :=
  (text.map fun text => (key, TomlValue.string text)).toList

theorem optionalPath?_eq_some_iff {key : String} {path : Option Path} :
    optionalPath? key path = some written ↔
      ∃ text : Option String, path = text.map .ofText ∧ written = fileEntry key text := by
  cases path with
  | none =>
    constructor
    · intro h
      cases h
      exact ⟨none, rfl, rfl⟩
    · rintro ⟨text, htext, rfl⟩
      rw [Option.map_eq_none_iff.mp htext.symm]
      rfl
  | some path =>
    simp only [optionalPath?, Option.bind_eq_bind, Option.bind_eq_some_iff, Option.pure_def,
      Option.some.injEq, ofPath?_eq_some_iff]
    constructor
    · rintro ⟨_, ⟨text, rfl, rfl⟩, rfl⟩
      exact ⟨some text, rfl, rfl⟩
    · rintro ⟨text, htext, rfl⟩
      obtain ⟨text, rfl, rfl⟩ := Option.map_eq_some_iff.mp htext.symm
      exact ⟨_, ⟨text, rfl, rfl⟩, rfl⟩

theorem tlsTable?_eq_some_iff {c : TlsConfig} : tlsTable? c = some written ↔
    ∃ cert key : Option String, c = ⟨cert.map .ofText, key.map .ofText⟩ ∧
      written = fileEntry "cert_file" cert ++ fileEntry "key_file" key := by
  obtain ⟨certFile, keyFile⟩ := c
  simp only [tlsTable?, Option.bind_eq_bind, Option.bind_eq_some_iff, Option.pure_def,
    Option.some.injEq, optionalPath?_eq_some_iff]
  constructor
  · rintro ⟨_, ⟨cert, rfl, rfl⟩, _, ⟨key, rfl, rfl⟩, rfl⟩
    exact ⟨cert, key, rfl, rfl⟩
  · rintro ⟨cert, key, heq, rfl⟩
    cases heq
    exact ⟨_, ⟨cert, rfl, rfl⟩, _, ⟨key, rfl, rfl⟩, rfl⟩

theorem toTable?_eq_some_iff : c.toTable? = some written ↔
    ∃ tls, tlsTable? c.server.tls = some tls ∧ ∃ dataDir, ofPath? c.ledger.dataDir = some dataDir ∧
      written = c.rootTable tls dataDir := by
  simp only [toTable?, Option.bind_eq_bind, Option.bind_eq_some_iff, Option.pure_def,
    Option.some.injEq, @eq_comm _ written]

/-- Two parts that are written, and the whole. -/
theorem isSome_both_iff {α β γ : Type} {x : Option α} {y : Option β} {f : α → β → γ} :
    (do return f (← x) (← y) : Option γ).isSome ↔ x.isSome ∧ y.isSome := by
  cases x <;> cases y <;> simp

/-- **What is written has paths that are texts.** -/
theorem isSome_toTable?_iff : c.toTable?.isSome ↔ c.Textual := by
  have hentry : ∀ (key : String) (path : Option Path),
      (optionalPath? key path).isSome ↔ ∀ p ∈ path.toList, p.text?.isSome := by
    intro key path
    cases path with
    | none => exact iff_of_true rfl nofun
    | some path =>
      rw [Option.toList_some, List.forall_mem_singleton]
      show (path.text?.map TomlValue.string >>= fun v => some [(key, v)]).isSome ↔ _
      cases path.text? <;> simp
  rw [toTable?, isSome_both_iff, tlsTable?, isSome_both_iff, hentry, hentry, ofPath?,
    Option.isSome_map, Textual, paths, List.forall_mem_cons, List.forall_mem_append, and_comm]

/-! ### Sections -/

/-- Whether a value has something at a path. -/
def has (v : TomlValue) (path : List String) : Bool := (v.at? path).isSome

/-- At some paths, a value has nothing but what another one has there. -/
def Agrees (paths : List (List String)) (v written : TomlValue) : Prop :=
  ∀ path ∈ paths, ∀ x, v.at? path = some x → written.at? path = some x

variable {origin : TomlOrigin} {entries : TomlTable} {position : Nat} {key : String}

/-- A section is read when it can be read wherever it is there. -/
theorem keyOr_section {α : Type} {read : TomlValue → Option α} {default : α}
    (f : (List String → Bool) → α) (hnone : f (fun _ => false) = default)
    (hread : ∀ v, TomlTable.lookup? entries key = some v → read v = some (f (has v))) :
    keyOr (.table origin entries) position key read default
      = some (f fun path => has (.table origin entries) (key :: path)) := by
  rw [keyOr, sectionKey?]
  cases hv : TomlTable.lookup? entries key with
  | none => simp [has, TomlValue.at?, hv, hnone]
  | some v =>
    simp only [has, TomlValue.at?, hv, Option.bind_some]
    exact hread v hv

/-- A setting is read when its written value can be read. -/
theorem keyOr_setting {α : Type} {paths : List (List String)} {read : TomlValue → Option α}
    {default a : α} (h : Agrees paths (.table origin entries) (.table .header written))
    (hkey : [key] ∈ paths) (hread : ∀ v, TomlTable.lookup? written key = some v → read v = some a) :
    keyOr (.table origin entries) position key read default
      = some (if has (.table origin entries) [key] then a else default) := by
  refine keyOr_section (fun kept => if kept [] then a else default) rfl fun v hv => ?_
  have hsame : TomlTable.lookup? written key = some v := by
    simpa [TomlValue.at?] using h [key] hkey v (by simp [TomlValue.at?, hv])
  rw [hread v hsame]
  rfl

/-- A setting that is always written is read. -/
theorem keyOr_written {α : Type} {paths : List (List String)} {read : TomlValue → Option α}
    {default a : α} (h : Agrees paths (.table origin entries) (.table .header written))
    (key : String) (hkey : [key] ∈ paths) {w : TomlValue}
    (hw : TomlTable.lookup? written key = some w) (hread : read w = some a) :
    keyOr (.table origin entries) position key read default
      = some (if has (.table origin entries) [key] then a else default) :=
  keyOr_setting h hkey fun _ hv => Option.some.inj (hw.symm.trans hv) ▸ hread

/-- What is kept below a key of a table. -/
theorem Agrees.below {paths paths' : List (List String)} {v w : TomlValue}
    (h : Agrees paths (.table origin entries) (.table .header written))
    (hpaths : ∀ path ∈ paths', key :: path ∈ paths) (hv : TomlTable.lookup? entries key = some v)
    (hw : TomlTable.lookup? written key = some w) : Agrees paths' v w := by
  intro path hpath x hx
  have hsame := h (key :: path) (hpaths path hpath) x
  simp only [TomlValue.at?, hv, hw, Option.bind_some] at hsame
  exact hsame hx

theorem count?_natCast (n : Nat) : count? (.integer n) = some n := by
  rw [count?, if_pos (Int.natCast_nonneg n), Int.toNat_natCast]

theorem logFormat?_name (format : LogFormat) : logFormat? (.string format.name) = some format := by
  cases format <;> rfl

theorem tls?_keeping {c : TlsConfig} (hw : tlsTable? c = some written)
    (h : Agrees [["cert_file"], ["key_file"]] (.table origin entries) (.table .header written)) :
    tls? (.table origin entries) = some (c.keeping (has (.table origin entries))) := by
  obtain ⟨cert, key, rfl, rfl⟩ := tlsTable?_eq_some_iff.mp hw
  have hcert : ∀ v, TomlTable.lookup? (fileEntry "cert_file" cert ++ fileEntry "key_file" key)
      "cert_file" = some v → (path? v).map some = some (cert.map .ofText) := by
    intro v hv
    cases cert <;> cases key <;> cases hv <;> rfl
  have hkey : ∀ v, TomlTable.lookup? (fileEntry "cert_file" cert ++ fileEntry "key_file" key)
      "key_file" = some v → (path? v).map some = some (key.map .ofText) := by
    intro v hv
    cases cert <;> cases key <;> cases hv <;> rfl
  rw [tls?, keyOr_setting h (by decide) hcert, keyOr_setting h (by decide) hkey]
  rfl

theorem text?_string (text : String) : text? (.string text) = some text := rfl

theorem ledger?_keeping {c : LedgerConfig} {dataDir : TomlValue}
    (hw : ofPath? c.dataDir = some dataDir)
    (h : Agrees [["data_dir"]] (.table origin entries) (.table .header (ledgerTable dataDir))) :
    ledger? (.table origin entries) = some (c.keeping (has (.table origin entries))) := by
  obtain ⟨text, hdir, rfl⟩ := ofPath?_eq_some_iff.mp hw
  have hread : path? (.string text) = some c.dataDir := by
    rw [hdir]
    rfl
  rw [ledger?, keyOr_written h "data_dir" (by decide) rfl hread]
  rfl

theorem logging?_keeping {c : LoggingConfig} (h : Agrees [["level"], ["format"]]
    (.table origin entries) (.table .header (loggingTable c))) :
    logging? (.table origin entries) = some (c.keeping (has (.table origin entries))) := by
  rw [logging?, keyOr_written h "level" (by decide) rfl (text?_string _),
    keyOr_written h "format" (by decide) rfl (logFormat?_name c.format)]
  rfl

theorem ordering?_keeping {c : OrderingConfig} (h : Agrees [["max_batch_size"],
      ["batch_timeout_ms"], ["hash_algorithm"], ["mailbox_capacity"], ["subscriber_buffer"]]
    (.table origin entries) (.table .header (orderingTable c))) :
    ordering? (.table origin entries) = some (c.keeping (has (.table origin entries))) := by
  rw [ordering?, keyOr_written h "max_batch_size" (by decide) rfl (count?_natCast _),
    keyOr_written h "batch_timeout_ms" (by decide) rfl (count?_natCast _),
    keyOr_written h "hash_algorithm" (by decide) rfl (text?_string _),
    keyOr_written h "mailbox_capacity" (by decide) rfl (count?_natCast _),
    keyOr_written h "subscriber_buffer" (by decide) rfl (count?_natCast _)]
  rfl

theorem server?_keeping {c : ServerConfig} {tls : TomlTable} (hw : tlsTable? c.tls = some tls)
    (h : Agrees [["listen_address"], ["conn_timeout_secs"],
      ["max_recv_message_size"], ["max_send_message_size"], ["tls", "cert_file"],
      ["tls", "key_file"]]
    (.table origin entries) (.table .header (serverTable c tls)))
    (htable : ∀ v, TomlTable.lookup? entries "tls" = some v → ∃ origin entries,
      v = .table origin entries) :
    server? (.table origin entries) = some (c.keeping (has (.table origin entries))) := by
  have htls : ∀ v, TomlTable.lookup? entries "tls" = some v →
      tls? v = some (c.tls.keeping (has v)) := by
    intro v hv
    obtain ⟨origin, sub, rfl⟩ := htable v hv
    exact tls?_keeping hw (h.below (by decide) hv rfl)
  rw [server?, keyOr_written h "listen_address" (by decide) rfl (text?_string _),
    keyOr_written h "conn_timeout_secs" (by decide) rfl (count?_natCast _),
    keyOr_written h "max_recv_message_size" (by decide) rfl (count?_natCast _),
    keyOr_written h "max_send_message_size" (by decide) rfl (count?_natCast _),
    keyOr_section c.tls.keeping (show _ = ({} : ServerConfig).tls from rfl) htls]
  rfl

/-! ### Documents -/

/-- **What is kept is read, and everything else takes its default.** -/
theorem Keeps.ofTable?_eq (hw : c.toTable? = some written) (h : Keeps written t) :
    ofTable? t = some (c.keeping (has (.table .header t))) := by
  obtain ⟨tls, htls, dataDir, hdir, rfl⟩ := toTable?_eq_some_iff.mp hw
  have hagrees : Agrees settings (.table .header t) (.table .header (c.rootTable tls dataDir)) :=
    h.values
  have htable : ∀ name, [name] ∈ sections → ∀ v, TomlTable.lookup? t name = some v →
      ∃ origin entries, v = .table origin entries := fun name hname v hv =>
    h.tables [name] hname v (by simp [found?, TomlValue.at?, hv])
  have hserver : ∀ v, TomlTable.lookup? t "server" = some v →
      server? v = some (c.server.keeping (has v)) := by
    intro v hv
    obtain ⟨origin, entries, rfl⟩ := htable "server" (by decide) v hv
    refine server?_keeping htls (hagrees.below (by decide) hv rfl) fun v' hv' => ?_
    exact h.tables ["server", "tls"] (by decide) v' (by simp [found?, TomlValue.at?, hv, hv'])
  have hledger : ∀ v, TomlTable.lookup? t "ledger" = some v →
      ledger? v = some (c.ledger.keeping (has v)) := by
    intro v hv
    obtain ⟨origin, entries, rfl⟩ := htable "ledger" (by decide) v hv
    exact ledger?_keeping hdir (hagrees.below (by decide) hv rfl)
  have hordering : ∀ v, TomlTable.lookup? t "ordering" = some v →
      ordering? v = some (c.ordering.keeping (has v)) := by
    intro v hv
    obtain ⟨origin, entries, rfl⟩ := htable "ordering" (by decide) v hv
    exact ordering?_keeping (hagrees.below (by decide) hv rfl)
  have hlogging : ∀ v, TomlTable.lookup? t "logging" = some v →
      logging? v = some (c.logging.keeping (has v)) := by
    intro v hv
    obtain ⟨origin, entries, rfl⟩ := htable "logging" (by decide) v hv
    exact logging?_keeping (hagrees.below (by decide) hv rfl)
  rw [ofTable?, keyOr_section c.server.keeping (show _ = ({} : Config).server from rfl) hserver,
    keyOr_section c.ledger.keeping (show _ = ({} : Config).ledger from rfl) hledger,
    keyOr_section c.ordering.keeping (show _ = ({} : Config).ordering from rfl) hordering,
    keyOr_section c.logging.keeping (show _ = ({} : Config).logging from rfl) hlogging]
  rfl

/-- A table without sub-tables. -/
theorem writable_of_onLine {room : Nat} (hnodup : (t.map (·.1)).Nodup)
    (h : ∀ entry ∈ t, Bare entry.1 ∧ OnLine entry.2) : Writable (room + 1) t :=
  ⟨t, [], by simp, hnodup, h, nofun⟩

theorem onLine_natCast {n : Nat} (hn : n ≤ 2 ^ 63 - 1) : OnLine (.integer n) :=
  .integer (by omega) (by omega)

theorem writable_tlsTable {c : TlsConfig} (h : tlsTable? c = some written) (room : Nat) :
    Writable (room + 1) written := by
  have hcert : Bare "cert_file" := by decide
  have hkey : Bare "key_file" := by decide
  obtain ⟨cert, key, -, rfl⟩ := tlsTable?_eq_some_iff.mp h
  refine writable_of_onLine ?_ ?_
  · cases cert <;> cases key <;> simp [fileEntry]
  · cases cert <;> cases key <;> simp [fileEntry, hcert, hkey, OnLine.string]

theorem savable_toTable? (hfits : c.Fits) (hw : c.toTable? = some written) : Savable written := by
  obtain ⟨tls, htls, _, hdir, rfl⟩ := toTable?_eq_some_iff.mp hw
  obtain ⟨dir, -, rfl⟩ := ofPath?_eq_some_iff.mp hdir
  simp only [Fits, counts, List.forall_mem_cons] at hfits
  obtain ⟨hconn, hrecv, hsend, hsize, htimeout, hmailbox, hbuffer, -⟩ := hfits
  have hserver : Writable 79 (serverTable c.server tls) := by
    refine ⟨[_, _, _, _], [_], rfl, by simp [serverTable], ?_, ?_⟩
    · simp only [List.forall_mem_cons]
      exact ⟨⟨by decide, .string _⟩, ⟨by decide, onLine_natCast hconn⟩,
        ⟨by decide, onLine_natCast hrecv⟩, ⟨by decide, onLine_natCast hsend⟩, nofun⟩
    · simp only [List.forall_mem_cons]
      exact ⟨⟨by decide, _, rfl, writable_tlsTable htls 77⟩, nofun⟩
  have hledger : Writable 79 (ledgerTable (.string dir)) := by
    refine writable_of_onLine (by simp [ledgerTable]) ?_
    simp only [ledgerTable, List.forall_mem_cons]
    exact ⟨⟨by decide, .string _⟩, nofun⟩
  have hordering : Writable 79 (orderingTable c.ordering) := by
    refine writable_of_onLine (by simp [orderingTable]) ?_
    simp only [orderingTable, List.forall_mem_cons]
    exact ⟨⟨by decide, onLine_natCast hsize⟩, ⟨by decide, onLine_natCast htimeout⟩,
      ⟨by decide, .string _⟩, ⟨by decide, onLine_natCast hmailbox⟩,
      ⟨by decide, onLine_natCast hbuffer⟩, nofun⟩
  have hlogging : Writable 79 (loggingTable c.logging) := by
    refine writable_of_onLine (by simp [loggingTable]) ?_
    simp only [loggingTable, List.forall_mem_cons]
    exact ⟨⟨by decide, .string _⟩, ⟨by decide, .string _⟩, nofun⟩
  refine ⟨by simp [rootTable], ?_⟩
  simp only [rootTable, List.forall_mem_cons]
  exact ⟨⟨by decide, _, rfl, hserver⟩, ⟨by decide, _, rfl, hledger⟩,
    ⟨by decide, _, rfl, hordering⟩, ⟨by decide, _, rfl, hlogging⟩, nofun⟩

theorem keeps_toTable? (hw : c.toTable? = some written) : Keeps written written where
  tables := by
    intro path hpath v hv
    obtain ⟨tls, -, dataDir, -, rfl⟩ := toTable?_eq_some_iff.mp hw
    simp only [sections, List.mem_cons, List.not_mem_nil, or_false] at hpath
    rcases hpath with rfl | rfl | rfl | rfl | rfl <;>
    · cases hv
      exact ⟨_, _, rfl⟩
  values := fun _ _ _ hv => hv

/-- A configuration of which all is kept. A file of the key pair that is not set is not written, and
not being kept is the same for it. -/
theorem keeping_eq {kept : List String → Bool} (hw : c.toTable? = some written)
    (h : ∀ path ∈ settings, (found? written path).isSome → kept path = true) :
    c.keeping kept = c := by
  obtain ⟨tls, htls, dataDir, -, rfl⟩ := toTable?_eq_some_iff.mp hw
  have hpair :
      (c.server.tls.keeping fun path => kept ("server" :: "tls" :: path)) = c.server.tls := by
    have hcert := h ["server", "tls", "cert_file"] (by decide)
    have hkey := h ["server", "tls", "key_file"] (by decide)
    obtain ⟨cert, key, heq, rfl⟩ := tlsTable?_eq_some_iff.mp htls
    rw [heq]
    cases cert with
    | none =>
      cases key with
      | none => simp [TlsConfig.keeping]
      | some => simp [TlsConfig.keeping, hkey rfl]
    | some =>
      cases key with
      | none => simp [TlsConfig.keeping, hcert rfl]
      | some => simp [TlsConfig.keeping, hcert rfl, hkey rfl]
  simp only [keeping, ServerConfig.keeping, LedgerConfig.keeping, OrderingConfig.keeping,
    LoggingConfig.keeping, hpair, h ["server", "listen_address"] (by decide) rfl,
    h ["server", "conn_timeout_secs"] (by decide) rfl,
    h ["server", "max_recv_message_size"] (by decide) rfl,
    h ["server", "max_send_message_size"] (by decide) rfl, h ["ledger", "data_dir"] (by decide) rfl,
    h ["ordering", "max_batch_size"] (by decide) rfl,
    h ["ordering", "batch_timeout_ms"] (by decide) rfl,
    h ["ordering", "hash_algorithm"] (by decide) rfl,
    h ["ordering", "mailbox_capacity"] (by decide) rfl,
    h ["ordering", "subscriber_buffer"] (by decide) rfl, h ["logging", "level"] (by decide) rfl,
    h ["logging", "format"] (by decide) rfl, if_true]

/-- **A configuration survives its document, and what a document leaves out takes its default.**

The document that is written is read as the configuration. A document of which only some settings
are left, whole sections or single keys gone and other keys there besides, is read as well: each
setting that is left is the one that was written, each other setting is the default. If all settings
are left, that is the configuration itself. Tables that could come of this are written and read as
they are, so there are such documents. -/
theorem kept_in_toml (hfits : c.Fits) (htexts : c.Textual) :
    ∃ written, c.toTable? = some written ∧
      (∃ text, c.toToml = some text ∧ ofToml text = .ok c) ∧
      ∀ t, Keeps written t →
        (∀ text, Toml.parse? text = some t →
          ofToml text = .ok (c.keeping fun path => (found? t path).isSome)) ∧
        ((∀ path ∈ settings, (found? written path).isSome → (found? t path).isSome) →
          (c.keeping fun path => (found? t path).isSome) = c) ∧
        (Savable t → ∃ text, Toml.write? t = some text ∧ Toml.parse? text = some t) := by
  obtain ⟨written, hw⟩ := Option.isSome_iff_exists.mp (isSome_toTable?_iff.mpr htexts)
  have hread : ∀ t text, Keeps written t → Toml.parse? text = some t →
      ofToml text = .ok (c.keeping fun path => (found? t path).isSome) := by
    intro t text ht hparse
    rw [ofToml, hparse, Option.bind_some, ht.ofTable?_eq hw]
    rfl
  refine ⟨written, hw, ?_, fun t ht =>
    ⟨fun text => hread t text ht, keeping_eq hw, Toml.parse?_write?⟩⟩
  obtain ⟨text, hwrite, hparse⟩ := Toml.parse?_write? (savable_toTable? hfits hw)
  refine ⟨text, ?_, ?_⟩
  · rw [toToml, hw]
    exact hwrite
  · rw [hread written text (keeps_toTable? hw) hparse, keeping_eq hw fun _ _ h => h]

/-- A document without two of its sections and with keys of its own, one of them a whole table. One
file of the key pair was set, to a path that is written with escapes. -/
theorem kept_in_toml_thinned :
    let c : Config := {
      server.listenAddress := "[::1]:9443"
      server.maxRecvMessageSize := 2 ^ 63 - 1
      server.tls.certFile := some (.ofText "a'b\"c\\d\x00")
      ordering.maxBatchSize := 7
      logging.format := .json }
    let t : TomlTable := [
      ("server", .table .header [("max_recv_message_size", .integer (2 ^ 63 - 1)),
        ("pool", .boolean true),
        ("tls", .table .header [("cert_file", .string "a'b\"c\\d\x00")])]),
      ("logging", .table .header [("colour", .integer (-1)), ("format", .string "json")]),
      ("plugins", .table .header [("level", .table .header [])])]
    c.Fits ∧ c.Textual ∧ Savable t ∧ ∃ text, Toml.write? t = some text ∧ ofToml text = .ok {
      server.maxRecvMessageSize := 2 ^ 63 - 1
      server.tls.certFile := some (.ofText "a'b\"c\\d\x00")
      logging.format := .json } := by
  intro c t
  have hfits : c.Fits := by decide
  have hwritten : c.toTable? = some (c.rootTable (fileEntry "cert_file" (some "a'b\"c\\d\x00") ++
      fileEntry "key_file" none) (.string "data")) :=
    toTable?_eq_some_iff.mpr ⟨_, tlsTable?_eq_some_iff.mpr ⟨_, _, rfl, rfl⟩, _,
      ofPath?_eq_some_iff.mpr ⟨_, rfl, rfl⟩, rfl⟩
  have htexts : c.Textual := by decide +kernel
  obtain ⟨written, hw, -, hkept⟩ := kept_in_toml hfits htexts
  have hkeeps : Keeps written t := by
    cases hwritten.symm.trans hw
    constructor
    · intro path hpath v hv
      simp only [sections, List.mem_cons, List.not_mem_nil, or_false] at hpath
      rcases hpath with rfl | rfl | rfl | rfl | rfl <;> cases hv <;> exact ⟨_, _, rfl⟩
    · intro path hpath v hv
      simp only [settings, List.mem_cons, List.not_mem_nil, or_false] at hpath
      rcases hpath with rfl | rfl | rfl | rfl | rfl | rfl | rfl | rfl | rfl | rfl | rfl | rfl |
        rfl | rfl <;> cases hv <;> rfl
  have hsavable : Savable t := by
    have htls : Writable 78 [("cert_file", .string "a'b\"c\\d\x00")] :=
      writable_of_onLine (by decide) (List.forall_mem_singleton.mpr ⟨by decide, .string _⟩)
    have hserver : Writable 79 [("max_recv_message_size", .integer (2 ^ 63 - 1)),
        ("pool", .boolean true),
        ("tls", .table .header [("cert_file", .string "a'b\"c\\d\x00")])] := by
      refine ⟨[_, _], [_], rfl, by decide, ?_,
        List.forall_mem_singleton.mpr ⟨by decide, _, rfl, htls⟩⟩
      simp only [List.forall_mem_cons]
      exact ⟨⟨by decide, .integer (by decide) (by decide)⟩, ⟨by decide, .boolean _⟩, nofun⟩
    have hlogging : Writable 79 [("colour", .integer (-1)), ("format", .string "json")] := by
      refine writable_of_onLine (by decide) ?_
      simp only [List.forall_mem_cons]
      exact ⟨⟨by decide, .integer (by decide) (by decide)⟩, ⟨by decide, .string _⟩, nofun⟩
    have hplugins : Writable 79 [("level", .table .header [])] :=
      ⟨[], [_], rfl, by decide, nofun, List.forall_mem_singleton.mpr
        ⟨by decide, _, rfl, writable_of_onLine (by decide) nofun⟩⟩
    refine ⟨by decide, ?_⟩
    simp only [t, List.forall_mem_cons]
    exact ⟨⟨by decide, _, rfl, hserver⟩, ⟨by decide, _, rfl, hlogging⟩,
      ⟨by decide, _, rfl, hplugins⟩, nofun⟩
  obtain ⟨hread, -, hwrite⟩ := hkept t hkeeps
  obtain ⟨text, hwritten, hparse⟩ := hwrite hsavable
  exact ⟨hfits, htexts, hsavable, text, hwritten, hread text hparse⟩

/-- The defaults, but for the data directory, whose path is no text. -/
def unwritable : Config := { ledger.dataDir := ⟨[0xff]⟩ }

/-- A document with no setting and one key of its own, an array in arrays. -/
def nestedDocument (depth : Nat) : String :=
  "[plugins]\nnested = " ++
    String.ofList (List.replicate depth '[' ++ List.replicate depth ']') ++ "\n"

theorem exists_toList_nestedDocument (depth : Nat) : ∃ rest, (nestedDocument depth).toList
    = "[plugins]\n".toList ++ ("nested".toList ++
        ' ' :: '=' :: ' ' :: (List.replicate depth '[' ++ rest)) := by
  have hfront : "[plugins]\nnested = ".toList
      = "[plugins]\n".toList ++ ("nested".toList ++ [' ', '=', ' ']) := by decide
  refine ⟨List.replicate depth ']' ++ "\n".toList, ?_⟩
  unfold nestedDocument
  simp only [String.toList_append, String.toList_ofList, hfront, List.append_assoc,
    List.cons_append, List.nil_append]

/-- A document is not read when a key that is no setting holds too much. -/
theorem parse?_nestedDocument {depth : Nat} (h : Toml.depthLimit ≤ depth) :
    Toml.parse? (nestedDocument depth) = none := by
  have hheader : Toml.Reads ⟨[], []⟩ "[plugins]\n".toList
      ⟨[("plugins", .table .header [])], ["plugins"]⟩ :=
    @Toml.reads_header ⟨[], []⟩ [] "plugins" _ nofun (by decide) (by decide) rfl
  obtain ⟨rest, hrest⟩ := exists_toList_nestedDocument depth
  obtain ⟨bound, -, heq⟩ := hheader _
    ("nested".toList ++ ' ' :: '=' :: ' ' :: (List.replicate depth '[' ++ rest))
    (Nat.lt_succ_self _)
  rw [Toml.parse?, hrest]
  split
  next hmark => cases hmark
  next =>
    rw [List.length_append, heq, Toml.documentLines_brackets (by decide) h]
    rfl

/-- A configuration with small numbers is not written when its ledger is at a path that is no text,
and a document is not read when a key that is no setting holds too much. -/
theorem not_kept_in_toml :
    (unwritable.Fits ∧ unwritable.toToml = none) ∧
    ofToml (nestedDocument 20) = .ok {} ∧
    ofToml (nestedDocument 130) = .error (.config "Failed to parse config") := by
  have hread : (Toml.parse? (nestedDocument 20)).bind ofTable? = some {} := by decide +kernel
  refine ⟨⟨by decide, by decide +kernel⟩, by rw [ofToml, hread], ?_⟩
  rw [ofToml, parse?_nestedDocument (by decide)]
  rfl

end Config

end OrderingService
