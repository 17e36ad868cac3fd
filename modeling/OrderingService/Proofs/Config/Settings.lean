import OrderingService.Proofs.Config.Reading
import OrderingService.Proofs.Config.Validation

/-!
# The layers below the flags

A file is read key by key: each setting is what its own key says, or the default where the key is
absent, and no key is read for two settings. What a variable says then takes the place of what was
there, again setting by setting. So both layers are functions of the settings below them, and the
only thing that can go wrong besides the file itself is a variable whose value has to be read.

Nothing is validated here. A value that the service could not run with is kept until a higher layer
takes its place or the whole configuration is checked.

## Main definitions

* `LoadedFile` — a file that was loaded, with the table of its document
* `Config.ofLoaded` — the settings of the defaults and of a file
* `Config.overridden` — settings with what the variables say
* `Config.Readable` — the variables whose values have to be read can be read
* `Config.Loads` — the file that is loaded from a path

## Main results

* `Config.eq_of_ofTable?` — the settings of a document, one by one
* `Config.applyEnvironment_eq_ok_iff` — the layer of the environment
* `Config.load_run` — what loading looks for
* `Config.lower_eq_ok_iff` — when there are settings below the flags, and which
-/

namespace OrderingService

/-- A sequence succeeds when each part does, in turn. -/
theorem bind_eq_ok_iff {ε α β : Type} {x : Except ε α} {f : α → Except ε β} {b : β} :
    (x >>= f) = .ok b ↔ ∃ a, x = .ok a ∧ f a = .ok b := by
  cases x with
  | error e => exact ⟨nofun, nofun⟩
  | ok a => exact ⟨fun h => ⟨a, rfl, h⟩, fun ⟨_, heq, h⟩ => by cases heq; exact h⟩

/-- A configuration file that was loaded, with the table of its document. -/
structure LoadedFile where
  path : Path
  table : TomlTable

namespace Config

/-! ### The layer of the file -/

/-- What a section sets a key to, if there is the section and it has the key. -/
def setting? (v : Option TomlValue) (position : Nat) (key : String) : Option TomlValue :=
  (v.bind fun v => sectionKey? v position key).join

/-- The settings of the server in a section, over the defaults. -/
def serverOf (v : Option TomlValue) : ServerConfig :=
  let defaults : ServerConfig := {}
  let tls := setting? v 4 "tls"
  { listenAddress := ((setting? v 0 "listen_address").bind text?).getD defaults.listenAddress
    connTimeoutSecs :=
      ((setting? v 1 "conn_timeout_secs").bind count?).getD defaults.connTimeoutSecs
    maxRecvMessageSize :=
      ((setting? v 2 "max_recv_message_size").bind count?).getD defaults.maxRecvMessageSize
    maxSendMessageSize :=
      ((setting? v 3 "max_send_message_size").bind count?).getD defaults.maxSendMessageSize
    tls.certFile := (setting? tls 0 "cert_file").bind path?
    tls.keyFile := (setting? tls 1 "key_file").bind path? }

/-- The settings of batching in a section, over the defaults. -/
def orderingOf (v : Option TomlValue) : OrderingConfig :=
  let defaults : OrderingConfig := {}
  { maxBatchSize := ((setting? v 0 "max_batch_size").bind count?).getD defaults.maxBatchSize
    batchTimeoutMs := ((setting? v 1 "batch_timeout_ms").bind count?).getD defaults.batchTimeoutMs
    hashAlgorithm := ((setting? v 2 "hash_algorithm").bind text?).getD defaults.hashAlgorithm
    mailboxCapacity :=
      ((setting? v 3 "mailbox_capacity").bind count?).getD defaults.mailboxCapacity
    subscriberBuffer :=
      ((setting? v 4 "subscriber_buffer").bind count?).getD defaults.subscriberBuffer }

/-- The settings of the ledger in a section, over the defaults. -/
def ledgerOf (v : Option TomlValue) : LedgerConfig :=
  let defaults : LedgerConfig := {}
  { dataDir := ((setting? v 0 "data_dir").bind path?).getD defaults.dataDir }

/-- The settings of logging in a section, over the defaults. -/
def loggingOf (v : Option TomlValue) : LoggingConfig :=
  let defaults : LoggingConfig := {}
  { level := ((setting? v 0 "level").bind text?).getD defaults.level
    format := ((setting? v 1 "format").bind logFormat?).getD defaults.format }

variable {v : TomlValue}

/-- What is read of a key is a function `f` of what the key is set to, also when it is absent. -/
theorem eq_of_keyOr {α : Type} {position : Nat} {key : String} {read : TomlValue → Option α}
    {default a : α} (f : Option TomlValue → α) (hread : ∀ x a, read x = some a → a = f (some x))
    (hnone : default = f none) (h : keyOr v position key read default = some a) :
    a = f (setting? (some v) position key) := by
  rw [keyOr] at h
  rw [setting?, Option.bind_some]
  cases hfound : sectionKey? v position key with
  | none =>
    rw [hfound] at h
    cases h
  | some found =>
    rw [hfound] at h
    cases found with
    | none =>
      cases h
      exact hnone
    | some x => exact hread x a h

/-- A key that is read on its own. -/
theorem eq_getD_of_keyOr {α : Type} {position : Nat} {key : String} {read : TomlValue → Option α}
    {default a : α} (h : keyOr v position key read default = some a) :
    a = ((setting? (some v) position key).bind read).getD default :=
  eq_of_keyOr (fun x => (x.bind read).getD default) (fun x a hx => by simp [hx]) rfl h

/-- A key that may be unset. -/
theorem eq_bind_of_keyOr {α : Type} {position : Nat} {key : String} {read : TomlValue → Option α}
    {a : Option α} (h : keyOr v position key (fun x => (read x).map some) none = some a) :
    a = (setting? (some v) position key).bind read := by
  refine eq_of_keyOr (fun x => x.bind read) (fun x a hx => ?_) rfl h
  obtain ⟨b, hb, rfl⟩ := Option.map_eq_some_iff.mp hx
  exact hb.symm

theorem eq_of_tls? {c : TlsConfig} (h : tls? v = some c) :
    c = ⟨(setting? (some v) 0 "cert_file").bind path?,
      (setting? (some v) 1 "key_file").bind path?⟩ := by
  simp only [tls?, Option.bind_eq_bind, Option.bind_eq_some_iff] at h
  obtain ⟨cert, hcert, key, hkey, heq⟩ := h
  cases heq
  rw [eq_bind_of_keyOr hcert, eq_bind_of_keyOr hkey]

theorem eq_of_server? {c : ServerConfig} (h : server? v = some c) : c = serverOf (some v) := by
  simp only [server?, Option.bind_eq_bind, Option.bind_eq_some_iff] at h
  obtain ⟨address, haddress, timeout, htimeout, recv, hrecv, send, hsend, tls, htls, heq⟩ := h
  cases heq
  have htls : tls = ⟨(setting? (setting? (some v) 4 "tls") 0 "cert_file").bind path?,
      (setting? (setting? (some v) 4 "tls") 1 "key_file").bind path?⟩ :=
    eq_of_keyOr (fun x => TlsConfig.mk ((setting? x 0 "cert_file").bind path?)
      ((setting? x 1 "key_file").bind path?)) (fun _ _ => eq_of_tls?) rfl htls
  rw [htls, serverOf, ← eq_getD_of_keyOr haddress, ← eq_getD_of_keyOr htimeout,
    ← eq_getD_of_keyOr hrecv, ← eq_getD_of_keyOr hsend]

theorem eq_of_ledger? {c : LedgerConfig} (h : ledger? v = some c) : c = ledgerOf (some v) := by
  simp only [ledger?, Option.bind_eq_bind, Option.bind_eq_some_iff] at h
  obtain ⟨dir, hdir, heq⟩ := h
  cases heq
  rw [ledgerOf, ← eq_getD_of_keyOr hdir]

theorem eq_of_ordering? {c : OrderingConfig} (h : ordering? v = some c) :
    c = orderingOf (some v) := by
  simp only [ordering?, Option.bind_eq_bind, Option.bind_eq_some_iff] at h
  obtain ⟨size, hsize, timeout, htimeout, name, hname, mailbox, hmailbox, buffer, hbuffer, heq⟩ := h
  cases heq
  rw [orderingOf, ← eq_getD_of_keyOr hsize, ← eq_getD_of_keyOr htimeout, ← eq_getD_of_keyOr hname,
    ← eq_getD_of_keyOr hmailbox, ← eq_getD_of_keyOr hbuffer]

theorem eq_of_logging? {c : LoggingConfig} (h : logging? v = some c) : c = loggingOf (some v) := by
  simp only [logging?, Option.bind_eq_bind, Option.bind_eq_some_iff] at h
  obtain ⟨level, hlevel, format, hformat, heq⟩ := h
  cases heq
  rw [loggingOf, ← eq_getD_of_keyOr hlevel, ← eq_getD_of_keyOr hformat]

/-- The settings of a document, over the defaults. -/
def ofSections (section? : String → Option TomlValue) : Config where
  server := serverOf (section? "server")
  ledger := ledgerOf (section? "ledger")
  ordering := orderingOf (section? "ordering")
  logging := loggingOf (section? "logging")

theorem eq_of_ofTable? {t : TomlTable} {c : Config} (h : ofTable? t = some c) :
    c = ofSections (TomlTable.lookup? t) := by
  simp only [ofTable?, Option.bind_eq_bind, Option.bind_eq_some_iff] at h
  obtain ⟨server, hserver, ledger, hledger, ordering, hordering, logging, hlogging, heq⟩ := h
  cases heq
  rw [eq_of_keyOr serverOf (fun _ _ => eq_of_server?) rfl hserver,
    eq_of_keyOr ledgerOf (fun _ _ => eq_of_ledger?) rfl hledger,
    eq_of_keyOr orderingOf (fun _ _ => eq_of_ordering?) rfl hordering,
    eq_of_keyOr loggingOf (fun _ _ => eq_of_logging?) rfl hlogging]
  rfl

/-- A path as it is taken from the file's directory, if a file was loaded. -/
def fromDirectory (loaded : Option LoadedFile) (path : Path) : Path :=
  match loaded with
  | some file => Path.resolve (directoryOf file.path) path
  | none => path

/-- The settings of the defaults and of the file, if one was loaded. -/
def ofLoaded : Option LoadedFile → Config
  | some file => (ofSections (TomlTable.lookup? file.table)).resolvePaths (directoryOf file.path)
  | none => {}

section

variable {σ : Type}

/-- The file that is loaded from a path, if there is a path: it can be read, its document is one,
and each known key in it has its type. -/
inductive Loads (host : Host (StateM σ)) (w : σ) : Option Path → Option LoadedFile → Prop
  | nothing : Loads host w none none
  | file {path : Path} {text : String} {content : Bytes} {table : TomlTable} {c : Config}
      (read : host.content w path = .ok content) (decoded : Bytes.toText? content = some text)
      (parsed : Toml.parse? text = some table) (typed : ofTable? table = some c) :
    Loads host w (some path) (some ⟨path, table⟩)

/-- The settings of the file at a path, if there is a path. -/
def lowest (host : Host (StateM σ)) (w : σ) : Option Path → Except ServiceError Config
  | some path =>
    match host.content w path with
    | .ok content => ofContent path content
    | .error e => .error (.system e.message)
  | none => .ok {}

end

variable {σ : Type} {host : Host (StateM σ)} {w : σ} {env : Environment} {c c' : Config}

theorem ofContent_eq_ok_iff {path : Path} {content : Bytes} :
    ofContent path content = .ok c ↔ ∃ text table c', Bytes.toText? content = some text ∧
      Toml.parse? text = some table ∧ ofTable? table = some c' ∧
      c'.resolvePaths (directoryOf path) = c := by
  rw [ofContent]
  cases htext : Bytes.toText? content with
  | none => exact ⟨nofun, nofun⟩
  | some text =>
    cases htable : Toml.parse? text with
    | none => simp [ofToml, htable, bind, Except.bind]
    | some table =>
      cases hc : ofTable? table with
      | none => simp [ofToml, htable, hc, bind, Except.bind]
      | some c' => simp [ofToml, htable, hc, bind, Except.bind, pure, Except.pure]

theorem lowest_eq_ok_iff {path : Option Path} :
    lowest host w path = .ok c ↔ ∃ loaded, Loads host w path loaded ∧ c = ofLoaded loaded := by
  cases path with
  | none =>
    constructor
    · intro h
      cases h
      exact ⟨none, .nothing, rfl⟩
    · rintro ⟨loaded, hloads, rfl⟩
      cases hloads
      rfl
  | some path =>
    rw [lowest]
    constructor
    · intro h
      cases hread : host.content w path with
      | error e =>
        rw [hread] at h
        cases h
      | ok content =>
        rw [hread] at h
        obtain ⟨text, table, c', hdecoded, hparsed, htyped, rfl⟩ := ofContent_eq_ok_iff.mp h
        refine ⟨some ⟨path, table⟩, .file hread hdecoded hparsed htyped, ?_⟩
        rw [eq_of_ofTable? htyped, ofLoaded]
    · rintro ⟨loaded, hloads, rfl⟩
      cases hloads with
      | file hread hdecoded hparsed htyped =>
        rw [hread]
        refine ofContent_eq_ok_iff.mpr ⟨_, _, _, hdecoded, hparsed, htyped, ?_⟩
        rw [eq_of_ofTable? htyped, ofLoaded]

/-! ### The layer of the environment -/

/-- The variables whose values have to be read can be read, as far as they are set. -/
structure Readable (env : Environment) : Prop where
  maxBatchSize : ∀ value, env "ORDERER_MAX_BATCH_SIZE" = some value →
    ∃ n, wordOfText? value = some n
  batchTimeoutMs : ∀ value, env "ORDERER_BATCH_TIMEOUT_MS" = some value →
    ∃ n, wordOfText? value = some n
  logFormat : ∀ value, env "ORDERER_LOG_FORMAT" = some value →
    ∃ format, (LogFormat.ofName value).toOption = some format

/-- A configuration with what the variables say. -/
def overridden (env : Environment) (c : Config) : Config where
  server := { c.server with
    listenAddress := (env "ORDERER_LISTEN_ADDRESS").getD c.server.listenAddress
    tls.certFile := ((env "ORDERER_TLS_CERT_FILE").map Path.ofText).or c.server.tls.certFile
    tls.keyFile := ((env "ORDERER_TLS_KEY_FILE").map Path.ofText).or c.server.tls.keyFile }
  ledger.dataDir := ((env "ORDERER_DATA_DIR").map Path.ofText).getD c.ledger.dataDir
  ordering := { c.ordering with
    maxBatchSize :=
      ((env "ORDERER_MAX_BATCH_SIZE").bind wordOfText?).getD c.ordering.maxBatchSize
    batchTimeoutMs :=
      ((env "ORDERER_BATCH_TIMEOUT_MS").bind wordOfText?).getD c.ordering.batchTimeoutMs
    hashAlgorithm := (env "ORDERER_HASH_ALGORITHM").getD c.ordering.hashAlgorithm }
  logging.level := (env "ORDERER_LOG_LEVEL").getD c.logging.level
  logging.format :=
    ((env "ORDERER_LOG_FORMAT").bind (LogFormat.ofName · |>.toOption)).getD c.logging.format

/-- One override before the rest: its variable is not set, or its value can be read and is set. -/
theorem applyOverrides_cons_iff {α : Type} {o : Override} {rest : List Override}
    (read? : String → Option α) (update : Option α → Config → Config)
    (hnone : ∀ c, update none c = c) (hset : ∀ value c c',
      o.set value c = .ok c' ↔ ∃ a, read? value = some a ∧ update (some a) c = c') :
    applyOverrides env (o :: rest) c = (c', .ok ()) ↔
      (∀ value, env o.name = some value → ∃ a, read? value = some a) ∧
      applyOverrides env rest (update ((env o.name).bind read?) c) = (c', .ok ()) := by
  rw [applyOverrides]
  cases hvalue : env o.name with
  | none => simp [hnone]
  | some value =>
    dsimp only
    cases hresult : o.set value c with
    | error e =>
      refine ⟨fun h => (by cases h), fun h => ?_⟩
      obtain ⟨a, ha⟩ := h.1 value rfl
      cases hresult.symm.trans ((hset value c _).mpr ⟨a, ha, rfl⟩)
    | ok next =>
      obtain ⟨a, ha, hupdate⟩ := (hset value c next).mp hresult
      simp [ha, hupdate]

/-- A variable whose value is taken as it is. -/
theorem applyOverrides_text_iff {name : String} {set : String → Config → Config}
    {rest : List Override} (update : Option String → Config → Config)
    (hnone : ∀ c, update none c = c) (hset : ∀ value c, update (some value) c = set value c) :
    applyOverrides env (.text name set :: rest) c = (c', .ok ()) ↔
      applyOverrides env rest (update (env name) c) = (c', .ok ()) := by
  rw [applyOverrides_cons_iff some update hnone]
  · simp [Override.text]
  · intro value c c'
    simp [Override.text, hset]

/-- A variable whose value has to be a number. -/
theorem applyOverrides_number_iff {name : String} {set : Nat → Config → Config}
    {rest : List Override} (update : Option Nat → Config → Config)
    (hnone : ∀ c, update none c = c) (hset : ∀ n c, update (some n) c = set n c) :
    applyOverrides env (.number name set :: rest) c = (c', .ok ()) ↔
      (∀ value, env name = some value → ∃ n, wordOfText? value = some n) ∧
      applyOverrides env rest (update ((env name).bind wordOfText?) c) = (c', .ok ()) := by
  refine applyOverrides_cons_iff wordOfText? update hnone fun value c c' => ?_
  rw [Override.number]
  cases hn : wordOfText? value <;> simp [hn, hset]

/-- **The layer of the environment** stands over what was there before. -/
theorem applyEnvironment_eq_ok_iff :
    c.applyEnvironment env = (c', .ok ()) ↔ Readable env ∧ c' = c.overridden env := by
  have hformat : ∀ value (c c' : Config), (do
      return { c with logging.format := ← LogFormat.ofName value } : Except ServiceError Config)
        = .ok c' ↔ ∃ format, (LogFormat.ofName value).toOption = some format ∧
          { c with logging.format := (some format).getD c.logging.format } = c' := by
    intro value c c'
    cases LogFormat.ofName value with
    | error e => exact ⟨nofun, nofun⟩
    | ok format => simp [Except.toOption, bind, Except.bind, pure, Except.pure]
  have hreadable : Readable env ∧ c' = c.overridden env ↔
      (∀ value, env "ORDERER_MAX_BATCH_SIZE" = some value → ∃ n, wordOfText? value = some n) ∧
      (∀ value, env "ORDERER_BATCH_TIMEOUT_MS" = some value → ∃ n, wordOfText? value = some n) ∧
      (∀ value, env "ORDERER_LOG_FORMAT" = some value →
        ∃ format, (LogFormat.ofName value).toOption = some format) ∧ c' = c.overridden env :=
    ⟨fun ⟨⟨hsize, htimeout, hformat⟩, heq⟩ => ⟨hsize, htimeout, hformat, heq⟩,
      fun ⟨hsize, htimeout, hformat, heq⟩ => ⟨⟨hsize, htimeout, hformat⟩, heq⟩⟩
  rw [hreadable, applyEnvironment, overrides]
  refine (applyOverrides_text_iff (fun x c => { c with
    server.listenAddress := x.getD c.server.listenAddress }) (fun _ => rfl) fun _ _ => rfl).trans ?_
  refine (applyOverrides_text_iff (fun x c => { c with
    server.tls.certFile := (x.map Path.ofText).or c.server.tls.certFile }) (fun _ => rfl)
    fun _ _ => rfl).trans ?_
  refine (applyOverrides_text_iff (fun x c => { c with
    server.tls.keyFile := (x.map Path.ofText).or c.server.tls.keyFile }) (fun _ => rfl)
    fun _ _ => rfl).trans ?_
  refine (applyOverrides_text_iff (fun x c => { c with
    ledger.dataDir := (x.map Path.ofText).getD c.ledger.dataDir }) (fun _ => rfl)
    fun _ _ => rfl).trans ?_
  refine (applyOverrides_number_iff (fun x c => { c with
    ordering.maxBatchSize := x.getD c.ordering.maxBatchSize }) (fun _ => rfl)
    fun _ _ => rfl).trans (and_congr_right fun _ => ?_)
  refine (applyOverrides_number_iff (fun x c => { c with
    ordering.batchTimeoutMs := x.getD c.ordering.batchTimeoutMs }) (fun _ => rfl)
    fun _ _ => rfl).trans (and_congr_right fun _ => ?_)
  refine (applyOverrides_text_iff (fun x c => { c with
    ordering.hashAlgorithm := x.getD c.ordering.hashAlgorithm }) (fun _ => rfl)
    fun _ _ => rfl).trans ?_
  refine (applyOverrides_text_iff (fun x c => { c with
    logging.level := x.getD c.logging.level }) (fun _ => rfl) fun _ _ => rfl).trans ?_
  refine (applyOverrides_cons_iff (LogFormat.ofName · |>.toOption) (fun x c => { c with
    logging.format := x.getD c.logging.format }) (fun _ => rfl) hformat).trans
    (and_congr_right fun _ => ?_)
  rw [applyOverrides, Prod.mk.injEq, and_iff_left rfl]
  exact eq_comm

/-! ### Loading -/

theorem firstFile?_run (hr : host.Reads) (paths : List Path) :
    (firstFile? host paths).run w = (paths.find? (host.finds w), w) := by
  induction paths with
  | nil => rfl
  | cons path rest ih =>
    rw [firstFile?, StateT.run_bind, hr.run_isFile, List.find?_cons]
    show (if host.finds w path then (pure (some path) : StateM σ (Option Path))
      else firstFile? host rest).run w = _
    cases host.finds w path with
    | true => rfl
    | false => exact ih

theorem ofFile_run (hr : host.Reads) (path : Path) :
    (ofFile host path).run w = (lowest host w (some path), w) := by
  rw [ofFile, StateT.run_bind, hr.run_readFile, lowest]
  cases host.content w path with
  | ok content => rfl
  | error e => rfl

/-- The layers below the flags, with the file at a path. -/
def lower (host : Host (StateM σ)) (w : σ) (env : Environment) (path : Option Path) :
    Except ServiceError (Config × Option Path) := do
  let (config, result) := (← lowest host w path).applyEnvironment env
  result
  return (config, path)

theorem lower_eq_ok_iff {file path : Option Path} : lower host w env file = .ok (c, path) ↔
    path = file ∧ ∃ loaded, Loads host w path loaded ∧ Readable env ∧
      c = (ofLoaded loaded).overridden env := by
  rw [lower, bind_eq_ok_iff]
  constructor
  · rintro ⟨c', hlowest, h⟩
    obtain ⟨loaded, hloads, rfl⟩ := lowest_eq_ok_iff.mp hlowest
    obtain ⟨_, hresult, heq⟩ := bind_eq_ok_iff.mp h
    cases heq
    obtain ⟨hreadable, heq⟩ := applyEnvironment_eq_ok_iff.mp (Prod.ext rfl hresult)
    exact ⟨rfl, loaded, hloads, hreadable, heq⟩
  · rintro ⟨rfl, loaded, hloads, hreadable, rfl⟩
    refine ⟨_, lowest_eq_ok_iff.mpr ⟨loaded, hloads, rfl⟩, ?_⟩
    rw [applyEnvironment_eq_ok_iff.mpr ⟨hreadable, rfl⟩]
    rfl

/-- What loading looks for: the file asked for, or else the first that is found. -/
theorem load_run (hr : host.Reads) (explicit : Option Path) : (load host env explicit).run w
    = (lower host w env (explicit.or ((searchPaths host.user).find? (host.finds w))), w) := by
  cases explicit with
  | some path =>
    simp only [load, StateT.run_bind, pure_bind, ofFile_run hr]
    rfl
  | none =>
    simp only [load, StateT.run_bind, firstFile?_run hr, Option.none_or]
    cases (searchPaths host.user).find? (host.finds w) with
    | none => rfl
    | some path =>
      show StateT.run (ofFile host path >>= _) w = _
      rw [StateT.run_bind, ofFile_run hr]
      rfl

end Config

end OrderingService
