import Mathlib.Control.Monad.Basic
import OrderingService.Proofs.Config.Settings

/-!
# The layers of the configuration

Settings come from the flags, the environment, a file and the defaults, and each setting has what
the highest of these layers says of it. Which layer that is for one setting has no bearing on
another: a certificate may come from a flag while its key comes from the file. Not every layer
speaks of every setting; the flags know nothing of batching, and only the file and the defaults say
how many subscribers may wait.

Paths are taken from the file's directory when they are read from the file, so before the higher
layers take their places. What a variable or a flag says is kept as it is written; a flag may name a
path that is no text. The default data directory is a path of the file as well once a file is
loaded.

Nothing is assumed of where the directories of the user are, if there are any. They are part of the
host, like everything else that the system says.

The whole is validated once, at the end. However wrong a value is on its own, it does no harm when
a higher layer says something else. Only what cannot be read is an error where it stands: a document
that does not parse, a key of the wrong type, a variable that has to be a number or a format and is
neither.

## Main definitions

* `highest` — what the highest layer says
* `CommandLine.layered` — the configuration of all layers, setting by setting

## Main results

* `CommandLine.layered_eq` — the layers are what applying one after the other comes to
* `CommandLine.load_eq_ok_iff` — loading gives this configuration, and when it does
-/

namespace OrderingService

/-- What the highest of some layers says that says something. -/
def highest {α : Type} (layers : List (Option α)) : Option α := layers.foldr Option.or none

namespace CommandLine

open Config (Loads Readable fromDirectory setting? text? path? count? logFormat? wordOfText?)

variable {σ : Type} {host : Host (StateM σ)} {w w' : σ} {l : CommandLine} {env : Environment}
  {c : Config} {path : Option Path}

/-- **The configuration of all layers,** each setting on its own. -/
def layered (l : CommandLine) (env : Environment) (loaded : Option LoadedFile) : Config :=
  let defaults : Config := {}
  let section? := fun name => loaded.bind fun file => TomlTable.lookup? file.table name
  let server := section? "server"
  let tls := setting? server 4 "tls"
  let ledger := section? "ledger"
  let ordering := section? "ordering"
  let logging := section? "logging"
  { server.listenAddress :=
      (highest [l.listenAddress, env "ORDERER_LISTEN_ADDRESS",
        (setting? server 0 "listen_address").bind text?]).getD defaults.server.listenAddress
    server.connTimeoutSecs :=
      ((setting? server 1 "conn_timeout_secs").bind count?).getD defaults.server.connTimeoutSecs
    server.maxRecvMessageSize :=
      ((setting? server 2 "max_recv_message_size").bind count?).getD
        defaults.server.maxRecvMessageSize
    server.maxSendMessageSize :=
      ((setting? server 3 "max_send_message_size").bind count?).getD
        defaults.server.maxSendMessageSize
    server.tls.certFile :=
      highest [l.tlsCertFile, (env "ORDERER_TLS_CERT_FILE").map Path.ofText,
        ((setting? tls 0 "cert_file").bind path?).map (fromDirectory loaded)]
    server.tls.keyFile :=
      highest [l.tlsPrivateKeyFile, (env "ORDERER_TLS_KEY_FILE").map Path.ofText,
        ((setting? tls 1 "key_file").bind path?).map (fromDirectory loaded)]
    ledger.dataDir :=
      (highest [l.dataDir, (env "ORDERER_DATA_DIR").map Path.ofText,
        ((setting? ledger 0 "data_dir").bind path?).map (fromDirectory loaded)]).getD
          (fromDirectory loaded defaults.ledger.dataDir)
    ordering.maxBatchSize :=
      (highest [(env "ORDERER_MAX_BATCH_SIZE").bind wordOfText?,
        (setting? ordering 0 "max_batch_size").bind count?]).getD defaults.ordering.maxBatchSize
    ordering.batchTimeoutMs :=
      (highest [(env "ORDERER_BATCH_TIMEOUT_MS").bind wordOfText?,
        (setting? ordering 1 "batch_timeout_ms").bind count?]).getD
          defaults.ordering.batchTimeoutMs
    ordering.hashAlgorithm :=
      (highest [env "ORDERER_HASH_ALGORITHM",
        (setting? ordering 2 "hash_algorithm").bind text?]).getD defaults.ordering.hashAlgorithm
    ordering.mailboxCapacity :=
      ((setting? ordering 3 "mailbox_capacity").bind count?).getD defaults.ordering.mailboxCapacity
    ordering.subscriberBuffer :=
      ((setting? ordering 4 "subscriber_buffer").bind count?).getD
        defaults.ordering.subscriberBuffer
    logging.level :=
      (highest [l.logLevel, env "ORDERER_LOG_LEVEL",
        (setting? logging 0 "level").bind text?]).getD defaults.logging.level
    logging.format :=
      (highest [l.logFormat,
        (env "ORDERER_LOG_FORMAT").bind (LogFormat.ofName · |>.toOption),
        (setting? logging 1 "format").bind logFormat?]).getD defaults.logging.format }

theorem layered_eq (l : CommandLine) (env : Environment) (loaded : Option LoadedFile) :
    l.layered env loaded = l.apply ((Config.ofLoaded loaded).overridden env) := by
  cases loaded with
  | none =>
    simp only [layered, highest, List.foldr, Option.or_none, Option.getD_or]
    rfl
  | some file =>
    simp only [layered, highest, List.foldr, Option.or_none, Option.getD_or, Option.getD_map]
    rfl

/-- **Loading gives the configuration of all layers.** The file is the one asked for, or else the
first of those looked for. There is a configuration exactly when the file and the variables can be
read and the configuration of all layers is valid; the layers need not be valid on their own. -/
theorem load_eq_ok_iff (hr : host.Reads) :
    (l.load host env).run w = (.ok (c, path), w') ↔
      w' = w ∧
      path = l.config.or ((Config.searchPaths host.user).find? (host.finds w)) ∧
      ∃ loaded, Loads host w path loaded ∧ Readable env ∧ c = l.layered env loaded ∧ c.Valid := by
  rw [load, StateT.run_bind, Config.load_run hr]
  generalize l.config.or ((Config.searchPaths host.user).find? (host.finds w)) = file
  show ((Config.lower host w env file >>= fun low => do
      (l.apply low.1).validate
      return (l.apply low.1, low.2)), w) = (Except.ok (c, path), w') ↔ _
  rw [Prod.mk.injEq, and_comm, eq_comm, bind_eq_ok_iff]
  refine and_congr_right fun _ => ?_
  constructor
  · rintro ⟨⟨low, path'⟩, hlow, h⟩
    obtain ⟨rfl, loaded, hloads, hreadable, rfl⟩ := Config.lower_eq_ok_iff.mp hlow
    obtain ⟨_, hvalidate, heq⟩ := bind_eq_ok_iff.mp h
    cases heq
    exact ⟨rfl, loaded, hloads, hreadable, (layered_eq l env loaded).symm,
      Config.validate_eq_ok_iff.mp hvalidate⟩
  · rintro ⟨rfl, loaded, hloads, hreadable, rfl, hvalid⟩
    refine ⟨_, Config.lower_eq_ok_iff.mpr ⟨rfl, loaded, hloads, hreadable, rfl⟩, ?_⟩
    rw [layered_eq] at hvalid ⊢
    show ((l.apply _).validate >>= _) = _
    rw [Config.validate_eq_ok_iff.mpr hvalid]
    rfl

/-- A file whose listen address, certificate, batch size and hash algorithm are all wrong on their
own. -/
def mistakenFile : String :=
  "[server]\nlisten_address = \"nowhere\"\ntls.cert_file = \"server.pem\"\n" ++
    "[ordering]\nmax_batch_size = 0\nhash_algorithm = \"none\"\n"

/-- Variables that say better, but for the listen address. -/
def correcting : Environment := fun name =>
  [("ORDERER_LISTEN_ADDRESS", "everywhere"), ("ORDERER_MAX_BATCH_SIZE", "5"),
    ("ORDERER_HASH_ALGORITHM", "sha1")].lookup name

/-- A machine with that file. -/
def mistaken : Machine :=
  { files := ({} : FileTree).writeFile (.ofText "conf/orderer.toml") (Bytes.ofText mistakenFile) }

/-- What is wrong in a layer does no harm under a higher one. The path of the key is no text. -/
theorem load_eq_ok_iff_correcting :
    ∃ l, parse (["-c", "conf/orderer.toml", "--listen-address=127.0.0.1:9443"].map Bytes.ofText ++
        [Bytes.ofText "--tls-private-key-file", [0xff]]) = .ok l ∧
      (l.load Machine.host correcting).run mistaken =
        (.ok ({ server.listenAddress := "127.0.0.1:9443"
                server.tls := ⟨some (.ofText "conf/server.pem"), some ⟨[0xff]⟩⟩
                ledger.dataDir := .ofText "conf/data"
                ordering.maxBatchSize := 5
                ordering.hashAlgorithm := "sha1" }, some (.ofText "conf/orderer.toml")),
          mistaken) := by
  have hlowest : Config.lowest Machine.host mistaken (some (.ofText "conf/orderer.toml")) =
      .ok { server.listenAddress := "nowhere"
            server.tls.certFile := some (.ofText "conf/server.pem")
            ledger.dataDir := .ofText "conf/data"
            ordering.maxBatchSize := 0
            ordering.hashAlgorithm := "none" } := by decide +kernel
  obtain ⟨loaded, hloads, hloaded⟩ := Config.lowest_eq_ok_iff.mp hlowest
  refine ⟨{ config := some (.ofText "conf/orderer.toml"), listenAddress := some "127.0.0.1:9443",
            tlsPrivateKeyFile := some ⟨[0xff]⟩ }, by decide +kernel,
    (load_eq_ok_iff (Machine.reads_host {})).mpr
      ⟨rfl, rfl, loaded, hloads, ⟨?size, nofun, nofun⟩, ?layered, ?valid⟩⟩
  case size =>
    rintro value h
    cases h
    exact ⟨5, by decide⟩
  case layered =>
    rw [layered_eq, ← hloaded]
    decide +kernel
  case valid => exact Config.validate_eq_ok_iff.mp (by decide +kernel)

end CommandLine

end OrderingService
