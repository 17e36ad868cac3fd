import OrderingService.Hashing.Strategy
import OrderingService.Digest.Sha256
import OrderingService.Digest.Sha1
import OrderingService.Digest.Md5

/-!
# The built-in hash algorithms

Three algorithms are known by name. A name is read without regard to ASCII case and hyphens. Their
strategies accept every write and digest the chunks written, joined.
-/

namespace OrderingService

/-- A built-in hash algorithm. -/
inductive Algorithm where
  | sha256
  | sha1
  | md5
  deriving DecidableEq, Repr

namespace Algorithm

/-- The canonical name. -/
def name : Algorithm → String
  | sha256 => "sha256"
  | sha1 => "sha1"
  | md5 => "md5"

/-- The digest of a message. -/
def digest : Algorithm → Bytes → Bytes
  | sha256 => Digest.sha256
  | sha1 => Digest.sha1
  | md5 => Digest.md5

/-- A name without its hyphens and with its ASCII letters in lower case. -/
def normalizeName (name : String) : String :=
  String.ofList ((name.toList.map Char.toLower).filter (· ≠ '-'))

/-- The algorithm of a name, up to ASCII case and hyphens. -/
def ofName? (name : String) : Option Algorithm :=
  [sha256, sha1, md5].find? fun a => a.name == normalizeName name

end Algorithm

namespace HashStrategy

/-- The strategy that accepts every write and applies `digest` to the chunks joined. -/
def ofDigest (name : String) (digest : Bytes → Bytes) : HashStrategy where
  name := name
  refusal _ _ := none
  digest _ chunks := digest chunks.flatten

/-- The strategy of a built-in algorithm. -/
def ofAlgorithm (a : Algorithm) : HashStrategy := ofDigest a.name a.digest

/-- SHA-256, the default. -/
def sha256 : HashStrategy := ofAlgorithm .sha256

/-- The strategy of a named algorithm; the error keeps the name as given. -/
def ofName (name : String) : Except MerkleError HashStrategy :=
  match Algorithm.ofName? name with
  | some a => .ok (ofAlgorithm a)
  | none => .error (.unsupportedHashAlgorithm name)

/-! ### Strategies supplied by a caller -/

/-- The strategy whose digest is the bytes written, joined. -/
def concatenation (name : String) : HashStrategy := ofDigest name id

/-- Keep only the first `width` bytes of every digest. -/
def truncated (H : HashStrategy) (width : Nat) : HashStrategy :=
  { H with digest := fun h chunks => (H.digest h chunks).take width }

/-- Refuse also the writes that a rule picks out by the history and the bytes. -/
def refusing (H : HashStrategy) (text : String) (refuses : History → Bytes → Bool) : HashStrategy :=
  { H with refusal := fun h bytes => if refuses h bytes then some text else H.refusal h bytes }

end HashStrategy

end OrderingService
