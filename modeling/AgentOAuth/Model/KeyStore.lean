import AgentOAuth.Model.Keys

/-!
# The key store

`KeyStore` of `src/crypto/keys.py`: `load_or_create` as the sequence of file
steps it performs.  A `Directory` has inodes, the key path and the temporary
names, so that a hard link shares its content with the temporary file it was
made from.  `Progress` is how far one starter has come, and `KeyStore.step` is
what it does next.  Every system call may fail, and a starter may crash before
any of its steps.
-/

namespace AgentOAuth

/-! ## Keys as files -/

/-- What a PEM file holds. -/
inductive LoadedKey
  /-- An `EllipticCurvePrivateKey` on the curve `SECP256R1`. -/
  | p256 (key : PrivateKey)
  | otherCurve
  | notElliptic

/-- What `load_pem_private_key` raises. -/
inductive PemExc
  /-- `TypeError` or `ValueError`. -/
  | typeOrValue
  | other (className : String)
  deriving DecidableEq

/-- The functions of `cryptography` the key store calls. -/
structure KeyLibrary where
  /-- The possible results of `ec.generate_private_key(ec.SECP256R1())`. -/
  generates : PrivateKey → Bool
  /-- `private_key.private_bytes(PEM, PKCS8, NoEncryption())`. -/
  privateBytes : PrivateKey → List UInt8
  /-- `load_pem_private_key(pem, password=None)`. -/
  loadPem : List UInt8 → Except PemExc LoadedKey
  /-- Loading undoes writing. -/
  load_privateBytes : ∀ key, generates key = true → loadPem (privateBytes key) = .ok (.p256 key)

/-- What the key store raises. -/
inductive KeyStoreExc
  /-- `KeyStoreError(message)`. -/
  | keyStore (message : String)
  /-- Any other exception, by the name of its class. -/
  | python (className : String)
  deriving DecidableEq

/-- `KeyStore(private_key_path)`, with the libraries it calls. -/
structure KeyStore where
  library : KeyLibrary
  sha256 : Sha256
  privateKeyPath : String

/-! ## The directory -/

/-- The directory of the key file: names that link to files. -/
structure Directory where
  /-- The contents of all files, by inode. -/
  inodes : List (List UInt8) := []
  keyPath : Option ℕ := none
  /-- The inodes with a temporary name. -/
  temporaries : List ℕ := []
  /-- What starters have read through the key path. -/
  reads : List (List UInt8) := []
  deriving DecidableEq

namespace Directory

/-- What a file holds. -/
def content (d : Directory) (inode : ℕ) : List UInt8 :=
  d.inodes.getD inode []

/-- The content of the key file, if there is one. -/
def published (d : Directory) : Option (List UInt8) :=
  d.keyPath.map d.content

/-- `tempfile.mkstemp`: a new empty file under a name of its own. -/
def createTemporary (d : Directory) : Directory :=
  { d with
    inodes := d.inodes ++ [[]]
    temporaries := d.inodes.length :: d.temporaries }

/-- More bytes reach the file. -/
def append (d : Directory) (inode : ℕ) (bytes : List UInt8) : Directory :=
  { d with inodes := d.inodes.set inode (d.content inode ++ bytes) }

/-- `os.link(temporary_path, private_key_path)`, where the target does not exist. -/
def link (d : Directory) (inode : ℕ) : Directory :=
  { d with keyPath := some inode }

/-- `temporary_path.unlink(missing_ok=True)`. -/
def unlink (d : Directory) (inode : ℕ) : Directory :=
  { d with temporaries := d.temporaries.filter (· ≠ inode) }

/-- A starter has read the whole file. -/
def noteRead (d : Directory) (inode : ℕ) : Directory :=
  { d with reads := d.content inode :: d.reads }

end Directory

/-! ## One starter -/

/-- How far a starter has come in `load_or_create`. -/
inductive Progress
  /-- About to open the key path. -/
  | opening
  /-- About to read the file it has opened. -/
  | reading (inode : ℕ)
  | generating
  /-- About to create the temporary file. -/
  | creating (key : PrivateKey)
  /-- Part of the PEM is in the temporary file. -/
  | writing (key : PrivateKey) (temporary : ℕ)
  /-- The temporary file is complete and closed. -/
  | linking (key : PrivateKey) (temporary : ℕ)
  /-- The key path existed: about to open it. -/
  | reopening (temporary : ℕ)
  | rereading (temporary inode : ℕ)
  /-- In the `finally` clause, with the way `try` ended. -/
  | cleaning (temporary : ℕ) (outcome : Except KeyStoreExc PrivateKey)
  | returned (key : SigningKey)
  | raised (e : KeyStoreExc)
  | crashed

/-- What may happen to a starter next. -/
inductive StarterAction
  /-- The next call succeeds. -/
  | proceed
  | generate (key : PrivateKey)
  /-- So many more bytes reach the file. -/
  | write (count : ℕ)
  /-- The next call raises `OSError`. -/
  | fail
  | crash

namespace KeyStore

variable (store : KeyStore)

/-- The error of `_load_private_key` for a file that cannot be read. -/
def couldNotRead : KeyStoreExc :=
  .keyStore ("could not read signing key: " ++ store.privateKeyPath)

/-- The error of `_create_private_key_once` where the file system fails. -/
def couldNotPersist : KeyStoreExc :=
  .keyStore ("could not persist signing key: " ++ store.privateKeyPath)

/-- The second half of `_load_private_key`, with `_validate_private_key`. -/
def decodePrivateKey (pem : List UInt8) : Except KeyStoreExc PrivateKey :=
  match store.library.loadPem pem with
  | .error .typeOrValue =>
      .error (.keyStore "configured signing key is not a valid unencrypted PEM key")
  | .error (.other className) => .error (.python className)
  | .ok .notElliptic => .error (.keyStore "configured signing key must be an EC private key")
  | .ok .otherCurve =>
      .error (.keyStore "configured signing key must use the P-256 curve for ES256")
  | .ok (.p256 key) => .ok key

/-- `SigningKey(private_key=private_key, kid=self._kid_for(private_key))`. -/
def finish : Except KeyStoreExc PrivateKey → Progress
  | .error e => .raised e
  | .ok privateKey =>
      match kidFor store.sha256 privateKey with
      | .ok kid => .returned { privateKey, kid }
      | .error _ => .raised (.python "OverflowError")

/-- What a starter does next. -/
def step (d : Directory) : Progress → StarterAction → Option (Directory × Progress)
  | .returned _, _ => none
  | .raised _, _ => none
  | .crashed, _ => none
  | _, .crash => some (d, .crashed)
  | .opening, .proceed =>
      match d.keyPath with
      | some inode => some (d, .reading inode)
      | none => some (d, .generating)
  | .opening, .fail => some (d, .raised store.couldNotRead)
  | .reading inode, .proceed =>
      some (d.noteRead inode, store.finish (store.decodePrivateKey (d.content inode)))
  | .reading _, .fail => some (d, .raised store.couldNotRead)
  | .generating, .generate key =>
      if store.library.generates key then some (d, .creating key) else none
  | .creating key, .proceed => some (d.createTemporary, .writing key d.inodes.length)
  | .creating _, .fail => some (d, .raised (.python "OSError"))
  | .writing key temporary, .write count =>
      let rest := (store.library.privateBytes key).drop (d.content temporary).length
      some (d.append temporary (rest.take count), .writing key temporary)
  | .writing key temporary, .proceed =>
      if d.content temporary = store.library.privateBytes key then some (d, .linking key temporary)
      else none
  | .writing _ temporary, .fail => some (d, .cleaning temporary (.error store.couldNotPersist))
  | .linking key temporary, .proceed =>
      match d.keyPath with
      | none => some (d.link temporary, .cleaning temporary (.ok key))
      | some _ => some (d, .reopening temporary)
  | .linking _ temporary, .fail => some (d, .cleaning temporary (.error store.couldNotPersist))
  | .reopening temporary, .proceed =>
      match d.keyPath with
      | some inode => some (d, .rereading temporary inode)
      -- `FileNotFoundError` is an `OSError`, and this is inside its `try`
      | none => some (d, .cleaning temporary (.error store.couldNotPersist))
  | .reopening temporary, .fail => some (d, .cleaning temporary (.error store.couldNotRead))
  | .rereading temporary inode, .proceed =>
      some (d.noteRead inode, .cleaning temporary (store.decodePrivateKey (d.content inode)))
  | .rereading temporary _, .fail => some (d, .cleaning temporary (.error store.couldNotRead))
  | .cleaning temporary outcome, .proceed => some (d.unlink temporary, store.finish outcome)
  | .cleaning _ _, .fail => some (d, .raised (.python "OSError"))
  | _, _ => none

theorem decodePrivateKey_privateBytes {key : PrivateKey} (h : store.library.generates key = true) :
    store.decodePrivateKey (store.library.privateBytes key) = .ok key := by
  rw [decodePrivateKey, store.library.load_privateBytes key h]

end KeyStore

end AgentOAuth
