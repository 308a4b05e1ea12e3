import Tinylayer.Lib.Storage
import Tinylayer.Native.Model

/-!
# The wallet store

The data directory of the native wallet, as in `wallet/src/store.rs`: the configuration, the
encrypted state, and how both are written. The codecs of the two files are parameters. The lock that
keeps other processes out is taken to be free.
-/

namespace Tinylayer

open Storage

variable {P : Platform}

/-- The paths of a data directory. -/
inductive WalletPath
  | directory
  | config
  | state
  | lock
  | temporary (path : WalletPath) (suffix : List.Vector UInt8 8)
deriving DecidableEq

def WalletPath.name : WalletPath → String
  | directory => "."
  | config => "config.json"
  | state => "wallet.enc"
  | lock => ".lock"
  | temporary path suffix => s!".{path.name}.tmp-{Hex.encode suffix.toList}"

def maxFileSize : Nat := 16 * 1024 * 1024
def maxStateFileSize : Nat := 64 * 1024 * 1024

/-- What `seal_encrypted_json` draws at random. -/
structure SealDraws where
  salt : List.Vector UInt8 16
  nonce : List.Vector UInt8 24

variable (P) in
/-- The codecs of the two files: `serde_json` for the configuration, `seal_encrypted_json` and
`open_encrypted_json` for the state. -/
structure StoreCodec where
  configToVec : Config → List UInt8
  configToVecPretty : Config → List UInt8
  configFromSlice : List UInt8 → Option Config
  sealState : NativeWalletState P → String → List UInt8 → SealDraws → Except String (List UInt8)
  openState : List UInt8 → String → List UInt8 → Except String (NativeWalletState P)

/-- What was written is read back; reading a state checks its coin keys. -/
structure StoreCodec.RoundTrip (codec : StoreCodec P) : Prop where
  config : ∀ config, codec.configFromSlice (codec.configToVecPretty config ++ [10]) = some config
  state : ∀ state password aad draws bytes, codec.sealState state password aad draws = .ok bytes →
    ∀ state', codec.openState bytes password aad = .ok state' ↔ state.KeysValid ∧ state' = state

def stateAadPrefix : List UInt8 := Json.utf8 "tinylayer-wallet-state-v1"

/-- `wallet_state_aad`. -/
def walletStateAad (codec : StoreCodec P) (config : Config) : List UInt8 :=
  stateAadPrefix ++ P.digestBytes (P.sha256 (codec.configToVec config))

/-! ## Paths -/

/-- `Path::exists`. -/
def pathExists (node : Option Node) : Bool :=
  match node with
  | none => false
  | some (.symlink leads) => leads
  | some _ => true

/-- `ensure_private_path`, for what stands at a path. -/
def checkPrivate (display : String) (node : Option Node) (directory : Bool) :
    Except String Unit := do
  match ← node.context s!"wallet path does not exist: {display}" with
  | .symlink _ => throw "wallet paths cannot be symlinks"
  | .directory shared =>
    ensure (directory = true) "wallet data path is not a regular file"
    ensure (shared = false) s!"wallet path is accessible by group or other users: {display}"
  | .file shared _ _ =>
    ensure (directory = false) "wallet data path is not a directory"
    ensure (shared = false) s!"wallet path is accessible by group or other users: {display}"

/-- What a path is called in messages. -/
def displayPath (directory : String) : WalletPath → String
  | .directory => directory
  | path => s!"{directory}/{path.name}"

/-- `ensure_private_path`. -/
def ensurePrivatePath (directory : String) (path : WalletPath) (isDirectory : Bool) :
    FileM WalletPath Unit := do
  let paths ← FileM.view
  FileM.of (checkPrivate (displayPath directory path) (paths path) isDirectory)

/-- `ensure_secure_directory`. -/
def ensureSecureDirectory (directory : String) : FileM WalletPath Unit := do
  let paths ← FileM.view
  if pathExists (paths .directory) = false then FileM.makeDirectory .directory
  ensurePrivatePath directory .directory true

/-- `open_lock`. -/
def openLock : FileM WalletPath Unit := FileM.openFile .lock

/-- The data of a regular file. -/
def readFile (path : WalletPath) (message : String) : FileM WalletPath (List UInt8) := do
  let paths ← FileM.view
  FileM.of (((paths path).bind Node.data).context message)

/-! ## Writing -/

/-- `write_bytes_atomic_inner`. -/
def writeBytesAtomicInner (directory : String) (path : WalletPath) (bytes : List UInt8)
    (suffix : List.Vector UInt8 8) : FileM WalletPath Unit := do
  let paths ← FileM.view
  FileM.of (ensure (∃ shared, paths .directory = some (.directory shared))
    s!"output directory does not exist: {directory}")
  FileM.replaceFile (.temporary path suffix) path bytes

/-- `write_state_bytes_atomic`. -/
def writeStateBytesAtomic (directory : String) (bytes : List UInt8)
    (suffix : List.Vector UInt8 8) : FileM WalletPath Unit := do
  FileM.of (ensure (bytes.length ≤ maxStateFileSize)
    "encrypted wallet state exceeds 64 MiB limit")
  writeBytesAtomicInner directory .state bytes suffix

/-- `write_json_atomic`, of the configuration. -/
def writeConfigAtomic (codec : StoreCodec P) (directory : String) (config : Config)
    (suffix : List.Vector UInt8 8) : FileM WalletPath Unit := do
  let bytes := codec.configToVecPretty config ++ [10]
  FileM.of (ensure (bytes.length ≤ maxFileSize) "output exceeds 16 MiB limit")
  writeBytesAtomicInner directory .config bytes suffix

/-! ## The store -/

/-- An open store. -/
structure WalletStore where
  directory : String
  password : String
  config : Config
  aad : List UInt8

/-- What writing the state draws at random. -/
structure WriteDraws where
  sealing : SealDraws
  suffix : List.Vector UInt8 8

variable (P) in
/-- What `WalletStore::initialize` draws at random. -/
structure InitializeDraws where
  fundingSecret : P.SecretKey
  write : WriteDraws
  configSuffix : List.Vector UInt8 8

/-- `load_config`. -/
def loadConfig (codec : StoreCodec P) (directory : String) : FileM WalletPath Config := do
  ensurePrivatePath directory .directory true
  ensurePrivatePath directory .config false
  let bytes ← readFile .config s!"open {displayPath directory .config}"
  FileM.of (ensure (bytes.length ≤ maxFileSize) "input exceeds 16 MiB limit")
  let config ← FileM.of ((codec.configFromSlice bytes).context
    s!"invalid JSON in {displayPath directory .config}")
  FileM.of config.validateVersion
  return config

namespace WalletStore

/-- `WalletStore::write_native`. -/
def writeNative (codec : StoreCodec P) (self : WalletStore) (state : NativeWalletState P)
    (draws : WriteDraws) : FileM WalletPath Unit := do
  let bytes ← FileM.of (codec.sealState state self.password self.aad draws.sealing)
  writeStateBytesAtomic self.directory bytes draws.suffix

/-- `WalletStore::save_native`. -/
def saveNative (codec : StoreCodec P) (self : WalletStore) (state : NativeWalletState P)
    (draws : WriteDraws) : FileM WalletPath Unit := do
  FileM.of (state.validate self.config.network)
  self.writeNative codec state draws

/-- `WalletStore::initialize`. -/
def initializeStore (codec : StoreCodec P) (directory : String) (config : Config) (password : String)
    (draws : InitializeDraws P) : FileM WalletPath Unit := do
  FileM.of config.validateVersion
  ensureSecureDirectory directory
  openLock
  let paths ← FileM.view
  FileM.of (ensure (pathExists (paths .config) = false ∧ pathExists (paths .state) = false)
    s!"wallet is already initialized at {directory}")
  let store : WalletStore := { directory, password, config, aad := walletStateAad codec config }
  store.saveNative codec (.new draws.fundingSecret .empty) draws.write
  writeConfigAtomic codec directory config draws.configSuffix

/-- `WalletStore::open`. -/
def openStore (codec : StoreCodec P) (directory password : String) :
    FileM WalletPath WalletStore := do
  ensurePrivatePath directory .directory true
  ensurePrivatePath directory .state false
  openLock
  ensurePrivatePath directory .config false
  let config ← loadConfig codec directory
  return { directory, password, config, aad := walletStateAad codec config }

/-- `WalletStore::load_native`. -/
def loadNative (codec : StoreCodec P) (self : WalletStore) :
    FileM WalletPath (NativeWalletState P) := do
  let bytes ← readFile .state "open wallet state"
  FileM.of (ensure (bytes.length ≤ maxStateFileSize)
    "encrypted wallet state exceeds 64 MiB limit")
  let state ← FileM.of (codec.openState bytes self.password self.aad)
  FileM.of (state.validate self.config.network)
  return state

/-- `WalletStore::save`. -/
def save (codec : StoreCodec P) (self : WalletStore) (state : WalletState P)
    (draws : WriteDraws) : FileM WalletPath Unit := do
  FileM.of state.validateVersion
  let native ← self.loadNative codec
  self.writeNative codec (native.withWallet state) draws

end WalletStore

end Tinylayer
