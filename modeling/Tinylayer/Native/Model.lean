import Tinylayer.Wallet.Exit
import Tinylayer.Wallet.Funding

/-!
# The native wallet

The state that the command line wallet saves, and its configuration, as in `wallet/src/model.rs`.
-/

namespace Tinylayer

variable {P : Platform}

def nativeStateFormatVersion : Nat := 1

variable (P) in
/-- What the native wallet saves: the wallet, the key of its deposits, and the journals of an exit
and of a sweep of the deposits. -/
structure NativeWalletState where
  formatVersion : Nat
  fundingSecret : P.SecretKey
  wallet : WalletState P
  exit : Option (ExitJournal P)
  sourceSweep : Option (SourceSweepJournal P)
deriving DecidableEq

instance decidableMemOutPoint (outpoint : OutPoint P.Txid) (outpoints : List (OutPoint P.Txid)) :
    Decidable (outpoint ∈ outpoints) := inferInstance

namespace NativeWalletState

/-- `NativeWalletState::new`; the deposit key is drawn at random. -/
def new (fundingSecret : P.SecretKey) (wallet : WalletState P) : NativeWalletState P where
  formatVersion := nativeStateFormatVersion
  fundingSecret := fundingSecret
  wallet := wallet
  exit := none
  sourceSweep := none

/-- `NativeWalletStateRef`: the saved state with another wallet in it. -/
def withWallet (self : NativeWalletState P) (wallet : WalletState P) : NativeWalletState P :=
  { self with wallet }

/-- The check of a saved exit. -/
def validateExit (self : NativeWalletState P) (network : NetworkId) : Except String Unit :=
  match self.exit with
  | none => pure ()
  | some exit => do
    ensure (exit.package.network = network) "saved exit network mismatch"
    exit.validate (← self.wallet.coin.context "saved exit has no wallet coin")

/-- The check of a saved sweep. -/
def validateSweep (self : NativeWalletState P) (network : NetworkId) : Except String Unit :=
  match self.sourceSweep with
  | none => pure ()
  | some sweep => do
    ensure (sweep.network = network) "saved source sweep network mismatch"
    sweep.validate self.fundingSecret

/-- `NativeWalletState::validate`. -/
def validate (self : NativeWalletState P) (network : NetworkId) : Except String Unit := do
  ensure (self.formatVersion = nativeStateFormatVersion)
    s!"unsupported native wallet version {self.formatVersion}"
  self.wallet.validateVersion
  self.validateExit network
  self.validateSweep network

/-- The coin keys in the state are valid; reading a state checks them. -/
structure KeysValid (self : NativeWalletState P) : Prop where
  coin : ∀ coin ∈ self.wallet.coin, coin.keys.Valid ∧ ∀ metadata ∈ coin.metadata, metadata.keys.Valid
  attempt : ∀ pending, self.wallet.pending = some (.recovery pending) →
    pending.stage.attempt.prepared.metadata.keys.Valid

end NativeWalletState

/-! ## The configuration -/

inductive EnclaveConfig
  | production (url pcr0 pcr1 pcr2 : String)
  | debug (url pcr0 pcr1 pcr2 : String)
  | unsafePlaintext (url : String)
deriving DecidableEq

inductive ChainConfig
  | explorer (url : String)
  | coreRpc (rpcUrl cookieFile walletName : String)
deriving DecidableEq

structure Config where
  formatVersion : Nat
  protocolVersion : Nat
  network : NetworkId
  enclave : EnclaveConfig
  chain : ChainConfig
  minConfirmations : Nat
  minReactionBlocks : Nat
deriving DecidableEq

/-- `Config::validate_version`. -/
def Config.validateVersion (self : Config) : Except String Unit := do
  ensure (self.formatVersion = fileFormatVersion)
    s!"unsupported wallet configuration version {self.formatVersion}"
  ensure (self.protocolVersion = Tinylayer.protocolVersion)
    s!"unsupported wallet protocol version {self.protocolVersion}"

end Tinylayer
