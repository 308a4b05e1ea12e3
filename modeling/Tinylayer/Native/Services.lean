import Tinylayer.Lib.Program
import Tinylayer.Native.Model

/-!
# The services of the native wallet

What the commands of the native wallet ask of the enclave, of the chain backend and of the files
that they write for others, as in `wallet/src/services.rs`, and how they load and save the wallet.
A question is one call of a method of `EnclaveConnection` or `Chain`; its answer is arbitrary.
-/

namespace Tinylayer

open Durable

variable {P : Platform}

variable (P) in
structure TransactionObservation where
  transaction : P.Tx
  tipHeight : Nat
  confirmations : Nat
  rawBytesObserved : Bool

variable (P) in
structure OutspendObservation where
  spent : Bool
  spendingTxid : Option P.Txid
  spendingConfirmed : Bool

structure FundingObservation where
  tipHeight : Nat
  confirmations : Nat

variable (P) in
structure DetailedFundingObservation where
  funding : ObservedFunding P
  tipHeight : Nat
  spendingTxid : Option P.Txid
  spendingConfirmed : Bool

variable (P) in
/-- A transaction that the wallet of Bitcoin Core has funded and signed, with its fee. -/
structure FundedTransaction where
  transaction : P.Tx
  feeSat : Nat

variable (P) in
/-- The questions of a command. -/
inductive Query
  -- the enclave
  | connectEnclave
  | status (coinId : CoinId)
  | register (request : RegisterRequest P)
  | sign (request : SignRequest P)
  -- the chain
  | connectChain
  | verifyFunding (metadata : CoinMetadata P) (minimumConfirmations : Nat)
  | observeFunding (metadata : CoinMetadata P)
  | transaction (txid : P.Txid)
  | observeAuthorizedTransaction (transaction : P.Tx)
  | outspend (outpoint : OutPoint P.Txid)
  | confirmedSourceUtxos (address : P.Address)
  | recommendedFeeRate
  | fundTransaction (keys : CoinKeys P) (amountSat feeRateSatVb : Nat)
  | testPreparedFunding (transaction : P.Tx) (expectedFee : Option Nat)
  | validatePreparedFunding (metadata : CoinMetadata P) (transaction : P.Tx)
  | broadcastFunding (metadata : CoinMetadata P) (transaction : P.Tx)
  | broadcastExact (transaction : P.Tx)
  | submitPackage (parentHex childHex : String)
  -- files for others
  | destinationAvailable
  | writeRequest (request : TransferRequest)
  | writeEnvelope (envelope : TransferEnvelope)

namespace Query

/-- What a question is answered with. -/
@[reducible] def Answer : Query P → Type
  | connectEnclave => Unit
  | status _ => CoinStatus P
  | register _ => CoinStatus P
  | sign _ => SignResponse P
  | connectChain => Unit
  | verifyFunding .. => FundingObservation
  | observeFunding _ => DetailedFundingObservation P
  | transaction _ => Option (TransactionObservation P)
  | observeAuthorizedTransaction _ => Option (TransactionObservation P)
  | outspend _ => OutspendObservation P
  | confirmedSourceUtxos _ => List (SourceUtxo P)
  | recommendedFeeRate => Nat
  | fundTransaction .. => FundedTransaction P
  | testPreparedFunding .. => Unit
  | validatePreparedFunding .. => Unit
  | broadcastFunding .. => P.Txid
  | broadcastExact _ => P.Txid
  | submitPackage .. => Unit
  | destinationAvailable => Unit
  | writeRequest _ => Unit
  | writeEnvelope _ => Unit

/-- Every question can be answered with an error. -/
abbrev Reply (query : Query P) : Type := Except String query.Answer

/-- The question is for the enclave. -/
def ForEnclave : Query P → Prop
  | connectEnclave | status _ | register _ | sign _ => True
  | _ => False

end Query

variable (P) in
/-- A command of the native wallet, or a part of one. -/
abbrev Cli (α : Type) := Program (NativeWalletState P) (Query P) Query.Reply String α

/-- Asks a question, and fails if the answer is an error. -/
def call (query : Query P) : Cli P query.Answer := do
  let reply ← Program.question query
  Program.of reply

/-! ## Connections -/

/-- The chain backend is an explorer. -/
def ChainConfig.isExplorer : ChainConfig → Bool
  | explorer _ => true
  | coreRpc .. => false

/-- The enclave transport is the production one. -/
def EnclaveConfig.isProduction : EnclaveConfig → Bool
  | production .. => true
  | _ => false

/-- What `initialize` checks of the configuration that it saves. -/
def Config.validateInitial (self : Config) : Except String Unit := do
  ensure (0 < self.minConfirmations) "minimum confirmations must be positive"
  ensure (delayStep ≤ self.minReactionBlocks)
    s!"minimum reaction margin must be at least {delayStep} blocks"

/-- A saved configuration wants at least one confirmation. -/
theorem Config.minConfirmations_pos {config : Config} (h : config.validateInitial = .ok ()) :
    0 < config.minConfirmations := by
  simp only [validateInitial, Except.bind_eq_ok, Except.ensure_eq_ok, exists_unit] at h
  exact h.1

/-- `connect_verified`. -/
def connectVerified (config : Config) : Cli P Unit := do
  Program.of do
    ensure (config.network ≠ .mainnet) "mainnet is not supported by this wallet"
    ensure (config.network = .regtest ∨ config.enclave.isProduction = true)
      "debug and plaintext enclave transports are regtest-only"
  call .connectEnclave

/-- Connects the enclave if it is needed. -/
def connectIf (config : Config) (needed : Bool) : Cli P Unit :=
  if needed = true then connectVerified config else pure ()

/-- The chain of the configuration is one that the wallet connects to. -/
def Config.Supported (self : Config) : Prop :=
  self.network ≠ .mainnet ∧ (self.chain.isExplorer = true ∨ self.network = .regtest)

/-- `Chain::connect`. -/
def connectChain (config : Config) : Cli P Unit := do
  Program.of do
    ensure (config.network ≠ .mainnet) "mainnet is not supported by this wallet"
    ensure (config.chain.isExplorer = true ∨ config.network = .regtest)
      "Bitcoin Core RPC is restricted to regtest"
  call .connectChain

/-- `Chain::confirmed_source_utxos`. -/
def confirmedSourceUtxos (config : Config) (address : P.Address) : Cli P (List (SourceUtxo P)) := do
  Program.of (ensure (config.chain.isExplorer = true)
    "local deposit funding requires an explorer backend")
  call (.confirmedSourceUtxos address)

/-- The outputs of a transaction that pay to `script`, each with its index. -/
def matchingOutputs (transaction : P.Tx) (script : Script) : List (TxOut × Nat) :=
  transaction.output.zipIdx.filter fun entry => entry.1.scriptPubkey = script

/-- `Core::prepare_funding`, of a funded and signed transaction. -/
def checkFundedTransaction (keys : CoinKeys P) (funded : FundedTransaction P)
    (amountSat maxFeeSat : Nat) : Except String (PreparedSourceFunding P) := do
  ensure (funded.feeSat ≤ maxFeeSat)
    s!"funding fee {funded.feeSat} sat exceeds maximum {maxFeeSat} sat"
  validateFundingInputs funded.transaction
  match matchingOutputs funded.transaction (fundingScript keys) with
  | [(output, vout)] => do
    ensure (output.value = amountSat) "funding transaction changed the Tinylayer output amount"
    return {
      transaction := funded.transaction
      outpoint := { txid := P.computeTxid funded.transaction, vout }
      feeSat := funded.feeSat }
  | _ => throw "funding transaction must contain exactly one Tinylayer output"

/-- `Chain::prepare_funding`. -/
def prepareFunding (config : Config) (keys : CoinKeys P)
    (amountSat feeRateSatVb maxFeeSat : Nat) : Cli P (PreparedSourceFunding P) := do
  Program.of do
    ensure (config.chain.isExplorer = false)
      "automatic funding requires a Bitcoin Core wallet backend"
    ensure (0 < feeRateSatVb) "funding fee rate must be positive"
    ensure (amountSat ≤ maxMoney) "funding amount exceeds Bitcoin MAX_MONEY"
  let funded ← call (.fundTransaction keys amountSat feeRateSatVb)
  let prepared ← Program.of (checkFundedTransaction keys funded amountSat maxFeeSat)
  call (.testPreparedFunding prepared.transaction (some prepared.feeSat))
  return prepared

/-! ## The store -/

/-- `open_wallet`. -/
def openWallet (config : Config) : Cli P Unit :=
  Program.of (ensure (config.network ≠ .mainnet) "mainnet is not supported by this wallet")

/-- `WalletStore::load_native`. -/
def loadNative (config : Config) : Cli P (NativeWalletState P) := do
  let native ← Program.saved
  Program.of (native.validate config.network)
  return native

/-- `WalletStore::save_native`. -/
def saveNative (config : Config) (native : NativeWalletState P) : Cli P Unit := do
  Program.of (native.validate config.network)
  Program.replace native

/-- `WalletStore::save`. -/
def save (config : Config) (wallet : WalletState P) : Cli P Unit := do
  Program.of wallet.validateVersion
  let native ← loadNative config
  Program.replace (native.withWallet wallet)

end Tinylayer
