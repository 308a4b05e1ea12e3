import Mathlib.Data.List.Sort
import Tinylayer.Wallet.Validation

/-!
# Funding and sweeping

The transactions of `wallet-core/src/funding.rs` that spend the wallet's own deposits: the funding
of a coin, and the sweep of the deposits to an address, with its journal.
-/

namespace Tinylayer

variable {P : Platform}

variable (P) in
structure PreparedSourceFunding where
  transaction : P.Tx
  outpoint : OutPoint P.Txid
  feeSat : Nat
deriving DecidableEq

variable (P) in
structure PreparedSourceSweep where
  transaction : P.Tx
  feeSat : Nat
deriving DecidableEq

/-- The outputs that a transaction spends. -/
def spentOutputs (transaction : P.Tx) : List (OutPoint P.Txid) :=
  transaction.input.map TxIn.previousOutput

/-- `source_funding_address`. -/
def sourceFundingAddress (secret : P.SecretKey) (network : NetworkId) : P.Address :=
  P.addressP2tr (P.xOnlyPublicKey secret) network

/-- `witness.push([0; 64])`: an item as long as the signature that replaces it. -/
def placeholderWitness : List (List UInt8) := [List.replicate 64 0]

/-- The input that spends a deposit. -/
def sourceInput (witness : List (List UInt8)) (source : SourceUtxo P) : TxIn P.Txid where
  previousOutput := source.outpoint
  scriptSig := []
  sequence := sequenceMax
  witness := witness

/-- The funding transaction: one deposit pays the coin and returns the change. -/
def sourceFundingTransaction (source : SourceUtxo P) (witness : List (List UInt8))
    (statechainScript changeScript : Script) (amountSat changeSat : Nat) : P.Tx where
  version := versionTwo
  lockTime := 0
  input := [sourceInput witness source]
  output := [{ value := amountSat, scriptPubkey := statechainScript },
    { value := changeSat, scriptPubkey := changeScript }]

/-- `u64::try_from`. -/
def toU64 (n : Nat) : Option Nat := if n ≤ u64Max then some n else none

@[simp] theorem toU64_eq_some {n m : Nat} : toU64 n = some m ↔ n ≤ u64Max ∧ n = m := by
  unfold toU64; split <;> simp_all

/-- `build_source_funding`. -/
def buildSourceFunding (keys : CoinKeys P) (network : NetworkId) (sourceSecret : P.SecretKey)
    (source : SourceUtxo P) (amountSat feeRateSatVb maxFeeSat : Nat) :
    Except String (PreparedSourceFunding P) := do
  ensure (0 < source.confirmations) "funding input is not confirmed"
  ensure (source.coinbase = false) "coinbase funding inputs are not supported"
  ensure (P.isNull source.outpoint = false) "funding transaction cannot spend a coinbase input"
  ensure (0 < feeRateSatVb) "funding fee rate must be positive"
  ensure (amountSat ≤ maxMoney) "funding amount exceeds Bitcoin MAX_MONEY"
  let changeScript := P.addressScript (sourceFundingAddress sourceSecret network)
  ensure (source.output.scriptPubkey = changeScript)
    "funding input does not belong to the local deposit key"
  let statechainScript := fundingScript keys
  ensure (P.minimalNonDust statechainScript ≤ amountSat) "Tinylayer funding output would be dust"
  let placeholder := sourceFundingTransaction source placeholderWitness statechainScript
    changeScript amountSat 0
  let feeSat ← (toU64 (feeRateSatVb * P.vsize placeholder)).context "funding fee overflow"
  ensure (feeSat ≤ maxFeeSat) s!"funding fee {feeSat} sat exceeds maximum {maxFeeSat} sat"
  let changeSat ← ((checkedSub source.output.value amountSat).bind (checkedSub · feeSat)).context
    "funding input cannot cover amount and fee"
  ensure (P.minimalNonDust changeScript ≤ changeSat)
    "funding input does not leave dust-safe change"
  let unsigned := sourceFundingTransaction source [] statechainScript changeScript amountSat
    changeSat
  let sighash ← (P.keySpendSighash unsigned 0 [source.output]).context
    "compute funding transaction sighash"
  let tweaked := P.tapTweak sourceSecret
  let signature := P.signSchnorr tweaked sighash
  ensure (P.verifySchnorr signature sighash (P.xOnlyPublicKey tweaked) = true)
    "verify funding transaction signature"
  let transaction := sourceFundingTransaction source [P.signatureBytes signature] statechainScript
    changeScript amountSat changeSat
  validateFundingInputs transaction
  return { transaction, outpoint := { txid := P.computeTxid transaction, vout := 0 }, feeSat }

/-- The order of output references: by transaction id, then by index. -/
def OutPoint.le (a b : OutPoint P.Txid) : Prop := a.txid < b.txid ∨ a.txid = b.txid ∧ a.vout ≤ b.vout

instance (a b : OutPoint P.Txid) : Decidable (OutPoint.le a b) :=
  inferInstanceAs (Decidable (_ ∨ _))

/-- `sources.sort_by_key(|source| source.outpoint)`. -/
def sortSources (sources : List (SourceUtxo P)) : List (SourceUtxo P) :=
  sources.insertionSort fun a b => OutPoint.le a.outpoint b.outpoint

/-- The sweep transaction: it spends all of `sources` to one output. -/
def sourceSweepTransaction (inputs : List (TxIn P.Txid)) (destination : Script) (value : Nat) :
    P.Tx where
  version := versionTwo
  lockTime := 0
  input := inputs
  output := [{ value, scriptPubkey := destination }]

/-- `build_source_sweep`. -/
def buildSourceSweep (network : NetworkId) (sourceSecret : P.SecretKey)
    (sources : List (SourceUtxo P)) (destination : String) (feeRateSatVb maxFeeSat : Nat) :
    Except String (PreparedSourceSweep P) := do
  ensure (sources ≠ []) "source sweep has no inputs"
  ensure (sources.length ≤ 100) "source sweep exceeds 100 inputs"
  ensure (0 < feeRateSatVb) "source sweep fee rate must be positive"
  let destination ← (P.addressFromStr destination).context "invalid source sweep destination"
  ensure (P.addressOnNetwork destination network = true)
    "source sweep destination is for the wrong network"
  let expectedScript := P.addressScript (sourceFundingAddress sourceSecret network)
  ensure (P.addressScript destination ≠ expectedScript)
    "source sweep destination cannot be the deposit address"
  let sources := sortSources sources
  checkAll (fun source : SourceUtxo P => do
    ensure (0 < source.confirmations) "source sweep input is not confirmed"
    ensure (source.coinbase = false) "coinbase source sweep inputs are not supported"
    ensure (P.isNull source.outpoint = false) "source sweep cannot spend a coinbase input"
    ensure (source.output.scriptPubkey = expectedScript)
      "source sweep input does not belong to the local deposit key") sources
  ensure (∀ pair ∈ windows sources, pair.1.outpoint ≠ pair.2.outpoint)
    "source sweep contains a duplicate input"
  let inputSat ← sources.foldlM (fun total source =>
    (checkedAdd u64Max total source.output.value).context
      "source sweep input amount overflow") 0
  let destinationScript := P.addressScript destination
  let placeholder := sourceSweepTransaction (sources.map (sourceInput placeholderWitness))
    destinationScript 0
  let feeSat ← (toU64 (feeRateSatVb * P.vsize placeholder)).context "source sweep fee overflow"
  ensure (feeSat ≤ maxFeeSat) s!"source sweep fee {feeSat} sat exceeds maximum {maxFeeSat} sat"
  let outputSat ← (checkedSub inputSat feeSat).context "source sweep fee exceeds its inputs"
  ensure (P.minimalNonDust destinationScript ≤ outputSat) "source sweep output would be dust"
  let unsigned := sourceSweepTransaction (sources.map (sourceInput [])) destinationScript outputSat
  let tweaked := P.tapTweak sourceSecret
  let signatures ← (List.range sources.length).mapM fun index => do
    let sighash ← (P.keySpendSighash unsigned index (sources.map SourceUtxo.output)).context
      "compute source sweep sighash"
    let signature := P.signSchnorr tweaked sighash
    ensure (P.verifySchnorr signature sighash (P.xOnlyPublicKey tweaked) = true)
      "verify source sweep signature"
    pure signature
  let inputs := sources.zipWith (fun source signature =>
    sourceInput [P.signatureBytes signature] source) signatures
  let transaction := sourceSweepTransaction inputs destinationScript outputSat
  validateFundingInputs transaction
  return { transaction, feeSat }

inductive SourceSweepStage
  | prepared
  | submissionArmed
  | observed
deriving DecidableEq

variable (P) in
structure SourceSweepJournal where
  formatVersion : Nat
  network : NetworkId
  destination : String
  sources : List (SourceUtxo P)
  feeRateSatVb : Nat
  maxFeeSat : Nat
  feeSat : Nat
  transaction : P.Tx
  stage : SourceSweepStage
deriving DecidableEq

namespace SourceSweepJournal

/-- `SourceSweepJournal::prepare`. -/
def prepare (sourceSecret : P.SecretKey) (network : NetworkId) (sources : List (SourceUtxo P))
    (destination : String) (feeRateSatVb maxFeeSat : Nat) :
    Except String (SourceSweepJournal P) := do
  let sources := sortSources sources
  let address ← (P.addressFromStr destination).context "invalid source sweep destination"
  ensure (P.addressOnNetwork address network = true)
    "source sweep destination is for the wrong network"
  let destination := P.addressToString address
  let prepared ← buildSourceSweep network sourceSecret sources destination feeRateSatVb maxFeeSat
  return {
    formatVersion := fileFormatVersion
    network
    destination
    sources
    feeRateSatVb
    maxFeeSat
    feeSat := prepared.feeSat
    transaction := prepared.transaction
    stage := .prepared }

/-- `SourceSweepJournal::validate`. -/
def validate (self : SourceSweepJournal P) (sourceSecret : P.SecretKey) : Except String Unit := do
  ensure (self.formatVersion = fileFormatVersion)
    s!"unsupported source sweep version {self.formatVersion}"
  let expected ← buildSourceSweep self.network sourceSecret self.sources self.destination
    self.feeRateSatVb self.maxFeeSat
  ensure (expected.feeSat = self.feeSat ∧ expected.transaction = self.transaction)
    "saved source sweep is not canonical"

/-- `SourceSweepJournal::arm_submission`. -/
def armSubmission (self : SourceSweepJournal P) (sourceSecret : P.SecretKey) :
    Except String (SourceSweepJournal P) := do
  self.validate sourceSecret
  return { self with stage := .submissionArmed }

/-- `SourceSweepJournal::mark_observed`. -/
def markObserved (self : SourceSweepJournal P) (sourceSecret : P.SecretKey) (observed : P.Tx) :
    Except String (SourceSweepJournal P) := do
  self.validate sourceSecret
  ensure (self.stage = .submissionArmed) "source sweep was not armed for submission"
  ensure (observed = self.transaction)
    "observed source sweep bytes do not match the saved transaction"
  return { self with stage := .observed }

end SourceSweepJournal

end Tinylayer
