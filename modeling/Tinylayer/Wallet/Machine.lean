import Tinylayer.Client.Machine
import Tinylayer.Wallet.Exit
import Tinylayer.Wallet.Funding

/-!
# Fundings, sweeps and exits on machine integers

The functions of `wallet-core/src/funding.rs` and `wallet-core/src/exit.rs` once more, with every
index, sum and product of the source as it is there: on `usize`, `u64` and `u128`, and with a panic
where one does not fit. The transactions are changed in place, as in the source.
-/

namespace Tinylayer.Machine

variable {P : Platform} {ε : Type}

/-- The failures of the client's checks, as the wallet reports them. -/
def lift {α : Type} (x : MayPanic Client.Error α) : MayPanic String α :=
  MayPanic.mapError Client.Error.message x

/-- The fee: `u128::from(fee_rate_sat_vb).checked_mul(vsize as u128)` as a `u64`. -/
def checkedFee (feeRateSatVb vsize : Nat) : Option Nat :=
  (MayPanic.checkedMul 128 feeRateSatVb vsize).bind toU64

/-- `build_source_funding`. -/
def Library.buildSourceFunding (lib : Library P) (keys : CoinKeys P) (network : NetworkId)
    (sourceSecret : P.SecretKey) (source : SourceUtxo P)
    (amountSat feeRateSatVb maxFeeSat : Nat) :
    MayPanic String (PreparedSourceFunding P) := do
  ensure (0 < source.confirmations) "funding input is not confirmed"
  ensure (source.coinbase = false) "coinbase funding inputs are not supported"
  ensure (P.isNull source.outpoint = false) "funding transaction cannot spend a coinbase input"
  ensure (0 < feeRateSatVb) "funding fee rate must be positive"
  ensure (amountSat ≤ maxMoney) "funding amount exceeds Bitcoin MAX_MONEY"
  let changeScript := P.addressScript (sourceFundingAddress sourceSecret network)
  ensure (source.output.scriptPubkey = changeScript)
    "funding input does not belong to the local deposit key"
  let statechainScript ← lib.fundingScript keys
  ensure (P.minimalNonDust statechainScript ≤ amountSat) "Tinylayer funding output would be dust"
  let transaction := sourceFundingTransaction source [] statechainScript changeScript amountSat 0
  let transaction ← setWitness transaction 0 [List.replicate 64 0]
  let feeSat ← (checkedFee feeRateSatVb (P.vsize transaction)).context "funding fee overflow"
  ensure (feeSat ≤ maxFeeSat) s!"funding fee {feeSat} sat exceeds maximum {maxFeeSat} sat"
  let changeSat ← ((checkedSub source.output.value amountSat).bind (checkedSub · feeSat)).context
    "funding input cannot cover amount and fee"
  let change ← MayPanic.index transaction.output 1
  ensure (P.minimalNonDust change.scriptPubkey ≤ changeSat)
    "funding input does not leave dust-safe change"
  let transaction ← setValue transaction 1 changeSat
  let sighash ← (P.keySpendSighash transaction.stripWitness 0 [source.output]).context
    "compute funding transaction sighash"
  let tweaked := P.tapTweak sourceSecret
  let signature := P.signSchnorr tweaked sighash
  ensure (P.verifySchnorr signature sighash (P.xOnlyPublicKey tweaked) = true)
    "verify funding transaction signature"
  let transaction ← setWitness transaction 0 [P.signatureBytes signature]
  validateFundingInputs transaction
  return { transaction, outpoint := { txid := P.computeTxid transaction, vout := 0 }, feeSat }

/-- `build_source_funding`, with a library that knows trees of one leaf. -/
def buildSourceFunding (keys : CoinKeys P) (network : NetworkId) (sourceSecret : P.SecretKey)
    (source : SourceUtxo P) (amountSat feeRateSatVb maxFeeSat : Nat) :
    MayPanic String (PreparedSourceFunding P) :=
  (Library.oneLeaf P).buildSourceFunding keys network sourceSecret source amountSat feeRateSatVb
    maxFeeSat

/-- `build_source_sweep`. -/
def buildSourceSweep (network : NetworkId) (sourceSecret : P.SecretKey)
    (sources : List (SourceUtxo P)) (destination : String) (feeRateSatVb maxFeeSat : Nat) :
    MayPanic String (PreparedSourceSweep P) := do
  ensure (sources ≠ []) "source sweep has no inputs"
  ensure (sources.length ≤ 100) "source sweep exceeds 100 inputs"
  ensure (0 < feeRateSatVb) "source sweep fee rate must be positive"
  let destination ← (P.addressFromStr destination).context "invalid source sweep destination"
  ensure (P.addressOnNetwork destination network = true)
    "source sweep destination is for the wrong network"
  let expectedScript := P.addressScript (sourceFundingAddress sourceSecret network)
  ensure (P.addressScript destination ≠ expectedScript)
    "source sweep destination cannot be the deposit address"
  let sources := sortSources sources
  checkAll (fun source : SourceUtxo P => do
    ensure (0 < source.confirmations) "source sweep input is not confirmed"
    ensure (source.coinbase = false) "coinbase source sweep inputs are not supported"
    ensure (P.isNull source.outpoint = false) "source sweep cannot spend a coinbase input"
    ensure (source.output.scriptPubkey = expectedScript)
      "source sweep input does not belong to the local deposit key") sources
  let distinct ← MayPanic.all (fun pair => do
    let first ← MayPanic.index pair 0
    let second ← MayPanic.index pair 1
    return decide (first.outpoint ≠ second.outpoint)) (MayPanic.slices sources)
  ensure (distinct = true) "source sweep contains a duplicate input"
  let inputSat ← (sources.foldlM (fun total source =>
    (checkedAdd u64Max total source.output.value).context
      "source sweep input amount overflow") 0 : Except String Nat)
  let transaction := sourceSweepTransaction (sources.map (sourceInput placeholderWitness))
    (P.addressScript destination) 0
  let feeSat ← (checkedFee feeRateSatVb (P.vsize transaction)).context "source sweep fee overflow"
  ensure (feeSat ≤ maxFeeSat) s!"source sweep fee {feeSat} sat exceeds maximum {maxFeeSat} sat"
  let outputSat ← (checkedSub inputSat feeSat).context "source sweep fee exceeds its inputs"
  let output ← MayPanic.index transaction.output 0
  ensure (P.minimalNonDust output.scriptPubkey ≤ outputSat) "source sweep output would be dust"
  let transaction ← setValue transaction 0 outputSat
  let tweaked := P.tapTweak sourceSecret
  let signatures ← ((List.range transaction.input.length).mapM fun index => do
    let sighash ← (P.keySpendSighash transaction.stripWitness index
      (sources.map SourceUtxo.output)).context "compute source sweep sighash"
    let signature := P.signSchnorr tweaked sighash
    ensure (P.verifySchnorr signature sighash (P.xOnlyPublicKey tweaked) = true)
      "verify source sweep signature"
    pure signature : Except String (List P.Signature))
  let transaction : P.Tx := { transaction with
    input := transaction.input.zipWith (fun input signature =>
      { input with witness := [P.signatureBytes signature] }) signatures }
  validateFundingInputs transaction
  return { transaction, feeSat }

/-- `build_exit_child`. -/
def buildExitChild (recovery : SignedRecovery P) (amountSat : Nat) (withdrawalSecret : P.SecretKey)
    (destination : Script) (feeRateSatVb : Nat) : MayPanic Client.Error P.Tx := do
  let parent := recovery.transaction
  ensure (parent.input.length = 1 ∧ parent.output.length = 1)
    Client.Error.transactionMismatch
  let internal := P.xOnlyPublicKey withdrawalSecret
  ensure (internal = recovery.withdrawalXonlyPubkey) Client.Error.withdrawalKeyMismatch
  let spentOutput ← parent.output.head?.context Client.Error.transactionMismatch
  ensure (spentOutput.value = amountSat ∧ spentOutput.scriptPubkey = P.newP2tr internal)
    Client.Error.transactionMismatch
  let transaction := exitChild parent amountSat destination []
  let transaction ← setWitness transaction 0 [List.replicate 64 0]
  let packageVsize ← MayPanic.add 64 (P.vsize parent) (P.vsize transaction)
  let feeSat ← MayPanic.mul 128 feeRateSatVb packageVsize
  let outputSat ← ((checkedSub amountSat feeSat).bind toU64).context Client.Error.dustOutput
  let output ← MayPanic.index transaction.output 0
  ensure (P.minimalNonDust output.scriptPubkey ≤ outputSat) Client.Error.dustOutput
  let transaction ← setValue transaction 0 outputSat
  let sighash ← (P.keySpendSighash transaction.stripWitness 0 [spentOutput]).context
    Client.Error.sighash
  let tweaked := P.tapTweak withdrawalSecret
  let signature := P.signSchnorr tweaked sighash
  verifySignature signature sighash (P.xOnlyPublicKey tweaked) .invalidClientSignature
  setWitness transaction 0 [P.signatureBytes signature]

/-- The fee that the child of an exit pays: `amount_sat.checked_sub(child.output[0].value)`. -/
def exitFee (metadata : CoinMetadata P) (child : P.Tx) : MayPanic String Nat := do
  let output ← MayPanic.index child.output 0
  (checkedSub metadata.amountSat output.value).context "exit fee exceeds the coin amount"

/-! ## Sweeps -/

namespace SourceSweepJournal

/-- `SourceSweepJournal::prepare`. -/
def prepare (sourceSecret : P.SecretKey) (network : NetworkId) (sources : List (SourceUtxo P))
    (destination : String) (feeRateSatVb maxFeeSat : Nat) :
    MayPanic String (SourceSweepJournal P) := do
  let sources := sortSources sources
  let address ← (P.addressFromStr destination).context "invalid source sweep destination"
  ensure (P.addressOnNetwork address network = true)
    "source sweep destination is for the wrong network"
  let destination := P.addressToString address
  let prepared ← buildSourceSweep network sourceSecret sources destination feeRateSatVb maxFeeSat
  return {
    formatVersion := fileFormatVersion
    network
    destination
    sources
    feeRateSatVb
    maxFeeSat
    feeSat := prepared.feeSat
    transaction := prepared.transaction
    stage := .prepared }

/-- `SourceSweepJournal::validate`. -/
def validate (self : SourceSweepJournal P) (sourceSecret : P.SecretKey) :
    MayPanic String Unit := do
  ensure (self.formatVersion = fileFormatVersion)
    s!"unsupported source sweep version {self.formatVersion}"
  let expected ← buildSourceSweep self.network sourceSecret self.sources self.destination
    self.feeRateSatVb self.maxFeeSat
  ensure (expected.feeSat = self.feeSat ∧ expected.transaction = self.transaction)
    "saved source sweep is not canonical"

/-- `SourceSweepJournal::arm_submission`. -/
def armSubmission (self : SourceSweepJournal P) (sourceSecret : P.SecretKey) :
    MayPanic String (SourceSweepJournal P) := do
  validate self sourceSecret
  return { self with stage := .submissionArmed }

/-- `SourceSweepJournal::mark_observed`. -/
def markObserved (self : SourceSweepJournal P) (sourceSecret : P.SecretKey) (observed : P.Tx) :
    MayPanic String (SourceSweepJournal P) := do
  validate self sourceSecret
  ensure (self.stage = .submissionArmed) "source sweep was not armed for submission"
  ensure (observed = self.transaction)
    "observed source sweep bytes do not match the saved transaction"
  return { self with stage := .observed }

end SourceSweepJournal

/-! ## Exits -/

namespace Library

variable (lib : Library P)

/-- `verify_observed_funding_output`. -/
def verifyObservedFundingOutput (metadata : CoinMetadata P) (observed : ObservedFunding P)
    (minimumConfirmations : Nat) : MayPanic String Unit := do
  ensure (observed.outpoint = metadata.outpoint) "observed funding output has the wrong outpoint"
  lift (lib.verifyFundingUtxo metadata observed.outpoint observed.output)
  ensure (minimumConfirmations ≤ observed.confirmations)
    s!"funding output has {observed.confirmations} confirmations; {minimumConfirmations} required"
  ensure (observed.coinbase = false ∨ 100 ≤ observed.confirmations)
    "coinbase funding output is not mature"

/-- `verify_exit_funding`. -/
def verifyExitFunding (coin : WalletCoin P) (observed : ObservedFunding P)
    (minimumConfirmations : Nat) (spendingTxid : Option P.Txid) (spendingConfirmed : Bool)
    (savedExitParent : Option P.Txid) : MayPanic String Unit := do
  let metadata ← coin.metadata.context "coin has no verified funding"
  lib.verifyObservedFundingOutput metadata observed minimumConfirmations
  if observed.unspent then return () else do
  let spendingTxid ← spendingTxid.context "spent funding output has no spending txid"
  let spendingIndex ← (recoveryIndex coin.history spendingTxid).context
    "funding output was spent by an unknown transaction"
  let ownedIndex ← coin.withdrawalRecoveryIndex.context "wallet has no owned recovery"
  ensure (spendingIndex ≤ ownedIndex) "a newer owner's recovery is already in the mempool"
  let knownRecovery ← MayPanic.index coin.history spendingIndex
  lift (lib.verifyRecovery metadata knownRecovery)
  ensure (spendingConfirmed = false ∨
      (spendingIndex = ownedIndex ∧ ∀ parent ∈ savedExitParent, parent = spendingTxid))
    "a different recovery has already confirmed"

/-- `owned_recovery`. -/
def ownedRecovery (coin : WalletCoin P) (network : NetworkId) :
    MayPanic String (CoinMetadata P × SignedRecovery P × P.SecretKey) := do
  let metadata ← coin.metadata.context "coin has no verified funding"
  ensure (metadata.network = network) "exit network mismatch"
  ensure (∀ funding ∈ coin.funding, funding.stage = .broadcast) "funding has not been broadcast"
  let withdrawalSecret ← WalletState.ownedWithdrawalKey coin
  let index ← coin.withdrawalRecoveryIndex.context "wallet has no owned recovery"
  let recovery ← coin.history[index]?.context "owned recovery index is invalid"
  ensure (recovery.withdrawalXonlyPubkey = secretXonly withdrawalSecret)
    "saved withdrawal key does not match owned recovery"
  lift (lib.verifyRecovery metadata recovery)
  return (metadata, recovery, withdrawalSecret)

namespace ExitPackage

/-- `ExitPackage::validate`. -/
def validate (self : ExitPackage P) (coin : WalletCoin P) : MayPanic String Unit := do
  ensure (self.formatVersion = fileFormatVersion)
    s!"unsupported exit package version {self.formatVersion}"
  ensure (0 < self.feeRateSatVb) "exit fee rate must be positive"
  let destination ← parseDestination self.network self.destination
    "invalid saved exit destination" "saved exit destination is for the wrong network"
  let (metadata, recovery, withdrawalSecret) ← lib.ownedRecovery coin self.network
  ensure (recovery.delayBlocks = self.recoveryDelayBlocks ∧ recovery.transaction = self.parent)
    "saved exit parent does not match the owned recovery"
  let expectedChild ← lift (buildExitChild recovery metadata.amountSat withdrawalSecret
    (P.addressScript destination) self.feeRateSatVb)
  ensure (expectedChild = self.child) "saved exit child is not canonical"
  let feeSat ← exitFee metadata self.child
  ensure (feeSat = self.feeSat) "saved exit fee is inconsistent"
  ensure (feeSat ≤ self.maxFeeSat)
    s!"exit fee {feeSat} sat exceeds maximum {self.maxFeeSat} sat"

/-- `ExitPackage::prepare`. -/
def prepare (coin : WalletCoin P) (network : NetworkId) (destination : String)
    (fundingConfirmations feeRateSatVb maxFeeSat : Nat) : MayPanic String (ExitPackage P) := do
  ensure (0 < feeRateSatVb) "exit fee rate must be positive"
  let address ← parseDestination network destination "invalid destination address"
    "destination address is for the wrong network"
  let (metadata, recovery, withdrawalSecret) ← lib.ownedRecovery coin network
  ensure (recovery.delayBlocks ≤ fundingConfirmations)
    s!"recovery is not final until funding has {recovery.delayBlocks} confirmations (currently {fundingConfirmations})"
  let child ← lift (buildExitChild recovery metadata.amountSat withdrawalSecret
    (P.addressScript address) feeRateSatVb)
  let feeSat ← exitFee metadata child
  ensure (feeSat ≤ maxFeeSat) s!"exit fee {feeSat} sat exceeds maximum {maxFeeSat} sat"
  let package : ExitPackage P := {
    formatVersion := fileFormatVersion
    network
    destination := P.addressToString address
    feeRateSatVb
    maxFeeSat
    feeSat
    recoveryDelayBlocks := recovery.delayBlocks
    parent := recovery.transaction
    child }
  validate lib package coin
  return package

end ExitPackage

namespace ExitJournal

/-- `ExitJournal::prepare`. -/
def prepare (coin : WalletCoin P) (network : NetworkId) (destination : String)
    (fundingConfirmations feeRateSatVb maxFeeSat : Nat) : MayPanic String (ExitJournal P) := do
  let package ← ExitPackage.prepare lib coin network destination fundingConfirmations feeRateSatVb
    maxFeeSat
  return { package, stage := .prepared }

/-- `ExitJournal::validate`. -/
def validate (self : ExitJournal P) (coin : WalletCoin P) : MayPanic String Unit :=
  ExitPackage.validate lib self.package coin

/-- `ExitJournal::arm_submission`. -/
def armSubmission (self : ExitJournal P) (coin : WalletCoin P) :
    MayPanic String (ExitJournal P) := do
  validate lib self coin
  return { self with stage := .submissionArmed }

/-- `ExitJournal::validate_observed_parent`. -/
def validateObservedParent (self : ExitJournal P) (coin : WalletCoin P) (parent : P.Tx) :
    MayPanic String Unit := do
  validate lib self coin
  ensure (P.computeTxid parent = P.computeTxid self.package.parent)
    "observed exit parent has the wrong txid"
  let (metadata, recovery, _) ← lib.ownedRecovery coin self.package.network
  lift (lib.verifyRecovery metadata { recovery with transaction := parent })

/-- `ExitJournal::mark_observed`. -/
def markObserved (self : ExitJournal P) (coin : WalletCoin P) (parent child : P.Tx) :
    MayPanic String (ExitJournal P) := do
  validate lib self coin
  ensure (self.stage = .submissionArmed) "exit package was not armed for submission"
  validateObservedParent lib self coin parent
  ensure (child = self.package.child) "observed exit child bytes do not match the saved package"
  return { self with stage := .observed }

end ExitJournal

end Library

/-- `ExitPackage::prepare`, with a library that knows trees of one leaf. -/
def ExitPackage.prepare (coin : WalletCoin P) (network : NetworkId) (destination : String)
    (fundingConfirmations feeRateSatVb maxFeeSat : Nat) : MayPanic String (ExitPackage P) :=
  Library.ExitPackage.prepare (Library.oneLeaf P) coin network destination fundingConfirmations
    feeRateSatVb maxFeeSat

end Tinylayer.Machine
