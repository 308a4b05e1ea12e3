import Tinylayer.Wallet.State

/-!
# Exits

The exit package of `wallet-core/src/exit.rs`, a recovery with the child that pays for it, and the
journal that binds the wallet to one package.
-/

namespace Tinylayer

variable {P : Platform}

/-- The index of the first recovery with the given transaction id. -/
def recoveryIndex (history : List (SignedRecovery P)) (txid : P.Txid) : Option Nat :=
  history.findIdx? fun recovery => P.computeTxid recovery.transaction = txid

/-- `verify_exit_funding`. -/
def verifyExitFunding (coin : WalletCoin P) (observed : ObservedFunding P)
    (minimumConfirmations : Nat) (spendingTxid : Option P.Txid) (spendingConfirmed : Bool)
    (savedExitParent : Option P.Txid) : Except String Unit := do
  let metadata ← coin.metadata.context "coin has no verified funding"
  verifyObservedFundingOutput metadata observed minimumConfirmations
  if observed.unspent then return () else do
  let spendingTxid ← spendingTxid.context "spent funding output has no spending txid"
  let spendingIndex ← (recoveryIndex coin.history spendingTxid).context
    "funding output was spent by an unknown transaction"
  let ownedIndex ← coin.withdrawalRecoveryIndex.context "wallet has no owned recovery"
  ensure (spendingIndex ≤ ownedIndex) "a newer owner's recovery is already in the mempool"
  let knownRecovery ← coin.history[spendingIndex]?.context
    "funding output was spent by an unknown transaction"
  Client.lift (verifyRecovery metadata knownRecovery)
  ensure (spendingConfirmed = false ∨
      (spendingIndex = ownedIndex ∧ ∀ parent ∈ savedExitParent, parent = spendingTxid))
    "a different recovery has already confirmed"

/-- `owned_recovery`. -/
def ownedRecovery (coin : WalletCoin P) (network : NetworkId) :
    Except String (CoinMetadata P × SignedRecovery P × P.SecretKey) := do
  let metadata ← coin.metadata.context "coin has no verified funding"
  ensure (metadata.network = network) "exit network mismatch"
  ensure (∀ funding ∈ coin.funding, funding.stage = .broadcast) "funding has not been broadcast"
  let withdrawalSecret ← WalletState.ownedWithdrawalKey coin
  let index ← coin.withdrawalRecoveryIndex.context "wallet has no owned recovery"
  let recovery ← coin.history[index]?.context "owned recovery index is invalid"
  ensure (recovery.withdrawalXonlyPubkey = secretXonly withdrawalSecret)
    "saved withdrawal key does not match owned recovery"
  Client.lift (verifyRecovery metadata recovery)
  return (metadata, recovery, withdrawalSecret)

variable (P) in
structure ExitPackage where
  formatVersion : Nat
  network : NetworkId
  destination : String
  feeRateSatVb : Nat
  maxFeeSat : Nat
  feeSat : Nat
  recoveryDelayBlocks : Nat
  parent : P.Tx
  child : P.Tx
deriving DecidableEq

/-- `destination`, an address of `network`. -/
def parseDestination (network : NetworkId) (destination invalid wrongNetwork : String) :
    Except String P.Address := do
  let address ← (P.addressFromStr destination).context invalid
  ensure (P.addressOnNetwork address network = true) wrongNetwork
  return address

/-- The fee that the child of an exit pays. -/
def exitFee (metadata : CoinMetadata P) (child : P.Tx) : Except String Nat := do
  let output ← child.output.head?.context "exit fee exceeds the coin amount"
  (checkedSub metadata.amountSat output.value).context "exit fee exceeds the coin amount"

namespace ExitPackage

/-- `ExitPackage::validate`. -/
def validate (self : ExitPackage P) (coin : WalletCoin P) : Except String Unit := do
  ensure (self.formatVersion = fileFormatVersion)
    s!"unsupported exit package version {self.formatVersion}"
  ensure (0 < self.feeRateSatVb) "exit fee rate must be positive"
  let destination ← parseDestination self.network self.destination
    "invalid saved exit destination" "saved exit destination is for the wrong network"
  let (metadata, recovery, withdrawalSecret) ← ownedRecovery coin self.network
  ensure (recovery.delayBlocks = self.recoveryDelayBlocks ∧ recovery.transaction = self.parent)
    "saved exit parent does not match the owned recovery"
  let expectedChild ← Client.lift (buildExitChild recovery metadata.amountSat withdrawalSecret
    (P.addressScript destination) self.feeRateSatVb)
  ensure (expectedChild = self.child) "saved exit child is not canonical"
  let feeSat ← exitFee metadata self.child
  ensure (feeSat = self.feeSat) "saved exit fee is inconsistent"
  ensure (feeSat ≤ self.maxFeeSat)
    s!"exit fee {feeSat} sat exceeds maximum {self.maxFeeSat} sat"

/-- `ExitPackage::prepare`. -/
def prepare (coin : WalletCoin P) (network : NetworkId) (destination : String)
    (fundingConfirmations feeRateSatVb maxFeeSat : Nat) : Except String (ExitPackage P) := do
  ensure (0 < feeRateSatVb) "exit fee rate must be positive"
  let address ← parseDestination network destination "invalid destination address"
    "destination address is for the wrong network"
  let (metadata, recovery, withdrawalSecret) ← ownedRecovery coin network
  ensure (recovery.delayBlocks ≤ fundingConfirmations)
    s!"recovery is not final until funding has {recovery.delayBlocks} confirmations (currently {fundingConfirmations})"
  let child ← Client.lift (buildExitChild recovery metadata.amountSat withdrawalSecret
    (P.addressScript address) feeRateSatVb)
  let feeSat ← exitFee metadata child
  ensure (feeSat ≤ maxFeeSat) s!"exit fee {feeSat} sat exceeds maximum {maxFeeSat} sat"
  let package : ExitPackage P := {
    formatVersion := fileFormatVersion
    network
    destination := P.addressToString address
    feeRateSatVb
    maxFeeSat
    feeSat
    recoveryDelayBlocks := recovery.delayBlocks
    parent := recovery.transaction
    child }
  package.validate coin
  return package

end ExitPackage

inductive ExitStage
  | prepared
  | submissionArmed
  | observed
deriving DecidableEq

variable (P) in
structure ExitJournal where
  package : ExitPackage P
  stage : ExitStage
deriving DecidableEq

namespace ExitJournal

/-- `ExitJournal::prepare`. -/
def prepare (coin : WalletCoin P) (network : NetworkId) (destination : String)
    (fundingConfirmations feeRateSatVb maxFeeSat : Nat) : Except String (ExitJournal P) := do
  let package ← ExitPackage.prepare coin network destination fundingConfirmations feeRateSatVb
    maxFeeSat
  return { package, stage := .prepared }

/-- `ExitJournal::validate`. -/
def validate (self : ExitJournal P) (coin : WalletCoin P) : Except String Unit :=
  self.package.validate coin

/-- `ExitJournal::arm_submission`. -/
def armSubmission (self : ExitJournal P) (coin : WalletCoin P) :
    Except String (ExitJournal P) := do
  self.validate coin
  return { self with stage := .submissionArmed }

/-- `ExitJournal::validate_observed_parent`. -/
def validateObservedParent (self : ExitJournal P) (coin : WalletCoin P) (parent : P.Tx) :
    Except String Unit := do
  self.validate coin
  ensure (P.computeTxid parent = P.computeTxid self.package.parent)
    "observed exit parent has the wrong txid"
  let (metadata, recovery, _) ← ownedRecovery coin self.package.network
  Client.lift (verifyRecovery metadata { recovery with transaction := parent })

/-- `ExitJournal::mark_observed`. -/
def markObserved (self : ExitJournal P) (coin : WalletCoin P) (parent child : P.Tx) :
    Except String (ExitJournal P) := do
  self.validate coin
  ensure (self.stage = .submissionArmed) "exit package was not armed for submission"
  self.validateObservedParent coin parent
  ensure (child = self.package.child) "observed exit child bytes do not match the saved package"
  return { self with stage := .observed }

end ExitJournal

end Tinylayer
