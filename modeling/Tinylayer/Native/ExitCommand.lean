import Tinylayer.Lib.MayPanic
import Tinylayer.Native.FundCommand

/-!
# Exiting a coin

`coin exit` of `wallet/src/cli.rs`: the owned recovery and the child that pays for it are journaled
as one package, armed, and submitted.
-/

namespace Tinylayer

open Durable

variable {P : Platform}

/-- The saved state with another exit journal. -/
def NativeWalletState.withExit (self : NativeWalletState P) (journal : ExitJournal P) :
    NativeWalletState P :=
  { self with exit := some journal }

/-- The arguments of an exit. -/
structure ExitPolicy where
  destination : String
  feeRate : Option Nat
  maxFeeSat : Nat

/-- The package was made with these arguments. -/
def ExitPolicy.Matches (policy : ExitPolicy) (package : ExitPackage P) : Prop :=
  package.destination = policy.destination ∧ package.maxFeeSat = policy.maxFeeSat ∧
    ∀ rate ∈ policy.feeRate, rate = package.feeRateSatVb

instance ExitPolicy.decidableMatches (policy : ExitPolicy) (package : ExitPackage P) :
    Decidable (policy.Matches package) :=
  inferInstanceAs (Decidable (_ ∧ _))

/-- `validate_saved_exit_policy`. -/
def validateSavedExitPolicy (coin : WalletCoin P) (journal : ExitJournal P) (policy : ExitPolicy) :
    Except String Unit := do
  journal.validate coin
  ensure (policy.Matches journal.package) "saved exit policy does not match this command"

/-- `emit_exit`. -/
def emitExit (journal : ExitJournal P) (existing : Bool) : Report P :=
  .exit existing (P.computeTxid journal.package.parent) (P.computeTxid journal.package.child)
    journal.package.destination journal.package.feeSat

/-- Arms the saved exit. -/
def armExit (config : Config) (native : NativeWalletState P) (coin : WalletCoin P)
    (journal : ExitJournal P) : Cli P (ExitJournal P) := do
  let journal ← Program.of (journal.armSubmission coin)
  saveNative config (native.withExit journal)
  return journal

/-- The part of `mark_exit_observed` that arms an exit that was only prepared. -/
def armPreparedExit (config : Config) (native : NativeWalletState P) (coin : WalletCoin P)
    (journal : ExitJournal P) : Cli P (ExitJournal P) :=
  match journal.stage with
  | .prepared => armExit config native coin journal
  | _ => return journal

/-- `mark_exit_observed`. -/
def markExitObserved (config : Config) (native : NativeWalletState P) (coin : WalletCoin P)
    (journal : ExitJournal P) (existing : Bool) : Cli P (Report P) := do
  let journal ← armPreparedExit config native coin journal
  match journal.stage with
  | .observed => return emitExit journal existing
  | _ => do
    let journal ← Program.of
      (journal.markObserved coin journal.package.parent journal.package.child)
    saveNative config (native.withExit journal)
    return emitExit journal existing

/-! ## What the chain shows -/

structure ExitPresence where
  parent : Bool
  complete : Bool

/-- The lookup of an exit transaction: Bitcoin Core can also prove one by its outputs, once the
package was armed. -/
def observeExitTransaction (config : Config) (journal : ExitJournal P) (transaction : P.Tx) :
    Cli P (Option (TransactionObservation P)) := do
  let observed ← call (.transaction (P.computeTxid transaction))
  if observed.isNone = true ∧ config.chain.isExplorer = false ∧ journal.stage ≠ .prepared then
    call (.observeAuthorizedTransaction transaction)
  else
    return observed

/-- The parent that an observed child proves to be there. -/
def impliedParent (config : Config) (journal : ExitJournal P)
    (parent child : Option (TransactionObservation P)) : Option (TransactionObservation P) :=
  if config.chain.isExplorer = false ∧ journal.stage ≠ .prepared then
    parent <|> child.map fun child => {
      transaction := journal.package.parent
      tipHeight := child.tipHeight
      confirmations := child.confirmations
      rawBytesObserved := false }
  else
    parent

/-- `observe_exit_package`. -/
def observeExitPackage (config : Config) (journal : ExitJournal P) (coin : WalletCoin P) :
    Cli P ExitPresence := do
  let child ← observeExitTransaction config journal journal.package.child
  let parent ← observeExitTransaction config journal journal.package.parent
  let parent := impliedParent config journal parent child
  Program.of (match parent with
    | some parent => journal.validateObservedParent coin parent.transaction
    | none => .ok ())
  match child, parent with
  | some child, parent => do
    Program.of do
      ensure (child.rawBytesObserved = false ∨ child.transaction = journal.package.child)
        "observed exit child bytes do not match the saved package"
      ensure (parent.isSome = true) "exit child is visible without its parent"
    return { parent := parent.isSome, complete := parent.isSome }
  | none, some _ => do
    let outspend ← call (.outspend { txid := P.computeTxid journal.package.parent, vout := 0 })
    Program.of (ensure (outspend.spent = false) "exit parent is spent by an unknown transaction")
    return { parent := true, complete := false }
  | none, none => return { parent := false, complete := false }

/-- The loop of `exit_coin_journaled` over the recoveries of the coin, for the first one that the
chain shows. -/
def findSpendingRecovery (metadata : CoinMetadata P) :
    List (SignedRecovery P) → Cli P (Option (P.Txid × Bool))
  | [] => return none
  | recovery :: history => do
    let txid := P.computeTxid recovery.transaction
    match ← call (.transaction txid) with
    | none => findSpendingRecovery metadata history
    | some observed => do
      Program.of (Client.lift
        (verifyRecovery metadata { recovery with transaction := observed.transaction }))
      return some (txid, decide (0 < observed.confirmations))

/-- The parent of a package, or else its child, as Bitcoin Core proves it by its outputs. -/
def observeAuthorizedPackage (package : ExitPackage P) :
    Cli P (Option (TransactionObservation P)) := do
  match ← call (.observeAuthorizedTransaction package.parent) with
  | some parent => return some parent
  | none => call (.observeAuthorizedTransaction package.child)

/-- The part of `exit_coin_journaled` that asks Bitcoin Core for the armed package. -/
def findAuthorizedExit (config : Config) (exit : Option (ExitJournal P)) :
    Cli P (Option (P.Txid × Bool)) := do
  match exit.filter fun journal => config.chain.isExplorer = false ∧ journal.stage ≠ .prepared with
  | none => return none
  | some journal => do
    let found ← observeAuthorizedPackage journal.package
    return found.map fun observed =>
      (P.computeTxid journal.package.parent, decide (0 < observed.confirmations))

/-- What spends the funding, and whether it is confirmed. -/
def findSpending (config : Config) (metadata : CoinMetadata P) (coin : WalletCoin P)
    (exit : Option (ExitJournal P)) : Cli P (Option (P.Txid × Bool)) := do
  match ← findSpendingRecovery metadata coin.history with
  | some spending => return some spending
  | none => findAuthorizedExit config exit

/-- The part of `exit_coin_journaled` that observes the funding and the transaction that spends
it. -/
def observeExitFunding (config : Config) (metadata : CoinMetadata P) (coin : WalletCoin P)
    (exit : Option (ExitJournal P)) : Cli P (DetailedFundingObservation P) := do
  let observation ← call (.observeFunding metadata)
  if observation.funding.unspent = false ∧ observation.spendingTxid = none then do
    match ← findSpending config metadata coin exit with
    | some (txid, confirmed) => return { observation with
        spendingTxid := some txid
        spendingConfirmed := confirmed }
    | none => return observation
  else
    return observation

/-! ## The command -/

/-- Sends the package, or only the child if the parent is there. -/
def sendExit (journal : ExitJournal P) (parent : Bool) : Cli P Unit := do
  if parent = true then do
    let _ ← call (.broadcastExact journal.package.child)
    return ()
  else
    call (.submitPackage (P.serializeHex journal.package.parent)
      (P.serializeHex journal.package.child))

/-- Arms the saved exit, sends it, and marks it as observed. -/
def submitExit (config : Config) (native : NativeWalletState P) (coin : WalletCoin P)
    (journal : ExitJournal P) (parent : Bool) : Cli P (Report P) := do
  let journal ← armExit config native coin journal
  sendExit journal parent
  let presence ← observeExitPackage config journal coin
  Program.of (ensure (presence.complete = true)
    "submitted exit package is not yet fully observable; rerun the command")
  markExitObserved config (native.withExit journal) coin journal false

/-- The part of `exit_coin_journaled` for an exit that was armed before; nothing if the chain does
not show its parent. -/
def resumeExit (config : Config) (native : NativeWalletState P) (policy : ExitPolicy) :
    Cli P (Option (Report P)) := do
  match native.exit.filter fun journal => journal.stage ≠ .prepared with
  | none => return none
  | some journal => do
    let coin ← Program.of (native.wallet.coin.context "wallet has no coin")
    Program.of (validateSavedExitPolicy coin journal policy)
    let presence ← observeExitPackage config journal coin
    if presence.complete = true then do
      let report ← markExitObserved config native coin journal true
      return some report
    else if presence.parent = true then do
      let report ← submitExit config native coin journal true
      return some report
    else
      return none

/-- The fee rate of an exit. -/
def exitFeeRate (policy : ExitPolicy) : Cli P Nat :=
  match policy.feeRate with
  | some rate => return rate
  | none => call .recommendedFeeRate

/-- The part of `exit_coin_journaled` that journals a package, if there is none or a prepared one
with other arguments. -/
def prepareExit (config : Config) (native : NativeWalletState P) (coin : WalletCoin P)
    (policy : ExitPolicy) (confirmations : Nat) : Cli P (ExitJournal P) := do
  match native.exit.filter fun journal =>
      journal.stage ≠ .prepared ∨ policy.Matches journal.package with
  | some journal => return journal
  | none => do
    let rate ← exitFeeRate policy
    let journal ← Program.of (ExitJournal.prepare coin config.network policy.destination
      confirmations rate policy.maxFeeSat)
    saveNative config (native.withExit journal)
    return journal

/-- The part of `exit_coin_journaled` that goes on with the saved package. -/
def finishExit (config : Config) (native : NativeWalletState P) (coin : WalletCoin P)
    (journal : ExitJournal P) (policy : ExitPolicy) (confirmations : Nat) : Cli P (Report P) := do
  Program.of (validateSavedExitPolicy coin journal policy)
  let presence ← observeExitPackage config journal coin
  if presence.complete = true then
    markExitObserved config native coin journal true
  else do
    Program.of (ensure (journal.package.recoveryDelayBlocks ≤ confirmations)
      s!"recovery is not final until funding has {journal.package.recoveryDelayBlocks} confirmations (currently {confirmations})")
    submitExit config native coin journal presence.parent

/-- `exit_coin_journaled`. -/
def exitCoinJournaled (config : Config) (native : NativeWalletState P) (destination : String)
    (feeRate : Option Nat) (maxFeeSat : Nat) : Cli P (Report P) := do
  let address ← Program.of (parseDestination config.network destination
    "invalid destination address" "destination address is for the wrong network")
  let policy : ExitPolicy := { destination := P.addressToString address, feeRate, maxFeeSat }
  connectChain config
  let (coin, metadata) ← Program.of do
    let coin ← native.wallet.coin.context "coin has no verified funding"
    let metadata ← coin.metadata.context "coin has no verified funding"
    return (coin, metadata)
  match ← resumeExit config native policy with
  | some report => return report
  | none => do
    let observation ← observeExitFunding config metadata coin native.exit
    Program.of (verifyExitFunding coin observation.funding 1 observation.spendingTxid
      observation.spendingConfirmed
      (native.exit.map fun exit => P.computeTxid exit.package.parent))
    let journal ← prepareExit config native coin policy observation.funding.confirmations
    finishExit config (native.withExit journal) coin journal policy
      observation.funding.confirmations

/-- `emit_saved_exit_package`. -/
def emitSavedExitPackage (config : Config) (native : NativeWalletState P) (journal : ExitJournal P)
    (destination : String) (feeRate : Option Nat) (maxFeeSat : Nat) :
    Except String (Report P) := do
  let address ← parseDestination config.network destination "invalid destination address"
    "destination address is for the wrong network"
  let coin ← native.wallet.coin.context "wallet has no coin"
  validateSavedExitPolicy coin journal
    { destination := P.addressToString address, feeRate, maxFeeSat }
  return .exitPrepared journal.package.parent journal.package.child journal.package.destination
    journal.package.feeRateSatVb journal.package.feeSat

/-- The recovery that the dry run of `exit_coin` starts from, with its key and the destination. -/
def dryRunRecovery (config : Config) (wallet : WalletState P) (destination : String) :
    Except String (CoinMetadata P × SignedRecovery P × P.SecretKey × P.Address) := do
  let coin ← wallet.coin.context "wallet has no coin"
  let metadata ← coin.metadata.context "coin has no verified funding"
  let withdrawalSecret ← WalletState.ownedWithdrawalKey coin
  let index ← coin.withdrawalRecoveryIndex.context "wallet has no owned recovery"
  let recovery ← coin.history[index]?.context "owned recovery index is invalid"
  ensure (secretXonly withdrawalSecret = recovery.withdrawalXonlyPubkey)
    "saved withdrawal key does not match owned recovery"
  Client.lift (verifyRecovery metadata recovery)
  ensure (∀ funding ∈ coin.funding, funding.stage = .broadcast) "funding has not been broadcast"
  let address ← parseDestination config.network destination "invalid destination address"
    "destination address is for the wrong network"
  return (metadata, recovery, withdrawalSecret, address)

/-- The fee of the dry run. The subtraction is not checked. -/
def dryRunFee (metadata : CoinMetadata P) (child : P.Tx) : MayPanic String Nat := do
  let output ← MayPanic.index child.output 0
  MayPanic.sub metadata.amountSat output.value

/-- The package that the dry run prints. -/
def dryRunPackage (metadata : CoinMetadata P) (recovery : SignedRecovery P)
    (withdrawalSecret : P.SecretKey) (address : P.Address) (rate maxFeeSat : Nat) :
    MayPanic String (Report P) := do
  ensure (0 < rate) "exit fee rate must be positive"
  let child ← Client.lift (buildExitChild recovery metadata.amountSat withdrawalSecret
    (P.addressScript address) rate)
  let feeSat ← dryRunFee metadata child
  ensure (feeSat ≤ maxFeeSat) s!"exit fee {feeSat} sat exceeds maximum {maxFeeSat} sat"
  return .exitPrepared recovery.transaction child (P.addressToString address) rate feeSat

/-- The part of `exit_coin` that only prints a package. A panic ends the command like a failure. -/
def exitCoinDryRun (config : Config) (wallet : WalletState P) (destination : String)
    (feeRate : Option Nat) (maxFeeSat : Nat) : Cli P (Report P) := do
  let (metadata, recovery, withdrawalSecret, address) ←
    Program.of (dryRunRecovery config wallet destination)
  connectChain config
  let observation ← call (.verifyFunding metadata 1)
  Program.of (ensure (recovery.delayBlocks ≤ observation.confirmations)
    s!"recovery is not final until funding has {recovery.delayBlocks} confirmations (currently {observation.confirmations})")
  let rate ← exitFeeRate { destination, feeRate, maxFeeSat }
  Program.of ((dryRunPackage metadata recovery withdrawalSecret address rate maxFeeSat).orElse
    "attempt to subtract with overflow")

/-- `exit_coin`. -/
def exitCoin (config : Config) (destination : String) (feeRate : Option Nat) (maxFeeSat : Nat)
    (dryRun : Bool) : Cli P (Report P) := do
  openWallet config
  let native ← loadNative config
  Program.of (ensure (native.wallet.pending.isNone = true)
    "wallet has a pending operation; finish it before exiting")
  match dryRun, native.exit with
  | true, some journal =>
    Program.of (emitSavedExitPackage config native journal destination feeRate maxFeeSat)
  | true, none => exitCoinDryRun config native.wallet destination feeRate maxFeeSat
  | false, _ => exitCoinJournaled config native destination feeRate maxFeeSat

end Tinylayer
