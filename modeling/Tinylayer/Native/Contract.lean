import Tinylayer.Native.Cli
import Tinylayer.Wallet.Invariant

/-!
# What the commands keep to

The invariant of the saved state, and what a command may save and submit in a given world. The
contract is about the log as well: a deposit is spent only if the chain has just listed it, an armed
sweep is replaced only after the chain has shown it, a pending operation is finished only after the
enclave has answered, and a transfer is signed only after it has passed its check.
-/

namespace Tinylayer

open Durable

variable {P : Platform} {E : Type}

/-- The saved funding. -/
def WalletState.funding (self : WalletState P) : Option (FundingJournal P) :=
  self.coin.bind WalletCoin.funding

/-- A transfer waits for its signature. -/
def WalletState.TransferPrepared (self : WalletState P) : Prop :=
  ∃ request attempt, self.pending = some (.recovery ⟨.transfer request, .prepared attempt⟩)

/-- The invariant of the saved state. -/
structure NativeInv (config : Config) (s : NativeWalletState P) : Prop where
  valid : s.validate config.network = .ok ()
  wallet : WalletInv s.wallet
  network : ∀ coin ∈ s.wallet.coin, ∀ metadata ∈ coin.metadata,
    metadata.network = config.network ∧ config.Supported
  funded : ∀ coin ∈ s.wallet.coin, ∀ metadata ∈ coin.metadata, ∀ funding ∈ coin.funding,
    metadata.outpoint.txid = P.computeTxid funding.transaction
  idle : s.exit.isSome = true → s.wallet.pending = none
  explorer : s.sourceSweep.isSome = true → config.chain.isExplorer = true
  journaled : config.chain.isExplorer = true → s.wallet.fundingStage = some .prepared →
    s.wallet.pending.isSome = true
  reserved : ∀ sweep ∈ s.sourceSweep, ∀ input ∈ s.fundingInputs,
    input ∉ spentOutputs sweep.transaction

/-! ## What the log shows -/

/-- The chain has just listed the output as confirmed and unspent. -/
def Listed (w : CliWorld P E) (outpoint : OutPoint P.Txid) : Prop :=
  ∃ event address sources, w.log.getLast? = some event ∧
    event.action = .asked (.confirmedSourceUtxos address) (.ok sources) ∧
    ∃ source ∈ sources, source.outpoint = outpoint

/-- The chain has shown the transaction with enough confirmations. -/
def Confirmed (config : Config) (w : CliWorld P E) (transaction : P.Tx) : Prop :=
  ∃ event ∈ w.log, ∃ observed : TransactionObservation P,
    event.action = .asked (.transaction (P.computeTxid transaction)) (.ok (some observed)) ∧
    observed.transaction = transaction ∧ config.minConfirmations ≤ observed.confirmations

/-- The enclave has answered. -/
def EnclaveAnswered (w : CliWorld P E) : Prop :=
  ∃ event ∈ w.log, ∃ (query : Query P) (answer : query.Answer),
    event.action = .asked query (.ok answer) ∧ query.ForEnclave

/-- The enclave and the chain have given answers with which the journaled transfer passes its
check. -/
def TransferChecked (config : Config) (w : CliWorld P E) : Prop :=
  ∃ metadata status observation, w.saved.wallet.coin.bind WalletCoin.metadata = some metadata ∧
    (∃ event ∈ w.log, event.action = .asked (.status metadata.keys.coinId) (.ok status)) ∧
    (∃ event ∈ w.log, event.action = .asked (.observeFunding metadata) (.ok observation)) ∧
    w.saved.wallet.validatePendingTransfer status observation.funding config.minConfirmations
      config.minReactionBlocks = .ok ()

/-! ## What may be saved -/

/-- The funding journal is made in its first stage, and goes on stage by stage. -/
inductive FundingStep : Option (FundingJournal P) → Option (FundingJournal P) → Prop
  | same (funding) : FundingStep funding funding
  | prepared {funding : FundingJournal P} (h : funding.stage = .prepared) :
      FundingStep none (some funding)
  | secured {funding : FundingJournal P} (h : funding.stage = .prepared) :
      FundingStep (some funding) (some { funding with stage := .recoverySecured })
  | broadcast {funding : FundingJournal P} (h : funding.stage = .recoverySecured) :
      FundingStep (some funding) (some { funding with stage := .broadcast })

/-- A change of the wallet itself. -/
structure WalletChange (config : Config) (w : CliWorld P E) (wallet : WalletState P) : Prop where
  exit : w.saved.exit = none
  evolves : Evolves w.saved.wallet wallet
  funding : FundingStep w.saved.wallet.funding wallet.funding
  listed : config.chain.isExplorer = true → w.saved.wallet.funding = none →
    ∀ funding ∈ wallet.funding, ∀ input ∈ spentOutputs funding.transaction, Listed w input
  answered : w.saved.wallet.pending.isSome = true ∨ w.saved.wallet.fundingStage = some .prepared →
    EnclaveAnswered w
  checked : w.saved.wallet.TransferPrepared → TransferChecked config w

/-- A change of the exit journal by a command with the given maximum fee. -/
inductive ExitStep (maxFeeSat : Nat) : Option (ExitJournal P) → ExitJournal P → Prop
  | prepare {saved : Option (ExitJournal P)} {journal : ExitJournal P}
      (hsaved : ∀ exit ∈ saved, exit.stage = .prepared) (hstage : journal.stage = .prepared) :
      ExitStep maxFeeSat saved journal
  | arm {journal : ExitJournal P} (hfee : journal.package.maxFeeSat = maxFeeSat) :
      ExitStep maxFeeSat (some journal) { journal with stage := .submissionArmed }
  | observe {journal : ExitJournal P} (hstage : journal.stage = .submissionArmed) :
      ExitStep maxFeeSat (some journal) { journal with stage := .observed }

/-- A change of the sweep journal. -/
inductive SweepStep (config : Config) (w : CliWorld P E) :
    Option (SourceSweepJournal P) → SourceSweepJournal P → Prop
  | prepare {saved : Option (SourceSweepJournal P)} {journal : SourceSweepJournal P}
      (hsaved : ∀ sweep ∈ saved, sweep.stage = .prepared ∨ Confirmed config w sweep.transaction)
      (hstage : journal.stage = .prepared)
      (hlisted : ∀ input ∈ spentOutputs journal.transaction, Listed w input)
      (hdestination : ∃ address, journal.destination = P.addressToString address) :
      SweepStep config w saved journal
  | arm {journal : SourceSweepJournal P} :
      SweepStep config w (some journal) { journal with stage := .submissionArmed }
  | observe {journal : SourceSweepJournal P} (hstage : journal.stage = .submissionArmed) :
      SweepStep config w (some journal) { journal with stage := .observed }

/-- What a command may save. -/
inductive Change (config : Config) (c : Command P) (w : CliWorld P E) :
    NativeWalletState P → Prop
  | wallet {wallet : WalletState P} (h : WalletChange config w wallet) :
      Change config c w (w.saved.withWallet wallet)
  | exit {journal : ExitJournal P} {destination : String} {feeRate : Option Nat} {maxFeeSat : Nat}
      (hcommand : c = .exit destination feeRate maxFeeSat false)
      (hpending : w.saved.wallet.pending = none) (h : ExitStep maxFeeSat w.saved.exit journal) :
      Change config c w (w.saved.withExit journal)
  | sweep {journal : SourceSweepJournal P} (h : SweepStep config w w.saved.sourceSweep journal) :
      Change config c w (w.saved.withSweep journal)

/-! ## What may be submitted -/

/-- The recovery of the saved funding is secured, and this is its transaction. -/
def FundingSecured (s : NativeWalletState P) (transaction : P.Tx) : Prop :=
  ∃ funding, s.wallet.funding = some funding ∧ funding.stage ≠ .prepared ∧
    funding.transaction = transaction

/-- The saved sweep is armed, and this is its transaction. -/
def SweepArmed (s : NativeWalletState P) (transaction : P.Tx) : Prop :=
  ∃ sweep, s.sourceSweep = some sweep ∧ sweep.stage = .submissionArmed ∧
    sweep.transaction = transaction

/-- The saved exit is armed with this package, for a command with this maximum fee. -/
def ExitArmed (s : NativeWalletState P) (maxFeeSat : Nat) (package : ExitPackage P) : Prop :=
  s.exit = some { package, stage := .submissionArmed } ∧ package.maxFeeSat = maxFeeSat

/-- What a command may ask: only submissions are restricted. -/
def Permitted (c : Command P) (s : NativeWalletState P) : Query P → Prop
  | .broadcastFunding _ transaction =>
    match c with
    | .fund .. => FundingSecured s transaction
    | _ => False
  | .broadcastExact transaction =>
    match c with
    | .fund .. => FundingSecured s transaction
    | .sweep .. => SweepArmed s transaction
    | .exit _ _ maxFeeSat _ => ∃ package, ExitArmed s maxFeeSat package ∧
        package.child = transaction
    | _ => False
  | .submitPackage parentHex childHex =>
    match c with
    | .exit _ _ maxFeeSat _ => ∃ package, ExitArmed s maxFeeSat package ∧
        P.serializeHex package.parent = parentHex ∧ P.serializeHex package.child = childHex
    | _ => False
  | _ => True

/-- The contract of the commands. -/
def cliContract (E : Type) (config : Config) :
    Contract (Command P) (NativeWalletState P) (Query P) Query.Reply E where
  inv w := NativeInv config w.saved
  write c w state := NativeInv config state ∧ state.fundingSecret = w.saved.fundingSecret ∧
    Change config c w state
  ask c w query := Permitted c w.saved query

theorem cliContract_stable (config : Config) (services : Services P E) :
    (cliContract (P := P) E config).Stable services where
  wrote := fun _ hwrite => hwrite.1
  asked := fun hinv _ _ => hinv

end Tinylayer
