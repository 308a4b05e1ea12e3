import Tinylayer.Native.FundCommand

/-!
# Sweeping the deposits

`coin source-sweep` of `wallet/src/cli.rs`: one transaction that spends the deposits that no funding
has reserved, journaled before it is submitted.
-/

namespace Tinylayer

open Durable

variable {P : Platform}

namespace NativeWalletState

/-- The saved state with another sweep journal. -/
def withSweep (self : NativeWalletState P) (journal : SourceSweepJournal P) : NativeWalletState P :=
  { self with sourceSweep := some journal }

/-- The outputs that the saved funding spends. -/
def fundingInputs (self : NativeWalletState P) : List (OutPoint P.Txid) :=
  ((self.wallet.coin.bind WalletCoin.funding).map FundingJournal.transaction).elim [] spentOutputs

end NativeWalletState

/-- `emit_source_sweep`. -/
def emitSourceSweep (journal : SourceSweepJournal P) (existing : Bool) : Report P :=
  .sweep existing (P.computeTxid journal.transaction) journal.destination journal.sources.length
    journal.feeSat

/-- The order in which a sweep prefers deposits. -/
def SourceUtxo.sweepLe (a b : SourceUtxo P) : Prop :=
  b.output.value < a.output.value ∨
    b.output.value = a.output.value ∧ OutPoint.le a.outpoint b.outpoint

instance SourceUtxo.decidableSweepLe (a b : SourceUtxo P) : Decidable (SourceUtxo.sweepLe a b) :=
  inferInstanceAs (Decidable (_ ∨ _))

/-- The part of `available_source_sweep_inputs` that selects from the listed deposits. -/
def sweepCandidates (native : NativeWalletState P) (sources : List (SourceUtxo P)) :
    List (SourceUtxo P) :=
  ((sources.filter fun source =>
    source.coinbase = false ∧ source.outpoint ∉ native.fundingInputs).insertionSort
      SourceUtxo.sweepLe).take 100

/-- `available_source_sweep_inputs`. -/
def availableSourceSweepInputs (config : Config) (native : NativeWalletState P) :
    Cli P (List (SourceUtxo P)) := do
  let address := sourceFundingAddress native.fundingSecret config.network
  let sources ← confirmedSourceUtxos config address
  return sweepCandidates native sources

/-- The arguments of a sweep. -/
structure SweepPolicy where
  destination : String
  feeRateSatVb : Nat
  maxFeeSat : Nat

/-- The journal was made with these arguments. -/
def SweepPolicy.Matches (policy : SweepPolicy) (journal : SourceSweepJournal P) : Prop :=
  journal.destination = policy.destination ∧ journal.feeRateSatVb = policy.feeRateSatVb ∧
    journal.maxFeeSat = policy.maxFeeSat

instance SweepPolicy.decidableMatches (policy : SweepPolicy) (journal : SourceSweepJournal P) :
    Decidable (policy.Matches journal) :=
  inferInstanceAs (Decidable (_ ∧ _))

/-- `validate_source_sweep_policy`. -/
def validateSourceSweepPolicy (journal : SourceSweepJournal P) (policy : SweepPolicy) :
    Except String Unit :=
  ensure (policy.Matches journal) "saved source sweep policy does not match this command"

/-- `validate_source_sweep_inputs`. -/
def validateSourceSweepInputs (config : Config) (native : NativeWalletState P)
    (journal : SourceSweepJournal P) : Cli P Unit := do
  Program.of (journal.validate native.fundingSecret)
  let address := sourceFundingAddress native.fundingSecret config.network
  let available ← confirmedSourceUtxos config address
  Program.of (checkAll (fun saved : SourceUtxo P => do
    let observed ← (available.find? fun source => source.outpoint = saved.outpoint).context
      "saved source sweep input is no longer confirmed and unspent"
    ensure (observed.output = saved.output ∧ observed.coinbase = saved.coinbase)
      "saved source sweep input changed") journal.sources)

/-- Arms the saved sweep. -/
def armSweep (config : Config) (native : NativeWalletState P) (journal : SourceSweepJournal P) :
    Cli P (SourceSweepJournal P) := do
  let journal ← Program.of (journal.armSubmission native.fundingSecret)
  saveNative config (native.withSweep journal)
  return journal

/-- Marks the saved sweep as observed. -/
def observeSweep (config : Config) (native : NativeWalletState P) (journal : SourceSweepJournal P)
    (observed : P.Tx) : Cli P (SourceSweepJournal P) := do
  let journal ← Program.of (journal.markObserved native.fundingSecret observed)
  saveNative config (native.withSweep journal)
  return journal

/-- What `source_sweep` does with a sweep that the chain shows. -/
def recordObservedSweep (config : Config) (native : NativeWalletState P)
    (journal : SourceSweepJournal P) (observed : P.Tx) : Cli P (SourceSweepJournal P) := do
  Program.of (ensure (observed = journal.transaction)
    "observed source sweep bytes do not match the saved transaction")
  match journal.stage with
  | .observed => return journal
  | .submissionArmed => observeSweep config native journal observed
  | .prepared => do
    let journal ← armSweep config native journal
    observeSweep config native journal observed

/-- Journals a sweep of `sources`. -/
def prepareSweep (config : Config) (native : NativeWalletState P) (sources : List (SourceUtxo P))
    (policy : SweepPolicy) : Cli P (SourceSweepJournal P) := do
  let journal ← Program.of (SourceSweepJournal.prepare native.fundingSecret config.network sources
    policy.destination policy.feeRateSatVb policy.maxFeeSat)
  saveNative config (native.withSweep journal)
  return journal

/-- How the first part of `source_sweep` ends: it is done, or it goes on with the saved state. -/
inductive SweepProgress (P : Platform)
  | finished (journal : SourceSweepJournal P)
  | ongoing (native : NativeWalletState P)

/-- The part of `source_sweep` that looks for the saved sweep on the chain. -/
def resumeSweep (config : Config) (native : NativeWalletState P) (policy : SweepPolicy) :
    Cli P (SweepProgress P) := do
  match native.sourceSweep with
  | none => return .ongoing native
  | some journal => do
    match ← call (.transaction (P.computeTxid journal.transaction)) with
    | none => return .ongoing native
    | some observed => do
      let journal ← recordObservedSweep config native journal observed.transaction
      let native := native.withSweep journal
      if config.minConfirmations ≤ observed.confirmations then do
        let sources ← availableSourceSweepInputs config native
        if sources = [] then do
          Program.of (validateSourceSweepPolicy journal policy)
          return .finished journal
        else do
          let journal ← prepareSweep config native sources policy
          return .ongoing (native.withSweep journal)
      else do
        Program.of (validateSourceSweepPolicy journal policy)
        return .finished journal

/-- The part of `source_sweep` that journals a new sweep, if there is none or a prepared one with
other arguments. -/
def prepareSweepIfNeeded (config : Config) (native : NativeWalletState P) (policy : SweepPolicy) :
    Cli P (SourceSweepJournal P) := do
  match native.sourceSweep.filter fun journal =>
      journal.stage ≠ .prepared ∨ policy.Matches journal with
  | some journal => return journal
  | none => do
    let sources ← availableSourceSweepInputs config native
    Program.of (ensure (sources ≠ []) "deposit address has no unreserved confirmed outputs to sweep")
    prepareSweep config native sources policy

/-- The part of `source_sweep` that submits the saved sweep. -/
def submitSweep (config : Config) (native : NativeWalletState P) (journal : SourceSweepJournal P) :
    Cli P (Report P) := do
  validateSourceSweepInputs config native journal
  let journal ← armSweep config native journal
  let _ ← call (.broadcastExact journal.transaction)
  let observed ← call (.transaction (P.computeTxid journal.transaction))
  let observed ← Program.of
    (observed.context "broadcast source sweep is not yet observable; rerun the command")
  let journal ← observeSweep config native journal observed.transaction
  return emitSourceSweep journal false

/-- The part of `source_sweep` that goes on with the saved sweep. -/
def finishSweep (config : Config) (native : NativeWalletState P) (journal : SourceSweepJournal P)
    (policy : SweepPolicy) : Cli P (Report P) := do
  Program.of do
    validateSourceSweepPolicy journal policy
    journal.validate native.fundingSecret
  match ← call (.transaction (P.computeTxid journal.transaction)) with
  | some observed => do
    let journal ← recordObservedSweep config native journal observed.transaction
    return emitSourceSweep journal true
  | none => submitSweep config native journal

/-- `source_sweep`. -/
def sourceSweep (config : Config) (destination : String) (feeRateSatVb maxFeeSat : Nat) :
    Cli P (Report P) := do
  Program.of (ensure (0 < feeRateSatVb) "source sweep fee rate must be positive")
  openWallet config
  let address ← Program.of do
    ensure (config.chain.isExplorer = true) "source sweep requires an explorer backend"
    parseDestination config.network destination "invalid source sweep destination"
      "source sweep destination is for the wrong network"
  let policy : SweepPolicy :=
    { destination := P.addressToString address, feeRateSatVb, maxFeeSat }
  connectChain config
  let native ← loadNative config
  match ← resumeSweep config native policy with
  | .finished journal => return emitSourceSweep journal true
  | .ongoing native => do
    let journal ← prepareSweepIfNeeded config native policy
    finishSweep config (native.withSweep journal) journal policy

end Tinylayer
