import Tinylayer.Native.Contract
import Tinylayer.Wallet.Proofs.SweepProofs

/-!
# What a chain shows

A chain that goes on answering while the enclave may be gone, and what the owner of a coin can still
expect from the wallet then.
-/

namespace Tinylayer

open Durable

variable {P : Platform} {E : Type}

/-- The question submits a transaction. -/
def Query.Submits : Query P → Prop
  | .broadcastFunding .. | .broadcastExact _ | .submitPackage .. => True
  | _ => False

/-- The enclave answers no more. -/
def EnclaveGone (oracle : E → (query : Query P) → query.Reply × E) : Prop :=
  ∀ e query, query.ForEnclave → ∀ answer, (oracle e query).1 ≠ .ok answer

/-- The enclave never answers. -/
def EnclaveSilent (services : Services P E) : Prop :=
  ∀ e query e', query.ForEnclave → ∀ answer, ¬ services e query (.ok answer) e'

/-- As long as nothing is submitted, the chain shows the funding output of the coin as unspent, and
as deep as the recovery needs it. -/
structure FundingUnspent (oracle : E → (query : Query P) → query.Reply × E) (view : E → Prop)
    (metadata : CoinMetadata P) (recovery : SignedRecovery P) : Prop where
  stays : ∀ e query, view e → ¬ query.Submits → view (oracle e query).2
  connects : ∀ e, view e → (oracle e .connectChain).1 = .ok ()
  unspent : ∀ e, view e → ∃ observed, (oracle e (.observeFunding metadata)).1 = .ok observed ∧
    observed.funding.outpoint = metadata.outpoint ∧
    observed.funding.output =
      { value := metadata.amountSat, scriptPubkey := fundingScript metadata.keys } ∧
    observed.funding.unspent = true ∧ recovery.delayBlocks ≤ observed.funding.confirmations ∧
    (observed.funding.coinbase = false ∨ 100 ≤ observed.funding.confirmations)
  unseen : ∀ e (transaction : P.Tx), view e → metadata.outpoint ∈ spentOutputs transaction ∨
      ⟨P.computeTxid recovery.transaction, 0⟩ ∈ spentOutputs transaction →
    (oracle e (.transaction (P.computeTxid transaction))).1 = .ok none

/-- The journaled transfer fails its check against all that the enclave and the chain show. -/
def TransferStale (services : Services P E) (view : E → Prop) (config : Config)
    (s : NativeWalletState P) (metadata : CoinMetadata P) : Prop :=
  ∀ e e' f f' status observed, view e → view e' →
    services e (.status metadata.keys.coinId) (.ok status) f →
    services e' (.observeFunding metadata) (.ok observed) f' →
    s.wallet.validatePendingTransfer status observed.funding config.minConfirmations
      config.minReactionBlocks ≠ .ok ()

/-- The destination is an address of the network, and the coin pays the fee for a package at this
rate, which is within the maximum. -/
def ExitAffordable (network : NetworkId) (metadata : CoinMetadata P) (recovery : SignedRecovery P)
    (destination : String) (feeRateSatVb maxFeeSat : Nat) : Prop :=
  ∃ address, P.addressFromStr destination = some address ∧
    P.addressOnNetwork address network = true ∧ 0 < feeRateSatVb ∧
    feeRateSatVb * (P.vsize recovery.transaction + P.vsize (exitChild recovery.transaction
      metadata.amountSat (P.addressScript address) [List.replicate 64 0])) +
      P.minimalNonDust (P.addressScript address) ≤ metadata.amountSat ∧
    feeRateSatVb * (P.vsize recovery.transaction + P.vsize (exitChild recovery.transaction
      metadata.amountSat (P.addressScript address) [List.replicate 64 0])) ≤ maxFeeSat

/-- An exit with this recovery was armed. -/
def RecoveryArmed (s : NativeWalletState P) (recovery : SignedRecovery P) : Prop :=
  ∃ journal, s.exit = some journal ∧ journal.stage ≠ .prepared ∧
    journal.package.parent = recovery.transaction

/-- The saved exit was made for this destination and these fees. -/
def ExitSavedFor (s : NativeWalletState P) (destination : String) (feeRateSatVb maxFeeSat : Nat) :
    Prop :=
  ∃ journal address, s.exit = some journal ∧ P.addressFromStr destination = some address ∧
    journal.package.destination = P.addressToString address ∧
    journal.package.feeRateSatVb = feeRateSatVb ∧ journal.package.maxFeeSat = maxFeeSat

/-- Even if the enclave is gone, or the journaled transfer can no longer be finished, some commands
arm an exit with the recovery, unless one is armed already. -/
def StaysUsable (reader : PayloadReader P) (config : Config) (s : NativeWalletState P)
    (metadata : CoinMetadata P) (recovery : SignedRecovery P) (destination : String)
    (feeRateSatVb maxFeeSat : Nat) : Prop :=
  ∀ (E : Type) (oracle : E → (query : Query P) → query.Reply × E) (view : E → Prop) (e : E),
    view e → FundingUnspent oracle view metadata recovery →
    EnclaveGone oracle ∨ TransferStale (answering oracle) view config s metadata →
    RecoveryArmed s recovery ∨
      ∃ v, CliLife (answering oracle) reader config { saved := s, env := e, log := [] } v ∧
        RecoveryArmed v.saved recovery ∧ ExitSavedFor v.saved destination feeRateSatVb maxFeeSat

/-- As long as the enclave does not answer, or a transfer that waits for its signature fails its
check, the operation stays pending, and no commands save an exit. -/
def ExitBlocked (reader : PayloadReader P) (config : Config) (s : NativeWalletState P)
    (metadata : CoinMetadata P) : Prop :=
  ∀ (E : Type) (services : Services P E) (e : E) (v : CliWorld P E),
    EnclaveSilent services ∨ s.wallet.TransferPrepared ∧
      TransferStale services (fun _ => True) config s metadata →
    CliLife services reader config { saved := s, env := e, log := [] } v →
    v.saved.wallet.pending ≠ none ∧ v.saved.exit = none

/-! ## Deposits -/

/-- `MAX_SOURCE_UTXO_CANDIDATES` of `wallet/src/services.rs`. -/
def maxSourceUtxoCandidates : Nat := 256

/-- The transaction spends some of these deposits, each with a valid signature, and pays no more
than they hold. -/
def SpendsSigned (deposits : List (SourceUtxo P)) (transaction : P.Tx) : Prop :=
  ∃ sources : List (SourceUtxo P), sources ≠ [] ∧
    (∀ source ∈ sources, ∃ deposit ∈ deposits,
      deposit.outpoint = source.outpoint ∧ deposit.output = source.output) ∧
    (spentOutputs transaction).Nodup ∧
    spentOutputs transaction = sources.map SourceUtxo.outpoint ∧
    (∀ index < sources.length, SpendsKey transaction (sources.map SourceUtxo.output) index) ∧
    (transaction.output.map TxOut.value).sum ≤ (sources.map fun source => source.output.value).sum

/-- What an explorer lists of the deposits: all of them, or as many as it lists at most. -/
structure Listing (deposits listed : List (SourceUtxo P)) : Prop where
  subperm : listed.Subperm deposits
  length_eq : listed.length = min maxSourceUtxoCandidates deposits.length

/-- When it is asked for the transaction, the chain shows it with enough confirmations. -/
def ShowsConfirmed (oracle : E → (query : Query P) → query.Reply × E) (config : Config) (e : E)
    (transaction : P.Tx) : Prop :=
  ∃ observed : TransactionObservation P,
    (oracle e (.transaction (P.computeTxid transaction))).1 = .ok (some observed) ∧
      observed.transaction = transaction ∧ config.minConfirmations ≤ observed.confirmations

/-- A chain that takes what spends the deposits of an address, and shows it as confirmed after it was
asked for it sufficiently often, which `waits` counts. It has the deposits `unspent`, of which it
lists as many as an explorer does. -/
structure DepositChain (oracle : E → (query : Query P) → query.Reply × E) (config : Config)
    (address : P.Address) (view : E → Prop) (unspent listed : E → List (SourceUtxo P))
    (taken : E → P.Tx → Prop) (waits : E → P.Tx → Nat) : Prop where
  stays : ∀ e query, view e → ¬ query.Submits →
    view (oracle e query).2 ∧ unspent (oracle e query).2 = unspent e ∧
      listed (oracle e query).2 = listed e ∧
      ∀ transaction, taken e transaction → taken (oracle e query).2 transaction ∧
        waits (oracle e query).2 transaction ≤ waits e transaction
  connects : ∀ e, view e → (oracle e .connectChain).1 = .ok ()
  lists : ∀ e, view e → (oracle e (.confirmedSourceUtxos address)).1 = .ok (listed e)
  listed : ∀ e, view e → Listing (unspent e) (listed e)
  distinct : ∀ e, view e → ((unspent e).map SourceUtxo.outpoint).Nodup
  deposits : ∀ e, view e → ∀ deposit ∈ unspent e, 0 < deposit.confirmations ∧
    P.isNull deposit.outpoint = false ∧ deposit.output.scriptPubkey = P.addressScript address
  money : ∀ e, view e → ((unspent e).map fun deposit => deposit.output.value).sum ≤ maxMoney
  confirms : ∀ e transaction, view e → taken e transaction →
    ShowsConfirmed oracle config e transaction ∨
      waits (oracle e (.transaction (P.computeTxid transaction))).2 transaction < waits e transaction
  unseen : ∀ e transaction, view e → SpendsSigned (unspent e) transaction →
    (oracle e (.transaction (P.computeTxid transaction))).1 = .ok none
  takes : ∀ e transaction, view e → SpendsSigned (unspent e) transaction →
    ∃ txid, (oracle e (.broadcastExact transaction)).1 = .ok txid ∧
      view (oracle e (.broadcastExact transaction)).2 ∧
      taken (oracle e (.broadcastExact transaction)).2 transaction ∧
      unspent (oracle e (.broadcastExact transaction)).2 =
        (unspent e).filter fun deposit => deposit.outpoint ∉ spentOutputs transaction

/-- The chain has taken the saved sweep, or all that it spends is still listed. -/
def SweepResumable (listed : List (SourceUtxo P)) (taken : P.Tx → Prop)
    (s : NativeWalletState P) : Prop :=
  ∀ sweep ∈ s.sourceSweep, taken sweep.transaction ∨
    ∀ source ∈ sweep.sources, ∃ deposit ∈ listed, deposit.outpoint = source.outpoint ∧
      deposit.output = source.output ∧ deposit.coinbase = source.coinbase

/-- The size of a sweep, with placeholders for its signatures. -/
def sweepVsize (batch : List (SourceUtxo P)) (destination : Script) : Nat :=
  P.vsize (sourceSweepTransaction ((sortSources batch).map (sourceInput placeholderWitness))
    destination 0)

/-- A sweep of these deposits at this rate is of standard size, costs at most the maximum fee, and
leaves more than dust. -/
structure BatchPays (batch : List (SourceUtxo P)) (destination : Script)
    (feeRateSatVb maxFeeSat : Nat) : Prop where
  standard : 4 * sweepVsize batch destination ≤ 400000
  cap : feeRateSatVb * sweepVsize batch destination ≤ maxFeeSat
  pays : feeRateSatVb * sweepVsize batch destination + P.minimalNonDust destination ≤
    (batch.map fun source => source.output.value).sum

/-- The deposit can be swept: it is not a coinbase output, and no funding has reserved it. -/
def Eligible (s : NativeWalletState P) (deposit : SourceUtxo P) : Prop :=
  deposit.coinbase = false ∧ deposit.outpoint ∉ s.fundingInputs

instance (s : NativeWalletState P) (deposit : SourceUtxo P) : Decidable (Eligible s deposit) :=
  inferInstanceAs (Decidable (_ ∧ _))

/-- The sweeps of these deposits, one after the other, pay for themselves until one of them takes
the given deposit, whatever the explorer lists. -/
inductive SweepsPay (s : NativeWalletState P) (deposit : SourceUtxo P) (destination : Script)
    (feeRateSatVb maxFeeSat : Nat) : List (SourceUtxo P) → Prop
  | done {deposits} (h : deposit ∉ deposits) :
      SweepsPay s deposit destination feeRateSatVb maxFeeSat deposits
  | sweep {deposits}
      (pays : ∀ listed, Listing deposits listed →
        BatchPays (sweepCandidates s listed) destination feeRateSatVb maxFeeSat)
      (later : ∀ listed, Listing deposits listed →
        SweepsPay s deposit destination feeRateSatVb maxFeeSat (deposits.filter fun other =>
          other.outpoint ∉ (sweepCandidates s listed).map SourceUtxo.outpoint)) :
      SweepsPay s deposit destination feeRateSatVb maxFeeSat deposits

/-- The destination is an address of the network that is not the deposit address, and the sweeps up
to the one that takes the deposit pay for themselves. -/
def SweepAffordable (network : NetworkId) (s : NativeWalletState P) (deposit : SourceUtxo P)
    (deposits : List (SourceUtxo P)) (destination : String) (feeRateSatVb maxFeeSat : Nat) : Prop :=
  ∃ address, P.addressFromStr destination = some address ∧
    P.addressOnNetwork address network = true ∧
    P.addressScript address ≠ P.addressScript (sourceFundingAddress s.fundingSecret network) ∧
    0 < feeRateSatVb ∧
    SweepsPay s deposit (P.addressScript address) feeRateSatVb maxFeeSat deposits

open Classical in
/-- What is left of the deposits when the chain has taken the saved sweep. -/
noncomputable def leftBySaved (s : NativeWalletState P) (taken : P.Tx → Prop)
    (deposits : List (SourceUtxo P)) : List (SourceUtxo P) :=
  deposits.filter fun deposit => ∀ sweep ∈ s.sourceSweep,
    taken sweep.transaction ∨ deposit.outpoint ∉ spentOutputs sweep.transaction

/-- On a chain that takes what is submitted to it, some commands sweep any eligible deposit, whatever
the enclave does. -/
def DepositsSweepable (reader : PayloadReader P) (config : Config) (s : NativeWalletState P) :
    Prop :=
  ∀ (E : Type) (oracle : E → (query : Query P) → query.Reply × E) (view : E → Prop)
    (unspent listed : E → List (SourceUtxo P)) (taken : E → P.Tx → Prop) (waits : E → P.Tx → Nat)
    (e : E) (destination : String) (feeRateSatVb maxFeeSat : Nat),
    DepositChain oracle config (sourceFundingAddress s.fundingSecret config.network) view unspent
      listed taken waits → view e →
    SweepResumable (listed e) (taken e) s →
    ((unspent e).filter fun deposit => ¬ Eligible s deposit).length < maxSourceUtxoCandidates →
    ∀ deposit ∈ unspent e, Eligible s deposit →
      SweepAffordable config.network s deposit (leftBySaved s (taken e) (unspent e)) destination
        feeRateSatVb maxFeeSat →
      ∃ v, CliLife (answering oracle) reader config { saved := s, env := e, log := [] } v ∧
        ∃ event ∈ v.log, ∃ transaction, BroadcastsSweep event transaction ∧
          deposit.outpoint ∈ spentOutputs transaction

/-- As long as the enclave does not answer, nothing that is handed to the chain spends an output
that the funding has reserved. -/
def ReservedKept (reader : PayloadReader P) (config : Config) (s : NativeWalletState P) : Prop :=
  ∀ (E : Type) (services : Services P E) (e : E) (v : CliWorld P E), EnclaveSilent services →
    CliLife services reader config { saved := s, env := e, log := [] } v →
    ∀ event ∈ v.log, (∀ parentHex childHex, ¬ event.Asked (.submitPackage parentHex childHex)) ∧
      ∀ transaction, (∃ metadata, event.Asked (.broadcastFunding metadata transaction)) ∨
          event.Asked (.broadcastExact transaction) →
        ∀ input ∈ s.fundingInputs, input ∉ spentOutputs transaction

end Tinylayer
