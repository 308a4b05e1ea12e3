import Tinylayer.Wallet.Invariant

/-!
# Runs of the wallet state

A run is a list of operations with arbitrary arguments. `WalletState.WellFormed` says, in terms of
the code's own checks, what the wallet can rely on after any run.
-/

namespace Tinylayer

variable {P : Platform}

open WalletState

variable (P) in
/-- An operation with its arguments and what it draws at random. -/
inductive Operation where
  | beginRegistration (draws : RegistrationDraws P)
  | completeRegistration (status : CoinStatus P)
  | beginFunding (draws : FundingDraws P) (network : NetworkId) (sourceSecret : P.SecretKey)
      (source : SourceUtxo P) (status : CoinStatus P)
      (amountSat delayBlocks feeRateSatVb maxFeeSat minimumReactionBlocks : Nat)
  | recordSignResponse (response : SignResponse P)
  | completeFundingRecovery (status : CoinStatus P)
  | markFundingBroadcast (txid : P.Txid)
  | beginTransferRequest (draws : RequestDraws P) (network : NetworkId) (coinId : CoinId)
      (outpoint : OutPoint P.Txid) (expectedAmountSat minimumReactionBlocks : Nat)
  | beginTransfer (network : NetworkId) (request : TransferRequest) (status : CoinStatus P)
      (observedFunding : ObservedFunding P) (minimumConfirmations minimumReactionBlocks : Nat)
  | completeTransfer (draws : EnvelopeDraws P) (status : CoinStatus P)
  | acceptTransfer (reader : PayloadReader P) (network : NetworkId) (request : TransferRequest)
      (envelope : TransferEnvelope) (status : CoinStatus P) (observedFunding : ObservedFunding P)
      (minimumConfirmations minimumReactionBlocks : Nat)

namespace WalletState

/-- The state after an operation, whether or not it succeeded. -/
def after (s : WalletState P) : Operation P → WalletState P
  | .beginRegistration draws => (beginRegistration draws).stateAfter s
  | .completeRegistration status => (completeRegistration status).stateAfter s
  | .beginFunding draws network sourceSecret source status amountSat delayBlocks feeRateSatVb
      maxFeeSat minimumReactionBlocks =>
    (beginFunding draws network sourceSecret source status amountSat delayBlocks feeRateSatVb
      maxFeeSat minimumReactionBlocks).stateAfter s
  | .recordSignResponse response => (recordSignResponse response).stateAfter s
  | .completeFundingRecovery status => (completeFundingRecovery status).stateAfter s
  | .markFundingBroadcast txid => (markFundingBroadcast txid).stateAfter s
  | .beginTransferRequest draws network coinId outpoint expectedAmountSat minimumReactionBlocks =>
    (beginTransferRequest draws network coinId outpoint expectedAmountSat
      minimumReactionBlocks).stateAfter s
  | .beginTransfer network request status observedFunding minimumConfirmations
      minimumReactionBlocks =>
    (beginTransfer network request status observedFunding minimumConfirmations
      minimumReactionBlocks).stateAfter s
  | .completeTransfer draws status => (completeTransfer draws status).stateAfter s
  | .acceptTransfer reader network request envelope status observedFunding minimumConfirmations
      minimumReactionBlocks =>
    (acceptTransfer reader network request envelope status observedFunding minimumConfirmations
      minimumReactionBlocks).stateAfter s

/-- The state after a run. -/
def run (s : WalletState P) (ops : List (Operation P)) : WalletState P := ops.foldl after s

@[simp] theorem run_nil (s : WalletState P) : s.run [] = s := List.foldl_nil ..

@[simp] theorem run_cons (s : WalletState P) (op : Operation P) (ops : List (Operation P)) :
    s.run (op :: ops) = (s.after op).run ops := List.foldl_cons ..

theorem run_append (s : WalletState P) (ops later : List (Operation P)) :
    s.run (ops ++ later) = (s.run ops).run later := List.foldl_append

@[simp] theorem run_concat (s : WalletState P) (ops : List (Operation P)) (op : Operation P) :
    s.run (ops ++ [op]) = (s.run ops).after op := by
  simp [run]

/-- What a wallet can rely on about its coin. -/
structure CoinWellFormed (coin : WalletCoin P) : Prop where
  accepted : coin.acceptedRequest.isSome = coin.acceptedEnvelopeFingerprint.isSome
  capability : coin.outgoing.isSome = true ↔ coin.currentCapability = none
  handoff : coin.outgoing.isSome = true ↔ coin.currentHandoff = none
  transferred : coin.outgoing.isSome = true → coin.history.length = 1
  prepared : ∀ funding, coin.funding = some funding → funding.stage = .prepared →
    coin.history = []
  secured : ∀ funding, coin.funding = some funding → funding.stage ≠ .prepared →
    ∃ first, coin.history[0]? = some first ∧ first.delayBlocks = funding.delayBlocks
  owned : coin.history ≠ [] → ∃ metadata secret index key recovery,
    coin.metadata = some metadata ∧ coin.withdrawalSecret = some secret ∧
    coin.withdrawalRecoveryIndex = some index ∧ index < coin.history.length ∧
    P.secretKeyFromSlice secret = some key ∧ coin.history[index]? = some recovery ∧
    recovery.withdrawalXonlyPubkey = secretXonly key ∧
    ∀ entry ∈ coin.history, verifyRecovery metadata entry = .ok ()
  latest : coin.history ≠ [] → coin.outgoing = none →
    coin.withdrawalRecoveryIndex = some (coin.history.length - 1)

/-- What a wallet can rely on. -/
structure WellFormed (s : WalletState P) : Prop where
  registration : ∀ secret capability registration,
    s.pending = some (.registration secret capability registration) →
    s.coin = none ∧ s.incoming = none
  incoming : s.incoming.isSome = true → s.coin = none
  recovery : ∀ pending, s.pending = some (.recovery pending) → s.coin.isSome = true
  transferred : ∀ coin, s.coin = some coin → coin.outgoing.isSome = true → s.pending = none
  coin : ∀ coin, s.coin = some coin → CoinWellFormed coin

end WalletState

end Tinylayer
