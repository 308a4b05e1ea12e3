import Tinylayer.Wallet.Types

/-!
# Validation

The checks of `wallet-core/src/validation.rs`: funding transactions, observed funding outputs, the
public form of a history, and whether the enclave has carried out a journaled attempt.
-/

namespace Tinylayer

variable {P : Platform}

/-- `validate_funding_inputs`. -/
def validateFundingInputs (transaction : P.Tx) : Except String Unit := do
  ensure (transaction.input ≠ []) "funding transaction has no inputs"
  ensure (transaction.input.length ≤ 100) "transaction has more than 100 inputs"
  ensure (P.weight transaction ≤ 400000) "transaction exceeds standard weight"
  checkAll (fun input : TxIn P.Txid => do
    ensure (P.isNull input.previousOutput = false)
      "funding transaction cannot spend a coinbase input"
    ensure (input.scriptSig = [] ∧ input.witness ≠ [])
      "funding transaction must use only native SegWit or Taproot inputs"
    ensure (isRbf input.sequence = false)
      "funding transaction inputs must not signal replace-by-fee") transaction.input

/-- `validate_finalized_funding`. -/
def validateFinalizedFunding (metadata : CoinMetadata P) (transaction : P.Tx) :
    Except String Unit := do
  validateFundingInputs transaction
  ensure (P.computeTxid transaction = metadata.outpoint.txid)
    "prepared funding transaction txid does not match coin metadata"
  let expectedScript := fundingScript metadata.keys
  ensure ((transaction.output.filter fun output => output.scriptPubkey = expectedScript).length = 1)
    "funding transaction must contain exactly one Tinylayer output"
  let output ← transaction.output[metadata.outpoint.vout]?.context
    "prepared funding output index is missing"
  Client.lift (verifyFundingUtxo metadata metadata.outpoint output)

/-- `verify_observed_funding_output`. -/
def verifyObservedFundingOutput (metadata : CoinMetadata P) (observed : ObservedFunding P)
    (minimumConfirmations : Nat) : Except String Unit := do
  ensure (observed.outpoint = metadata.outpoint) "observed funding output has the wrong outpoint"
  Client.lift (verifyFundingUtxo metadata observed.outpoint observed.output)
  ensure (minimumConfirmations ≤ observed.confirmations)
    s!"funding output has {observed.confirmations} confirmations; {minimumConfirmations} required"
  ensure (observed.coinbase = false ∨ 100 ≤ observed.confirmations)
    "coinbase funding output is not mature"

/-- `verify_observed_funding`. -/
def verifyObservedFunding (metadata : CoinMetadata P) (observed : ObservedFunding P)
    (minimumConfirmations : Nat) : Except String Unit := do
  verifyObservedFundingOutput metadata observed minimumConfirmations
  ensure (observed.unspent = true) "Tinylayer funding output is spent"

/-- `require_reaction_margin`. -/
def requireReactionMargin (fundingConfirmations delayBlocks minimumReactionBlocks : Nat) :
    Except String Unit := do
  let minimum ← (checkedAdd u32Max fundingConfirmations minimumReactionBlocks).context
    "reaction margin overflow"
  ensure (minimum < delayBlocks)
    s!"latest recovery delay {delayBlocks} must be greater than funding confirmations {fundingConfirmations} plus reaction margin {minimumReactionBlocks}"

/-- `verify_public_history`. -/
def verifyPublicHistory (metadata : CoinMetadata P) (status : CoinStatus P)
    (history : List (SignedRecovery P)) (fundingConfirmations minimumReactionBlocks : Nat) :
    Except String Unit := do
  Client.lift (verifyStatus metadata.keys status)
  ensure (status.signatureCount = history.length)
    "recovery history does not match enclave signature count"
  let latest ← history.getLast?.context "coin has no signed recovery"
  Client.lift (checkAll (verifyRecovery metadata) history)
  Client.lift (checkAll (fun pair => validateReactionWindow fundingConfirmations
    pair.1.delayBlocks pair.2.delayBlocks) (windows history))
  requireReactionMargin fundingConfirmations latest.delayBlocks minimumReactionBlocks

/-- `attempt_uncommitted`. -/
def attemptUncommitted (status : CoinStatus P) (attempt : RecoveryAttempt P) : Bool :=
  decide (status.signatureCount = attempt.expectedSignatureCount ∧
    status.authorization = authorization attempt.request.coinId
      (capabilityHash attempt.request.currentCapability) attempt.request.currentHandoff)

/-- `attempt_committed`. -/
def attemptCommitted (status : CoinStatus P) (attempt : RecoveryAttempt P) :
    Except String Bool := do
  let completedCount ← (checkedAdd u64Max attempt.expectedSignatureCount 1).context
    "signature count overflow"
  return decide (status.signatureCount = completedCount)

end Tinylayer
