import Tinylayer.Native.ChainPlatform

/-!
# Bitcoin Core

The client of a local Bitcoin Core in `wallet/src/services.rs`, with the wallet of the node that pays
for fundings. What the node answers is arbitrary; an answer that cannot be read is an error.
-/

namespace Tinylayer

open Durable

variable {P : Platform} (B : ChainPlatform P)

/-- An error of a call, which is `RPC_INVALID_ADDRESS_OR_KEY` if something is not there
(`is_rpc_not_found`). -/
inductive RpcError
  | notFound
  | other

/-- The hexadecimal text of a transaction, and what it is read as. -/
inductive HexTransaction (P : Platform)
  | invalidHex
  | invalidTransaction
  | valid (transaction : P.Tx)

structure ChainInfo where
  chain : String
  blocks : Nat
  bestBlockHash : B.BlockHash

structure WalletInfo where
  walletName : String
  privateKeysEnabled : Bool

structure WalletTransaction (P : Platform) where
  confirmations : Int
  txid : P.Txid
  walletconflicts : List P.Txid
  hex : HexTransaction P

structure CoreSpendingPrevout (P : Platform) where
  txid : P.Txid
  vout : Nat
  spendingTxid : Option P.Txid

/-- `GetRawTransactionResult`; `transaction` is what `GetRawTransactionResult::transaction` reads. -/
structure RawTransactionInfo (P : Platform) where
  txid : P.Txid
  inActiveChain : Option Bool
  transaction : Option P.Tx
  confirmations : Option Nat

/-- `GetTxOutResult`. -/
structure TxOutInfo where
  bestblock : B.BlockHash
  confirmations : Nat
  value : Nat
  scriptPubkey : Option Script
  coinbase : Bool

/-- `TestMempoolAcceptResult`. -/
structure MempoolAccept (P : Platform) where
  txid : P.Txid
  allowed : Bool
  rejectReason : Option String
  baseFee : Option Nat

/-- The response of `submitpackage`: its `package_msg`, and its text. -/
structure PackageResult where
  packageMsg : Option String
  text : String

/-- A partially signed transaction, as text. -/
structure FundedPsbt where
  psbt : String
  fee : Nat

structure ProcessedPsbt where
  psbt : String
  complete : Bool

structure FinalizedPsbt (P : Platform) where
  complete : Bool
  /-- The bytes of the transaction, and what they are read as. -/
  hex : Option (Option P.Tx)

/-- The calls. -/
inductive CoreQuery (P : Platform)
  | getRawTransactionInfo (txid : P.Txid)
  | getTransaction (txid : P.Txid)
  | getMempoolEntry (txid : P.Txid)
  | getTxOut (outpoint : OutPoint P.Txid)
  | getTxSpendingPrevout (outpoint : OutPoint P.Txid)
  | getBlockchainInfo
  | getWalletInfo
  | lockUnspent (outpoints : List (OutPoint P.Txid))
  | walletCreateFundedPsbt (address : P.Address) (amountSat feeRateSatVb : Nat)
  | walletProcessPsbt (psbt : String)
  | finalizePsbt (psbt : String)
  | testMempoolAccept (transaction : P.Tx)
  | sendRawTransaction (transaction : P.Tx)
  | submitPackage (parentHex childHex : String)

namespace CoreQuery

/-- What the result of a call is read as. -/
@[reducible] def Answer : CoreQuery P → Type
  | getRawTransactionInfo _ => RawTransactionInfo P
  | getTransaction _ => WalletTransaction P
  | getMempoolEntry _ => Unit
  | getTxOut _ => Option (TxOutInfo B)
  | getTxSpendingPrevout _ => List (CoreSpendingPrevout P)
  | getBlockchainInfo => ChainInfo B
  | getWalletInfo => WalletInfo
  | lockUnspent _ => Bool
  | walletCreateFundedPsbt .. => FundedPsbt
  | walletProcessPsbt _ => ProcessedPsbt
  | finalizePsbt _ => FinalizedPsbt P
  | testMempoolAccept _ => List (MempoolAccept P)
  | sendRawTransaction _ => P.Txid
  | submitPackage .. => PackageResult

abbrev Reply (query : CoreQuery P) : Type := Except RpcError (query.Answer B)

end CoreQuery

/-- A part of what the client does. -/
abbrev CoreM (α : Type) : Type := Inquiry (CoreQuery P) (CoreQuery.Reply B) String α

/-- The client of a node, with the wallet that it opens there. -/
structure Core where
  walletName : String
  network : NetworkId

/-- `PreparedFunding`. -/
structure PreparedFunding (P : Platform) where
  transaction : P.Tx
  outpoint : OutPoint P.Txid
  feeSat : Nat

inductive FundingTransactionState
  | unknown
  | evicted
  | known
deriving DecidableEq

/-- `hex::decode` and `deserialize`. -/
def HexTransaction.decode (self : HexTransaction P) (invalidHex invalidTransaction : String) :
    Except String P.Tx :=
  match self with
  | .invalidHex => throw invalidHex
  | .invalidTransaction => throw invalidTransaction
  | .valid transaction => return transaction

/-- The output that a node shows. -/
def TxOutInfo.output {B : ChainPlatform P} (self : TxOutInfo B) (context : String) :
    Except String TxOut := do
  let scriptPubkey ← self.scriptPubkey.context context
  return { value := self.value, scriptPubkey }

namespace Core

variable {B}

/-- A call that can fail. -/
def tryCall (query : CoreQuery P) : CoreM B (Except RpcError (query.Answer B)) :=
  Program.question query

/-- A call that must not fail. -/
def call (query : CoreQuery P) (context : String) : CoreM B (query.Answer B) := do
  let reply ← tryCall query
  Program.of (reply.mapError fun _ => context)

/-- `chain_info`. -/
def chainInfo (self : Core) : CoreM B (ChainInfo B) := do
  let info ← call .getBlockchainInfo "query Bitcoin Core chain"
  Program.of (ensure (info.chain = networkName self.network)
    s!"Bitcoin Core is on {info.chain}, expected {networkName self.network}")
  return info

/-- `u32::try_from(chain.blocks)`. -/
def height (info : ChainInfo B) : Except String Nat := do
  ensure (info.blocks ≤ u32Max) "Bitcoin Core block height exceeds u32"
  return info.blocks

/-- `tip_height`. -/
def tipHeight (self : Core) : CoreM B Nat := do
  let info ← self.chainInfo
  Program.of (height info)

/-- Whether the transaction waits for a block. -/
def isInMempool (txid : P.Txid) (context : String) : CoreM B Bool := do
  match ← tryCall (.getMempoolEntry txid) with
  | .ok _ => return true
  | .error .notFound => return false
  | .error .other => Program.of (throw context)

/-- The part of `transaction_observation` that asks the wallet of the node. -/
def walletTransactionObservation (self : Core) (txid : P.Txid) :
    CoreM B (Option (TransactionObservation P)) := do
  match ← tryCall (.getTransaction txid) with
  | .error .notFound => return none
  | .error .other => Program.of (throw "query Bitcoin Core wallet transaction")
  | .ok result => do
    Program.of do
      ensure (result.txid = txid) "Bitcoin Core returned a mismatched wallet transaction"
      ensure (0 ≤ result.confirmations ∧ result.walletconflicts = [])
        "Bitcoin Core transaction is conflicted"
    let known ← (if result.confirmations = 0 then
      isInMempool txid "query Bitcoin Core mempool entry" else pure true)
    if known = true then do
      let transaction ← Program.of do
        let transaction ← result.hex.decode "Bitcoin Core returned invalid transaction hex"
          "Bitcoin Core returned an invalid wallet transaction"
        ensure (P.computeTxid transaction = txid) "Bitcoin Core wallet transaction has the wrong txid"
        return transaction
      let tipHeight ← self.tipHeight
      return some {
        transaction, tipHeight, confirmations := result.confirmations.toNat, rawBytesObserved := true }
    else
      return none

/-- `transaction_observation`. -/
def transactionObservation (self : Core) (txid : P.Txid) :
    CoreM B (Option (TransactionObservation P)) := do
  match ← tryCall (.getRawTransactionInfo txid) with
  | .ok info => do
    let transaction ← Program.of do
      ensure (info.txid = txid) "Bitcoin Core returned the wrong txid"
      ensure (info.inActiveChain ≠ some false)
        "Bitcoin Core transaction is not in the active chain"
      info.transaction.context "Bitcoin Core returned an invalid raw transaction"
    let tipHeight ← self.tipHeight
    return some {
      transaction, tipHeight, confirmations := info.confirmations.getD 0, rawBytesObserved := true }
  | .error .notFound => self.walletTransactionObservation txid
  | .error .other => Program.of (throw "query Bitcoin Core raw transaction")

/-- Whether the observed best block is the one of the chain, or of the chain after another look. -/
def atBestBlock (self : Core) (bestblock : B.BlockHash) (chain : ChainInfo B) (context : String) :
    CoreM B (ChainInfo B) := do
  let chain ← (if bestblock ≠ chain.bestBlockHash then self.chainInfo else pure chain)
  Program.of (ensure (bestblock = chain.bestBlockHash) context)
  return chain

/-- The loop of `observe_authorized_transaction`, over the outputs with their indices. -/
def observeOutputs (self : Core) (transaction : P.Tx) (chain : ChainInfo B) :
    List (TxOut × Nat) → CoreM B (Option (TransactionObservation P))
  | [] => return none
  | (expected, vout) :: outputs => do
    Program.of (ensure (vout ≤ u32Max) "transaction output index exceeds u32")
    match ← call (.getTxOut { txid := P.computeTxid transaction, vout })
        "query Bitcoin Core authorized transaction output" with
    | none => self.observeOutputs transaction chain outputs
    | some result => do
      Program.of (ensure (0 < result.confirmations)
        "Bitcoin Core hid an unconfirmed authorized transaction's raw bytes")
      let chain ← self.atBestBlock result.bestblock chain
        "Bitcoin Core authorized transaction observation is not from the current best block"
      Program.of do
        let output ← result.output "Bitcoin Core returned an invalid transaction output script"
        ensure (output = expected)
          "Bitcoin Core transaction output does not match the authorized transaction"
        let tipHeight ← height chain
        return some {
          transaction, tipHeight, confirmations := result.confirmations, rawBytesObserved := false }

/-- `observe_authorized_transaction`. -/
def observeAuthorizedTransaction (self : Core) (transaction : P.Tx) :
    CoreM B (Option (TransactionObservation P)) := do
  match ← self.transactionObservation (P.computeTxid transaction) with
  | some observed => do
    Program.of (ensure (observed.transaction = transaction)
      "Bitcoin Core transaction bytes do not match the authorized transaction")
    return some observed
  | none => do
    let chain ← self.chainInfo
    self.observeOutputs transaction chain transaction.output.zipIdx

/-- `outspend`. -/
def outspend (self : Core) (outpoint : OutPoint P.Txid) : CoreM B (OutspendObservation P) := do
  let results ← call (.getTxSpendingPrevout outpoint) "query Bitcoin Core outspend"
  let result ← Program.of do
    let result ← results.head?.context "Bitcoin Core returned no outspend result"
    ensure (results.length = 1 ∧ result.txid = outpoint.txid ∧ result.vout = outpoint.vout)
      "Bitcoin Core returned a mismatched outspend result"
    return result
  match result.spendingTxid with
  | some txid => do
    let observed ← self.transactionObservation txid
    return {
      spent := true
      spendingTxid := some txid
      spendingConfirmed := observed.any fun observation => 0 < observation.confirmations }
  | none => do
    let output ← call (.getTxOut outpoint) "query Bitcoin Core output"
    return { spent := output.isNone, spendingTxid := none, spendingConfirmed := output.isNone }

/-- The part of `observe_funding` for an output that is spent. -/
def observeSpentFunding (self : Core) (metadata : CoinMetadata P) :
    CoreM B (DetailedFundingObservation P) := do
  let observed ← self.transactionObservation metadata.outpoint.txid
  let (observed, output) ← Program.of do
    let observed ← observed.context "spent funding transaction is unavailable from Bitcoin Core"
    let output ← observed.transaction.output[metadata.outpoint.vout]?.context
      "funding output index is missing"
    Client.lift (verifyFundingUtxo metadata metadata.outpoint output)
    ensure (isCoinbase observed.transaction = false ∨ 100 ≤ observed.confirmations)
      "coinbase funding output is not mature"
    return (observed, output)
  let outspend ← self.outspend metadata.outpoint
  return {
    funding := {
      outpoint := metadata.outpoint
      output
      confirmations := observed.confirmations
      unspent := false
      coinbase := isCoinbase observed.transaction }
    tipHeight := observed.tipHeight
    spendingTxid := outspend.spendingTxid
    spendingConfirmed := outspend.spendingConfirmed }

/-- `observe_funding`. -/
def observeFunding (self : Core) (metadata : CoinMetadata P) :
    CoreM B (DetailedFundingObservation P) := do
  Program.of (ensure (metadata.network = self.network)
    "funding network does not match Bitcoin Core")
  match ← call (.getTxOut metadata.outpoint) "query Bitcoin Core funding UTXO" with
  | none => self.observeSpentFunding metadata
  | some result => do
    let chain ← self.chainInfo
    let chain ← self.atBestBlock result.bestblock chain
      "Bitcoin Core funding observation is not from the current best block"
    Program.of do
      let output ← result.output "Bitcoin Core returned an invalid funding script"
      Client.lift (verifyFundingUtxo metadata metadata.outpoint output)
      ensure (result.coinbase = false ∨ 100 ≤ result.confirmations)
        "coinbase funding output is not mature"
      let tipHeight ← height chain
      return {
        funding := {
          outpoint := metadata.outpoint
          output
          confirmations := result.confirmations
          unspent := true
          coinbase := result.coinbase }
        tipHeight
        spendingTxid := none
        spendingConfirmed := false }

/-- `verify_funding`. -/
def verifyFunding (self : Core) (metadata : CoinMetadata P) (minimumConfirmations : Nat) :
    CoreM B FundingObservation := do
  let chain ← self.chainInfo
  let result ← call (.getTxOut metadata.outpoint) "query funding UTXO"
  let result ← Program.of (result.context "funding output is spent or missing")
  let chain ← self.atBestBlock result.bestblock chain
    "Bitcoin Core funding observation is not from the current best block"
  Program.of do
    ensure (minimumConfirmations ≤ result.confirmations)
      s!"funding output has {result.confirmations} confirmations; {minimumConfirmations} required"
    ensure (result.coinbase = false ∨ 100 ≤ result.confirmations)
      "coinbase funding output is not mature"
    let output ← result.output "Bitcoin Core returned an invalid funding script"
    Client.lift (verifyFundingUtxo metadata metadata.outpoint output)
    let tipHeight ← height chain
    return { tipHeight, confirmations := result.confirmations }

/-! ## Submissions -/

/-- The transaction is known with its exact bytes; it fails if other bytes are. -/
def isObserved (self : Core) (transaction : P.Tx) : CoreM B Bool := do
  match ← self.transactionObservation (P.computeTxid transaction) with
  | none => return false
  | some observed => do
    Program.of (ensure (observed.transaction = transaction)
      "Bitcoin Core transaction bytes do not match the saved transaction")
    return true

/-- `broadcast_exact`. -/
def broadcastExact (self : Core) (transaction : P.Tx) : CoreM B P.Txid := do
  Program.of (validateFundingInputs transaction)
  let known ← self.isObserved transaction
  if known = true then
    return P.computeTxid transaction
  else do
    match ← tryCall (.sendRawTransaction transaction) with
    | .ok txid => do
      Program.of (ensure (txid = P.computeTxid transaction) "Bitcoin Core returned the wrong txid")
      let observed ← self.isObserved transaction
      Program.of (ensure (observed = true)
        "Bitcoin Core accepted the transaction but it is not observable")
      return P.computeTxid transaction
    | .error _ => do
      let observed ← self.isObserved transaction
      Program.of (ensure (observed = true) "broadcast exact transaction")
      return P.computeTxid transaction

/-- `verify_wallet`. -/
def verifyWallet (self : Core) : CoreM B Unit := do
  let info ← call .getWalletInfo "query Bitcoin Core funding wallet"
  Program.of do
    ensure (info.walletName = self.walletName)
      s!"Bitcoin Core opened wallet {info.walletName}, expected {self.walletName}"
    ensure (info.privateKeysEnabled = true)
      "Bitcoin Core funding wallet has private keys disabled"

/-- `ensure_inputs_locked`. -/
def ensureInputsLocked (transaction : P.Tx) : CoreM B Unit := do
  let locked ← call (.lockUnspent (spentOutputs transaction))
    "persistently lock funding transaction inputs"
  Program.of (ensure (locked = true) "Bitcoin Core did not lock every funding input")

/-- `test_prepared_funding`. -/
def testPreparedFunding (transaction : P.Tx) (expectedFee : Option Nat) : CoreM B Unit := do
  let results ← call (.testMempoolAccept transaction) "test unbroadcast funding transaction"
  Program.of do
    let result ← results.head?.context "Bitcoin Core returned no funding mempool result"
    ensure (results.length = 1 ∧ result.txid = P.computeTxid transaction)
      "Bitcoin Core returned a mismatched funding mempool result"
    let reason := result.rejectReason.getD "unknown reason"
    ensure (result.allowed = true) s!"funding transaction is not mempool-acceptable: {reason}"
    ensure (expectedFee.isNone = true ∨ result.baseFee = expectedFee)
      "Bitcoin Core funding fee changed during finalization"

/-- `funding_transaction_state`. -/
def fundingTransactionState (transaction : P.Tx) : CoreM B FundingTransactionState := do
  match ← tryCall (.getTransaction (P.computeTxid transaction)) with
  | .error .notFound => return .unknown
  | .error .other => Program.of (throw "query Bitcoin Core funding transaction")
  | .ok result => do
    Program.of do
      ensure (result.txid = P.computeTxid transaction)
        "Bitcoin Core returned a mismatched funding transaction"
      let observed ← result.hex.decode "Bitcoin Core returned invalid funding hex"
        "Bitcoin Core returned an invalid funding transaction"
      ensure (observed = transaction)
        "Bitcoin Core funding transaction bytes do not match the journal"
      ensure (0 ≤ result.confirmations ∧ result.walletconflicts = [])
        "funding transaction is conflicted"
    if 0 < result.confirmations then
      return .known
    else do
      let waits ← isInMempool (P.computeTxid transaction)
        "query Bitcoin Core funding mempool entry"
      return if waits = true then .known else .evicted

/-- `validate_prepared_funding`. -/
def validatePreparedFunding (self : Core) (metadata : CoinMetadata P) (transaction : P.Tx) :
    CoreM B Unit := do
  self.verifyWallet
  Program.of (validateFinalizedFunding metadata transaction)
  ensureInputsLocked transaction
  testPreparedFunding transaction none

/-- `broadcast_funding`. -/
def broadcastFunding (self : Core) (metadata : CoinMetadata P) (transaction : P.Tx) :
    CoreM B P.Txid := do
  self.verifyWallet
  Program.of (validateFinalizedFunding metadata transaction)
  let state ← fundingTransactionState transaction
  if state = .known then
    return P.computeTxid transaction
  else do
    (if state = .unknown then ensureInputsLocked transaction else pure ())
    testPreparedFunding transaction none
    match ← tryCall (.sendRawTransaction transaction) with
    | .ok txid => do
      Program.of (ensure (txid = P.computeTxid transaction)
        "Bitcoin Core returned the wrong funding txid")
      return txid
    | .error _ => do
      let state ← fundingTransactionState transaction
      Program.of (ensure (state = .known) "broadcast funding transaction")
      return P.computeTxid transaction

/-- What `prepare_funding` checks of the finalized transaction; it gives the funding output. -/
def checkFinalizedFunding (keys : CoinKeys P) (transaction : P.Tx) (amountSat : Nat) :
    Except String (OutPoint P.Txid) := do
  validateFundingInputs transaction
  match matchingOutputs transaction (fundingScript keys) with
  | [(output, vout)] => do
    ensure (output.value = amountSat) "funding transaction changed the Tinylayer output amount"
    ensure (vout ≤ u32Max) "funding output index exceeds u32"
    return { txid := P.computeTxid transaction, vout }
  | _ => throw "funding transaction must contain exactly one Tinylayer output"

/-- `prepare_funding`. -/
def prepareFunding (self : Core) (keys : CoinKeys P) (amountSat feeRateSatVb maxFeeSat : Nat) :
    CoreM B (PreparedFunding P) := do
  self.verifyWallet
  Program.of do
    ensure (0 < feeRateSatVb) "funding fee rate must be positive"
    ensure (amountSat ≤ maxMoney) "funding amount exceeds Bitcoin MAX_MONEY"
  let address := B.addressP2trTweaked (fundingOutputKey keys) self.network
  let funded ← call (.walletCreateFundedPsbt address amountSat feeRateSatVb)
    "create unbroadcast funding PSBT"
  Program.of (ensure (funded.fee ≤ maxFeeSat)
    s!"funding fee {funded.fee} sat exceeds maximum {maxFeeSat} sat")
  let processed ← call (.walletProcessPsbt funded.psbt)
    "sign funding PSBT with Bitcoin Core wallet"
  Program.of (ensure (processed.complete = true)
    "Bitcoin Core did not completely sign the funding PSBT")
  let finalized ← call (.finalizePsbt processed.psbt) "finalize funding PSBT"
  let (transaction, outpoint) ← Program.of do
    ensure (finalized.complete = true)
      "Bitcoin Core did not completely finalize the funding PSBT"
    let bytes ← finalized.hex.context "finalized funding PSBT has no transaction"
    let transaction ← bytes.context "Bitcoin Core returned an invalid funding transaction"
    let outpoint ← checkFinalizedFunding keys transaction amountSat
    return (transaction, outpoint)
  testPreparedFunding transaction (some funded.fee)
  return { transaction, outpoint, feeSat := funded.fee }

/-- `submit_package`. -/
def submitPackage (parentHex childHex : String) : CoreM B Unit := do
  let response ← call (.submitPackage parentHex childHex) "submit recovery package"
  Program.of (ensure (response.packageMsg.getD "" = "success")
    s!"recovery package was not accepted: {response.text}")

/-! ## The chain backend -/

/-- How a `Chain` that is a node answers the questions of a command. The other questions are not about
the chain, but for the one in which the wallet of the node funds a transaction, which is a part of
`prepare_funding`. -/
def answer (self : Core) : (query : Query P) → Option (CoreM B query.Answer)
  | .connectChain => some (pure ())
  | .verifyFunding metadata minimumConfirmations =>
    some (self.verifyFunding metadata minimumConfirmations)
  | .observeFunding metadata => some (self.observeFunding metadata)
  | .transaction txid => some (self.transactionObservation txid)
  | .observeAuthorizedTransaction transaction => some (self.observeAuthorizedTransaction transaction)
  | .outspend outpoint => some (self.outspend outpoint)
  | .confirmedSourceUtxos _ =>
    some (Program.of (throw "local deposit funding requires an explorer backend"))
  | .recommendedFeeRate => some (pure 1)
  | .testPreparedFunding transaction expectedFee =>
    some (testPreparedFunding transaction expectedFee)
  | .validatePreparedFunding metadata transaction =>
    some (self.validatePreparedFunding metadata transaction)
  | .broadcastFunding metadata transaction => some (self.broadcastFunding metadata transaction)
  | .broadcastExact transaction => some (self.broadcastExact transaction)
  | .submitPackage parentHex childHex => some (submitPackage parentHex childHex)
  | _ => none

end Core

/-! ## Truthful nodes -/

section Truth

variable {B} {blocks : Blocks B} {M : Type}

/-- What is answered is right. What the wallet of the node does is left open. -/
def CoreQuery.Truth (view : Ledger.View blocks) : (query : CoreQuery P) → query.Answer B → Prop
  | getRawTransactionInfo txid, info => ∃ transaction, info.transaction = some transaction ∧
      P.computeTxid transaction = txid ∧
      (0 < info.confirmations.getD 0 → Deep view transaction (info.confirmations.getD 0))
  | getTransaction txid, result => 0 < result.confirmations → ∃ transaction,
      P.computeTxid transaction = txid ∧ Deep view transaction result.confirmations.toNat
  | getMempoolEntry txid, _ => ∃ transaction ∈ view.mempool, P.computeTxid transaction = txid
  | getTxOut outpoint, some info => Unspent view outpoint ∧
      view.chain.getLast? = some info.bestblock ∧
      ∃ transaction output, Makes transaction outpoint output ∧
        Deep view transaction info.confirmations ∧ info.value = output.value ∧
        (∀ script, info.scriptPubkey = some script → script = output.scriptPubkey) ∧
        info.coinbase = isCoinbase transaction
  | getTxOut outpoint, none => ∀ transaction output, view.Knows transaction →
      Makes transaction outpoint output → ¬ Unspent view outpoint
  | getTxSpendingPrevout outpoint, results => ∀ result ∈ results, ∀ txid,
      result.spendingTxid = some txid →
      ∃ spender ∈ view.mempool, outpoint ∈ spentOutputs spender ∧ P.computeTxid spender = txid
  | getBlockchainInfo, info => info.blocks = view.tip ∧
      view.chain.getLast? = some info.bestBlockHash
  | _, _ => True

/-- A node that answers with an error, or with what is right at the time of the answer. The ledger
can change before every answer. -/
def truthfulCore [Preorder M] (history : M → Ledger.View blocks) :
    Environment (CoreQuery P) (CoreQuery.Reply B) M :=
  fun t query reply t' => t ≤ t' ∧ ∀ answer, reply = .ok answer → query.Truth (history t') answer

end Truth

end Tinylayer
