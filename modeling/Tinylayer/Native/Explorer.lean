import Tinylayer.Native.ChainPlatform

/-!
# The explorer

The explorer of `wallet/src/services.rs`: a client of an HTTP server with the interface of Esplora.
What the server answers is arbitrary; an answer that cannot be read is an error. The client makes up
its observations from several answers, between which the chain can change.
-/

namespace Tinylayer

open Durable

variable {P : Platform} (B : ChainPlatform P)

structure ExplorerTxStatus where
  confirmed : Bool
  blockHeight : Option Nat
  blockHash : Option B.BlockHash
deriving DecidableEq

structure ExplorerTx where
  txid : P.Txid
  status : ExplorerTxStatus B
deriving DecidableEq

structure ExplorerAddressUtxo where
  txid : P.Txid
  vout : Nat
  value : Nat
  status : ExplorerTxStatus B
deriving DecidableEq

structure ExplorerOutspend where
  spent : Bool
  txid : Option P.Txid
  status : Option (ExplorerTxStatus B)
deriving DecidableEq

/-- The output that is listed. -/
def ExplorerAddressUtxo.outpoint {B : ChainPlatform P} (self : ExplorerAddressUtxo B) :
    OutPoint P.Txid :=
  { txid := self.txid, vout := self.vout }

/-! ## Requests -/

/-- The GET requests. -/
inductive ExplorerGet (P : Platform)
  | tx (txid : P.Txid)
  | txHex (txid : P.Txid)
  | outspend (outpoint : OutPoint P.Txid)
  | addressUtxo (address : P.Address)
  | tipHeight
  | blockHeight (height : Nat)

namespace ExplorerGet

/-- What the body of a response is read as. -/
@[reducible] def Answer : ExplorerGet P → Type
  | tx _ => ExplorerTx B
  | txHex _ => P.Tx
  | outspend _ => ExplorerOutspend B
  | addressUtxo _ => List (ExplorerAddressUtxo B)
  | tipHeight => Nat
  | blockHeight _ => B.BlockHash

def path : ExplorerGet P → String
  | tx txid => s!"/tx/{B.txidToString txid}"
  | txHex txid => s!"/tx/{B.txidToString txid}/hex"
  | outspend outpoint => s!"/tx/{B.txidToString outpoint.txid}/outspend/{outpoint.vout}"
  | addressUtxo address => s!"/address/{P.addressToString address}/utxo"
  | tipHeight => "/blocks/tip/height"
  | blockHeight height => s!"/block-height/{height}"

end ExplorerGet

/-- A response to a POST request, if there is one; its body may not be readable. -/
inductive HttpReply
  | unsent (error : String)
  | response (status : Nat) (body : Except String String)

/-- `StatusCode::is_success`. -/
def isSuccess (status : Nat) : Bool := decide (200 ≤ status ∧ status < 300)

/-- The requests. -/
inductive ExplorerQuery (P : Platform)
  | get (request : ExplorerGet P)
  | postTx (body : String)
  | postPackage (path parentHex childHex : String)

/-- What a request is answered with. A GET request is answered with nothing by the status 404. -/
@[reducible] def ExplorerQuery.Reply : ExplorerQuery P → Type
  | get request => Except String (Option (request.Answer B))
  | postTx _ => HttpReply
  | postPackage .. => HttpReply

/-- A part of what the client does. -/
abbrev ExplorerM (α : Type) : Type := Inquiry (ExplorerQuery P) (ExplorerQuery.Reply B) String α

/-- The client of an explorer. -/
structure Explorer where
  network : NetworkId

namespace Explorer

variable {B}

/-- `get_text_optional` and `get_json_optional`. -/
def getOptional (request : ExplorerGet P) : ExplorerM B (Option (request.Answer B)) := do
  let reply ← Program.question (.get request)
  Program.of reply

/-- `get_text` and `get_json`. -/
def get (request : ExplorerGet P) : ExplorerM B (request.Answer B) := do
  let answer ← getOptional request
  Program.of (answer.context s!"explorer returned HTTP 404 for {request.path B}")

def blockHashAtHeight (height : Nat) : ExplorerM B B.BlockHash := get (.blockHeight height)

def tipHeight : ExplorerM B Nat := get .tipHeight

def mutinynetCheckpointHeight : Nat := 1

def mutinynetCheckpointHash : String :=
  "000002855893a0a9b24eaffc5efc770558a326fee4fc10c9da22fc19cd2954f9"

/-- `verify_network`. -/
def verifyNetwork (self : Explorer) : ExplorerM B Unit := do
  let observed ← blockHashAtHeight 0
  Program.of (ensure (observed = B.genesisHash self.network)
    s!"explorer genesis {B.blockHashToString observed} does not match {networkName self.network}")
  match self.network with
  | .mutinynet => do
    let observed ← blockHashAtHeight mutinynetCheckpointHeight
    Program.of do
      let expected ← (B.blockHashFromStr mutinynetCheckpointHash).context
        "invalid built-in Mutinynet checkpoint"
      ensure (observed = expected)
        "explorer is Signet but does not match the Mutinynet checkpoint"
  | _ => return ()

/-- `status_confirmations`. -/
def statusConfirmations (status : ExplorerTxStatus B) (tipHeight : Nat) : ExplorerM B Nat :=
  if status.confirmed = true then do
    let (blockHeight, blockHash) ← Program.of do
      let blockHeight ← status.blockHeight.context
        "confirmed explorer transaction has no block height"
      let blockHash ← status.blockHash.context "confirmed explorer transaction has no block hash"
      return (blockHeight, blockHash)
    let observed ← blockHashAtHeight blockHeight
    Program.of do
      ensure (observed = blockHash) "transaction block is not in the current best chain"
      ((checkedSub tipHeight blockHeight).bind fun depth => checkedAdd u32Max depth 1).context
        "transaction block is above the chain tip"
  else do
    Program.of (ensure (status.blockHeight.isNone = true ∧ status.blockHash.isNone = true)
      "unconfirmed explorer transaction has block metadata")
    return 0

/-- `raw_transaction_optional`. -/
def rawTransactionOptional (txid : P.Txid) : ExplorerM B (Option P.Tx) := do
  match ← getOptional (.txHex txid) with
  | none => return none
  | some transaction => do
    Program.of (ensure (P.computeTxid transaction = txid)
      "explorer raw transaction has the wrong txid")
    return some transaction

/-- `transaction_observation`. -/
def transactionObservation (txid : P.Txid) : ExplorerM B (Option (TransactionObservation P)) := do
  match ← getOptional (.tx txid) with
  | none => return none
  | some summary => do
    Program.of (ensure (summary.txid = txid) "explorer transaction has the wrong txid")
    let raw ← rawTransactionOptional txid
    let transaction ← Program.of
      (raw.context "explorer transaction summary has no raw transaction")
    let tipHeight ← tipHeight
    let confirmations ← statusConfirmations summary.status tipHeight
    return some { transaction, tipHeight, confirmations, rawBytesObserved := true }

/-- `outspend`. -/
def outspend (outpoint : OutPoint P.Txid) : ExplorerM B (OutspendObservation P) := do
  let outspend ← get (.outspend outpoint)
  if outspend.spent = true then do
    let spendingTxid ← Program.of
      (outspend.txid.context "spent explorer output has no spending txid")
    let status ← Program.of (outspend.status.context "spent explorer output has no spending status")
    let tipHeight ← tipHeight
    let confirmations ← statusConfirmations status tipHeight
    return { spent := true, spendingTxid := some spendingTxid,
             spendingConfirmed := decide (0 < confirmations) }
  else do
    Program.of (ensure (outspend.txid.isNone = true)
      "unspent explorer output unexpectedly names a spender")
    return { spent := false, spendingTxid := none, spendingConfirmed := false }

/-- `observe_funding`. -/
def observeFunding (self : Explorer) (metadata : CoinMetadata P) :
    ExplorerM B (DetailedFundingObservation P) := do
  Program.of (ensure (metadata.network = self.network) "funding network does not match explorer")
  let observed ← transactionObservation metadata.outpoint.txid
  let (observed, output) ← Program.of do
    let observed ← observed.context "funding transaction is missing"
    let output ← observed.transaction.output[metadata.outpoint.vout]?.context
      "funding output index is missing"
    Client.lift (verifyFundingUtxo metadata metadata.outpoint output)
    ensure (isCoinbase observed.transaction = false ∨ 100 ≤ observed.confirmations)
      "coinbase funding output is not mature"
    return (observed, output)
  let outspend ← outspend metadata.outpoint
  return {
    funding := {
      outpoint := metadata.outpoint
      output
      confirmations := observed.confirmations
      unspent := !outspend.spent
      coinbase := isCoinbase observed.transaction }
    tipHeight := observed.tipHeight
    spendingTxid := outspend.spendingTxid
    spendingConfirmed := outspend.spendingConfirmed }

/-- `verify_funding`. -/
def verifyFunding (self : Explorer) (metadata : CoinMetadata P) (minimumConfirmations : Nat) :
    ExplorerM B FundingObservation := do
  let observed ← self.observeFunding metadata
  let spender := observed.spendingTxid.elim "an unknown transaction" B.txidToString
  Program.of do
    ensure (observed.funding.unspent = true) s!"funding output is spent by {spender}"
    ensure (minimumConfirmations ≤ observed.funding.confirmations)
      s!"funding output has {observed.funding.confirmations} confirmations; {minimumConfirmations} required"
  return { tipHeight := observed.tipHeight, confirmations := observed.funding.confirmations }

/-! ## Deposits -/

/-- The order in which deposits are looked at: the largest come first. -/
def candidateLe (a b : ExplorerAddressUtxo B) : Prop :=
  b.value < a.value ∨ b.value = a.value ∧ OutPoint.le a.outpoint b.outpoint

instance decidableCandidateLe (a b : ExplorerAddressUtxo B) : Decidable (candidateLe a b) :=
  inferInstanceAs (Decidable (_ ∨ _))

/-- The part of `confirmed_source_utxos` that selects from the listed outputs. -/
def depositCandidates (listed : List (ExplorerAddressUtxo B)) : List (ExplorerAddressUtxo B) :=
  (listed.insertionSort candidateLe).take maxSourceUtxoCandidates

/-- The body of the loop of `confirmed_source_utxos`. -/
def observeDeposit (address : P.Address) (listed : ExplorerAddressUtxo B) :
    ExplorerM B (SourceUtxo P) := do
  let observed ← transactionObservation listed.txid
  let (observed, output) ← Program.of do
    let observed ← observed.context "explorer listed a missing deposit transaction"
    ensure (0 < observed.confirmations) "explorer listed an unconfirmed deposit as confirmed"
    let output ← observed.transaction.output[listed.vout]?.context
      "deposit output index is missing"
    ensure (output.value = listed.value)
      "explorer deposit amount does not match its raw transaction"
    ensure (output.scriptPubkey = P.addressScript address)
      "explorer deposit does not pay the local deposit address"
    return (observed, output)
  let outspend ← outspend listed.outpoint
  Program.of (ensure (outspend.spent = false) "explorer listed a spent deposit output")
  return {
    outpoint := listed.outpoint
    output
    confirmations := observed.confirmations
    coinbase := isCoinbase observed.transaction }

/-- `confirmed_source_utxos`. -/
def confirmedSourceUtxos (address : P.Address) : ExplorerM B (List (SourceUtxo P)) := do
  let listed ← get (.addressUtxo address)
  let confirmed := listed.filter fun utxo => utxo.status.confirmed
  Program.of (ensure (confirmed.map ExplorerAddressUtxo.outpoint).Nodup
    "explorer returned a duplicate deposit output")
  let sources ← Inquiry.forEach (observeDeposit address) (depositCandidates confirmed)
  return sortSources sources

/-! ## Submissions -/

/-- `exact_transaction_is_observed`. -/
def exactTransactionIsObserved (expected : P.Tx) : ExplorerM B Bool := do
  match ← transactionObservation (P.computeTxid expected) with
  | none => return false
  | some observed => do
    Program.of (ensure (observed.transaction = expected)
      "explorer transaction bytes do not match the saved transaction")
    return true

/-- A submission that failed is a success if the transaction is known nevertheless. -/
def unlessObserved (transaction : P.Tx) (error : String) : ExplorerM B P.Txid := do
  let observed ← exactTransactionIsObserved transaction
  Program.of (ensure (observed = true) error)
  return P.computeTxid transaction

/-- Posts the bytes of a transaction. -/
def postTx (transaction : P.Tx) : ExplorerM B HttpReply :=
  Program.question (ExplorerQuery.postTx (P.serializeHex transaction))

/-- `broadcast_exact`. -/
def broadcastExact (transaction : P.Tx) : ExplorerM B P.Txid := do
  Program.of (validateFundingInputs transaction)
  let known ← exactTransactionIsObserved transaction
  if known = true then
    return P.computeTxid transaction
  else do
    match ← postTx transaction with
    | .unsent _ => unlessObserved transaction "broadcast exact transaction"
    | .response status body => do
      let body ← Program.of body
      if isSuccess status = true then do
        Program.of do
          let returned ← (B.txidFromText body).context
            "explorer returned an invalid broadcast txid"
          ensure (returned = P.computeTxid transaction)
            "explorer returned the wrong broadcast txid"
        unlessObserved transaction
          "explorer accepted the transaction but did not expose its exact bytes"
      else
        unlessObserved transaction s!"explorer rejected transaction with HTTP {status}: {body}"

/-- `post_package`. -/
def postPackage (path parentHex childHex : String) :
    ExplorerM B (Nat × Except String String) := do
  let reply : HttpReply ← Program.question (ExplorerQuery.postPackage path parentHex childHex)
  match reply with
  | .unsent _ => Program.of (throw s!"submit recovery package to {path}")
  | .response status body => return (status, body)

/-- `submit_package`. -/
def submitPackage (parentHex childHex : String) : ExplorerM B Unit := do
  let response ← postPackage "/txs/package" parentHex childHex
  let (status, body) ← (if response.1 = 404 then
    postPackage "/v1/txs/package" parentHex childHex else pure response)
  Program.of do
    let body ← body
    ensure (isSuccess status = true)
      s!"explorer rejected the recovery package with HTTP {status}: {body}"
    let message ← (B.packageMsg body).context "invalid package submission response"
    ensure (message = "success") s!"recovery package was not accepted: {body}"

/-! ## The chain backend -/

/-- The part of `Chain::observe_authorized_transaction` for an explorer. -/
def observeAuthorizedTransaction (transaction : P.Tx) :
    ExplorerM B (Option (TransactionObservation P)) := do
  let observed ← transactionObservation (P.computeTxid transaction)
  Program.of (ensure (∀ found ∈ observed, found.transaction = transaction)
    "explorer transaction bytes do not match the authorized transaction")
  return observed

/-- How a `Chain` that is an explorer answers the questions of a command. The other questions are not
about the chain, but for the fee rate, which is a floating-point number. -/
def answer (self : Explorer) : (query : Query P) → Option (ExplorerM B query.Answer)
  | .connectChain => some self.verifyNetwork
  | .verifyFunding metadata minimumConfirmations =>
    some (self.verifyFunding metadata minimumConfirmations)
  | .observeFunding metadata => some (self.observeFunding metadata)
  | .transaction txid => some (transactionObservation txid)
  | .observeAuthorizedTransaction transaction => some (observeAuthorizedTransaction transaction)
  | .outspend outpoint => some (outspend outpoint)
  | .confirmedSourceUtxos address => some (confirmedSourceUtxos address)
  | .fundTransaction .. =>
    some (Program.of (throw "automatic funding requires a Bitcoin Core wallet backend"))
  | .testPreparedFunding .. =>
    some (Program.of (throw "automatic funding requires a Bitcoin Core wallet backend"))
  | .validatePreparedFunding .. =>
    some (Program.of (throw "prepared funding requires a Bitcoin Core wallet backend"))
  | .broadcastFunding .. =>
    some (Program.of (throw "automatic funding requires a Bitcoin Core wallet backend"))
  | .broadcastExact transaction => some (broadcastExact transaction)
  | .submitPackage parentHex childHex => some (submitPackage parentHex childHex)
  | _ => none

end Explorer

/-! ## Truthful explorers -/

section Truth

variable {B} {blocks : Blocks B} {M : Type}

/-- The status says where the transaction is. -/
inductive ExplorerTxStatus.Describes (view : Ledger.View blocks) (transaction : P.Tx) :
    ExplorerTxStatus B → Prop
  | waiting (h : transaction ∈ view.mempool) : Describes view transaction ⟨false, none, none⟩
  | confirmed {height hash} (h : view.Holds height hash transaction) :
      Describes view transaction ⟨true, some height, some hash⟩

/-- The output pays to the address, and no known transaction spends it. -/
structure ExplorerAddressUtxo.Listed (view : Ledger.View blocks) (address : P.Address)
    (utxo : ExplorerAddressUtxo B) : Prop where
  made : ∃ transaction output, utxo.status.Describes view transaction ∧
    Makes transaction utxo.outpoint output ∧ output.value = utxo.value ∧
    output.scriptPubkey = P.addressScript address
  unspent : Unspent view utxo.outpoint

/-- What is said of an output is right. -/
def ExplorerOutspend.Describes (view : Ledger.View blocks) (outpoint : OutPoint P.Txid)
    (self : ExplorerOutspend B) : Prop :=
  if self.spent = true then
    ∃ spender status, outpoint ∈ spentOutputs spender ∧ self.txid = some (P.computeTxid spender) ∧
      self.status = some status ∧ status.Describes view spender
  else Unspent view outpoint

/-- What is answered is right. -/
def ExplorerGet.Truth (view : Ledger.View blocks) :
    (request : ExplorerGet P) → request.Answer B → Prop
  | tx txid, summary => summary.txid = txid ∧
      ∃ transaction, P.computeTxid transaction = txid ∧ summary.status.Describes view transaction
  | txHex txid, transaction => view.Knows transaction ∧ P.computeTxid transaction = txid
  | outspend outpoint, answer => answer.Describes view outpoint
  | addressUtxo address, listed => ∀ utxo, utxo ∈ listed ↔ utxo.Listed view address
  | tipHeight, height => height = view.tip
  | blockHeight height, hash => view.chain[height]? = some hash

/-- The request asks for something that is not there. -/
def ExplorerGet.Unknown (view : Ledger.View blocks) : ExplorerGet P → Prop
  | tx txid | txHex txid => ∀ transaction, view.Knows transaction → P.computeTxid transaction ≠ txid
  | outspend outpoint =>
    ∀ transaction, view.Knows transaction → P.computeTxid transaction ≠ outpoint.txid
  | blockHeight height => view.tip < height
  | _ => False

/-- An explorer that answers with an error, or with what is right at the time of the answer. The
ledger can change before every answer. -/
def truthfulExplorer [Preorder M] (history : M → Ledger.View blocks) :
    Environment (ExplorerQuery P) (ExplorerQuery.Reply B) M
  | t, .get request, reply, t' => t ≤ t' ∧
      (∀ answer, reply = .ok (some answer) → request.Truth (history t') answer) ∧
      (reply = .ok none → request.Unknown (history t'))
  | t, .postTx _, _, t' => t ≤ t'
  | t, .postPackage .., _, t' => t ≤ t'

end Truth

end Tinylayer
