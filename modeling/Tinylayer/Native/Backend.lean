import Tinylayer.Native.Cli

/-!
# A backend

An enclave and a chain that answer the commands: the enclave is the signer, as long as it runs, and
the chain confirms at once what is broadcast to it. It accepts a package, but never confirms one.
-/

namespace Tinylayer

open Durable

variable {P : Platform}

variable (P) in
/-- The enclave and the chain. -/
structure Backend where
  signer : Signer P 1
  running : Bool
  deposits : List (SourceUtxo P)
  confirmed : List P.Tx

namespace Backend

/-- How deep a confirmed transaction is. -/
def depth : Nat := 100

/-- The confirmed transaction with the given id. -/
def find (self : Backend P) (txid : P.Txid) : Option P.Tx :=
  self.confirmed.find? fun transaction => P.computeTxid transaction = txid

/-- The confirmed transaction that spends the output. -/
def spender (self : Backend P) (outpoint : OutPoint P.Txid) : Option P.Tx :=
  self.confirmed.find? fun transaction => outpoint ∈ spentOutputs transaction

/-- The deposits that no confirmed transaction spends. -/
def unspent (self : Backend P) : List (SourceUtxo P) :=
  self.deposits.filter fun source => (self.spender source.outpoint).isNone

def confirm (self : Backend P) (transaction : P.Tx) : Backend P :=
  { self with confirmed := self.confirmed ++ [transaction] }

def observe (transaction : P.Tx) : TransactionObservation P where
  transaction := transaction
  tipHeight := depth
  confirmations := depth
  rawBytesObserved := true

/-- The funding output of a coin. -/
def observeFunding (self : Backend P) (metadata : CoinMetadata P) :
    Except String (DetailedFundingObservation P) := do
  let transaction ← (self.find metadata.outpoint.txid).context "funding transaction not found"
  let output ← transaction.output[metadata.outpoint.vout]?.context "funding output not found"
  let spender := self.spender metadata.outpoint
  return {
    funding := {
      outpoint := metadata.outpoint
      output
      confirmations := depth
      unspent := spender.isNone
      coinbase := false }
    tipHeight := depth
    spendingTxid := spender.map P.computeTxid
    spendingConfirmed := spender.isSome }

/-- The answer of the enclave, if it runs. -/
def enclave {α : Type} (self : Backend P) (call : Update Signer.Error (Signer P 1) α) :
    Except String α × Backend P :=
  if self.running = true then
    match call self.signer with
    | .ok a signer => (.ok a, { self with signer })
    | .error e signer => (.error e.message, { self with signer })
  else
    (.error "connection refused", self)

/-- The answers to the commands. -/
def answer (draws : Signer.Draws P) (self : Backend P) :
    (query : Query P) → query.Reply × Backend P
  | .connectEnclave => self.enclave (pure ())
  | .status coinId => self.enclave fun signer => Update.of (signer.status coinId) signer
  | .register request => self.enclave (Signer.register draws request)
  | .sign request => self.enclave (Signer.sign draws request)
  | .connectChain => (.ok (), self)
  | .verifyFunding metadata _ =>
    ((self.observeFunding metadata).map fun observed =>
      { tipHeight := observed.tipHeight, confirmations := observed.funding.confirmations }, self)
  | .observeFunding metadata => (self.observeFunding metadata, self)
  | .transaction txid => (.ok ((self.find txid).map observe), self)
  | .observeAuthorizedTransaction transaction =>
    (.ok ((self.find (P.computeTxid transaction)).map observe), self)
  | .outspend outpoint =>
    (.ok {
      spent := (self.spender outpoint).isSome
      spendingTxid := (self.spender outpoint).map P.computeTxid
      spendingConfirmed := (self.spender outpoint).isSome }, self)
  | .confirmedSourceUtxos _ => (.ok self.unspent, self)
  | .recommendedFeeRate => (.ok 1, self)
  | .fundTransaction .. => (.error "insufficient funds", self)
  | .testPreparedFunding .. => (.ok (), self)
  | .validatePreparedFunding .. => (.ok (), self)
  | .broadcastFunding _ transaction =>
    (.ok (P.computeTxid transaction), self.confirm transaction)
  | .broadcastExact transaction => (.ok (P.computeTxid transaction), self.confirm transaction)
  | .submitPackage .. => (.ok (), self)
  | .destinationAvailable => (.ok (), self)
  | .writeRequest _ => (.ok (), self)
  | .writeEnvelope _ => (.ok (), self)

end Backend

end Tinylayer
