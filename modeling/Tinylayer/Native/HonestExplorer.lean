import Tinylayer.Native.Explorer

/-!
# An honest explorer

A server that looks up its answers in the ledger. The ledger moves on with every request.
-/

namespace Tinylayer

variable {P : Platform} {B : ChainPlatform P} {blocks : Blocks B}

namespace HonestExplorer

variable (view : Ledger.View blocks)

/-- All known transactions, with their status. -/
def entries : List (P.Tx × ExplorerTxStatus B) :=
  view.mempool.map (fun transaction => (transaction, ⟨false, none, none⟩)) ++
    view.chain.zipIdx.flatMap fun block => (blocks.transactions block.1).map fun transaction =>
      (transaction, ⟨true, some block.2, some block.1⟩)

/-- A known transaction with the given id. -/
def find (txid : P.Txid) : Option (P.Tx × ExplorerTxStatus B) :=
  (entries view).find? fun entry => P.computeTxid entry.1 = txid

/-- A known transaction that spends the output. -/
def spender (outpoint : OutPoint P.Txid) : Option (P.Tx × ExplorerTxStatus B) :=
  (entries view).find? fun entry => outpoint ∈ spentOutputs entry.1

def outspend (outpoint : OutPoint P.Txid) : ExplorerOutspend B :=
  match spender view outpoint with
  | some entry =>
    { spent := true, txid := some (P.computeTxid entry.1), status := some entry.2 }
  | none => { spent := false, txid := none, status := none }

/-- The unspent outputs of a known transaction that pay to the address. -/
def unspentOf (address : P.Address) (entry : P.Tx × ExplorerTxStatus B) :
    List (ExplorerAddressUtxo B) :=
  let utxos := entry.1.output.zipIdx.map fun output =>
    (output.1, (⟨P.computeTxid entry.1, output.2, output.1.value, entry.2⟩ : ExplorerAddressUtxo B))
  (utxos.filter fun utxo => utxo.1.scriptPubkey = P.addressScript address ∧
    spender view utxo.2.outpoint = none).map Prod.snd

/-- What is answered to a request, unless it asks for something that is not there. -/
def lookup : (request : ExplorerGet P) → Option (request.Answer B)
  | .tx txid => (find view txid).map fun entry => { txid, status := entry.2 }
  | .txHex txid => (find view txid).map Prod.fst
  | .outspend outpoint => (find view outpoint.txid).map fun _ => outspend view outpoint
  | .addressUtxo address => some ((entries view).flatMap (unspentOf view address))
  | .tipHeight => some view.tip
  | .blockHeight height => view.chain[height]?

/-- The server, with its answers to what is posted. -/
def server (history : Nat → Ledger.View blocks) (posted : ExplorerQuery P → HttpReply) (t : Nat) :
    (query : ExplorerQuery P) → query.Reply B × Nat
  | .get request => (.ok (lookup (history (t + 1)) request), t + 1)
  | .postTx body => (posted (.postTx body), t + 1)
  | .postPackage path parentHex childHex => (posted (.postPackage path parentHex childHex), t + 1)

end HonestExplorer

end Tinylayer
