import Tinylayer.Lib.Inquiry
import Tinylayer.Lib.Ledger
import Tinylayer.Native.ChainView

/-!
# What the chain services are built on

The functions of rust-bitcoin that only the chain services of `wallet/src/services.rs` call, and the
ledger that the servers behind them are asked about.
-/

namespace Tinylayer

variable {P : Platform}

/-- The types and functions of the third-party libraries that only the chain services use. -/
structure ChainPlatform (P : Platform) where
  BlockHash : Type
  [decBlockHash : DecidableEq BlockHash]
  genesisHash : NetworkId → BlockHash
  blockHashFromStr : String → Option BlockHash
  blockHashToString : BlockHash → String
  txidToString : P.Txid → String
  addressP2trTweaked : P.XOnlyPublicKey → NetworkId → P.Address
  /-- `body.trim().parse()` as a transaction id. -/
  txidFromText : String → Option P.Txid
  /-- The `package_msg` of a JSON text. -/
  packageMsg : String → Option String

attribute [instance] ChainPlatform.decBlockHash

/-- `Transaction::is_coinbase`. -/
def isCoinbase (transaction : P.Tx) : Bool :=
  match spentOutputs transaction with
  | [outpoint] => P.isNull outpoint
  | _ => false

/-- The id of a transaction commits to what it spends. -/
theorem spentOutputs_of_stripWitness {transaction transaction' : P.Tx}
    (h : transaction.stripWitness = transaction'.stripWitness) :
    spentOutputs transaction = spentOutputs transaction' := by
  have hstrip : ∀ tx : P.Tx, spentOutputs tx.stripWitness = spentOutputs tx := by
    intro tx
    rw [spentOutputs, Transaction.stripWitness, List.map_map]
    rfl
  rw [← hstrip transaction, h, hstrip]

theorem isCoinbase_of_stripWitness {transaction transaction' : P.Tx}
    (h : transaction.stripWitness = transaction'.stripWitness) :
    isCoinbase transaction = isCoinbase transaction' := by
  rw [isCoinbase, spentOutputs_of_stripWitness h, isCoinbase]

/-! ## The ledger -/

/-- All blocks that were ever made. -/
abbrev Blocks (B : ChainPlatform P) := Ledger.BlockTree B.BlockHash P.Tx

variable {B : ChainPlatform P} {blocks : Blocks B}

/-- The transaction has this many confirmations; it has none while it waits for a block. -/
inductive Deep (view : Ledger.View blocks) (transaction : P.Tx) : Nat → Prop
  | waiting (h : transaction ∈ view.mempool) : Deep view transaction 0
  | confirmed {height hash} (h : view.Holds height hash transaction) :
      Deep view transaction (view.tip + 1 - height)

/-- No known transaction spends the output. -/
def Unspent (view : Ledger.View blocks) (outpoint : OutPoint P.Txid) : Prop :=
  ∀ transaction, view.Knows transaction → outpoint ∉ spentOutputs transaction

/-- The transaction makes the output. -/
structure Makes (transaction : P.Tx) (outpoint : OutPoint P.Txid) (output : TxOut) : Prop where
  txid : P.computeTxid transaction = outpoint.txid
  output : transaction.output[outpoint.vout]? = some output

/-- The id of a transaction commits to its outputs. -/
theorem Makes.of_stripWitness {transaction transaction' : P.Tx} {outpoint : OutPoint P.Txid}
    {output : TxOut} (h : Makes transaction outpoint output)
    (hstrip : transaction'.stripWitness = transaction.stripWitness) :
    Makes transaction' outpoint output where
  txid := by
    rw [Platform.computeTxid, hstrip]
    exact h.txid
  output := by
    have houtputs : transaction'.stripWitness.output = transaction.stripWitness.output := by
      rw [hstrip]
    exact (congrArg (·[outpoint.vout]?) houtputs).trans h.output

theorem Deep.knows {view : Ledger.View blocks} {transaction : P.Tx} {confirmations : Nat}
    (h : Deep view transaction confirmations) : view.Knows transaction := by
  cases h with
  | waiting h => exact Or.inl h
  | confirmed h => exact h.knows

section Seen

variable {M : Type} [Preorder M]

/-- No two transactions that were known at any time share an id. -/
def DistinctIds (history : M → Ledger.View blocks) : Prop :=
  ∀ {s s' : M} {transaction transaction' : P.Tx}, (history s).Knows transaction →
    (history s').Knows transaction' → P.computeTxid transaction = P.computeTxid transaction' →
    transaction.stripWitness = transaction'.stripWitness

/-! ## What was seen during a call -/

/-- While the time went from `t` to `t'`, the transaction was known, with this many confirmations
below a tip of the given height: it is still in the best chain when its block is looked up, and not
above the tip that was seen before. -/
inductive SeenDeep (history : M → Ledger.View blocks) (t t' : M) (transaction : P.Tx)
    (tipHeight : Nat) : Nat → Prop
  | waiting {s} (after : t ≤ s) (before : s ≤ t') (h : transaction ∈ (history s).mempool) :
      SeenDeep history t t' transaction tipHeight 0
  | confirmed {s u v height hash} (after : t ≤ s) (later : s ≤ u) (last : u ≤ v) (before : v ≤ t')
      (first : (history s).Holds height hash transaction) (tip : (history u).tip = tipHeight)
      (still : (history v).Holds height hash transaction) (below : height ≤ tipHeight) :
      SeenDeep history t t' transaction tipHeight (tipHeight + 1 - height)

/-- While the time went from `t` to `t'`, the output was unspent. -/
def SeenUnspent (history : M → Ledger.View blocks) (t t' : M) (outpoint : OutPoint P.Txid) : Prop :=
  ∃ s, t ≤ s ∧ s ≤ t' ∧ Unspent (history s) outpoint

/-- What is reported of a funding was right at some time while the time went from `t` to `t'`: first
its depth, and then that the output was unspent. -/
structure FundingSeen (history : M → Ledger.View blocks) (t t' : M) (metadata : CoinMetadata P)
    (observed : DetailedFundingObservation P) : Prop where
  outpoint : observed.funding.outpoint = metadata.outpoint
  output : observed.funding.output =
    { value := metadata.amountSat, scriptPubkey := fundingScript metadata.keys }
  mature : observed.funding.coinbase = false ∨ 100 ≤ observed.funding.confirmations
  seen : ∃ transaction s, Makes transaction metadata.outpoint observed.funding.output ∧
    isCoinbase transaction = observed.funding.coinbase ∧ t ≤ s ∧ s ≤ t' ∧
    SeenDeep history t s transaction observed.tipHeight observed.funding.confirmations ∧
    (observed.funding.unspent = true → SeenUnspent history s t' metadata.outpoint)

/-- The deposit was confirmed, and then unspent, while the time went from `t` to `t'`. -/
def DepositSeen (history : M → Ledger.View blocks) (t t' : M) (address : P.Address)
    (source : SourceUtxo P) : Prop :=
  ∃ transaction tipHeight s, Makes transaction source.outpoint source.output ∧
    source.output.scriptPubkey = P.addressScript address ∧
    isCoinbase transaction = source.coinbase ∧ 0 < source.confirmations ∧ t ≤ s ∧ s ≤ t' ∧
    SeenDeep history t s transaction tipHeight source.confirmations ∧
    SeenUnspent history s t' source.outpoint

/-- The listed deposits were there while the time went from `t` to `t'`, and at some time then no
confirmed deposit was missing, unless the list was full with deposits of at least its value. -/
structure DepositsSeen (history : M → Ledger.View blocks) (t t' : M) (address : P.Address)
    (sources : List (SourceUtxo P)) : Prop where
  sorted : (sources.map SourceUtxo.outpoint).Pairwise fun a b => OutPoint.le a b ∧ a ≠ b
  limit : sources.length ≤ maxSourceUtxoCandidates
  seen : ∀ source ∈ sources, DepositSeen history t t' address source
  complete : ∃ s, t ≤ s ∧ s ≤ t' ∧ ∀ height hash transaction outpoint output,
    (history s).Holds height hash transaction → Makes transaction outpoint output →
    output.scriptPubkey = P.addressScript address → Unspent (history s) outpoint →
    (∃ source ∈ sources, source.outpoint = outpoint) ∨
      (sources.length = maxSourceUtxoCandidates ∧
        ∀ source ∈ sources, output.value ≤ source.output.value)

variable {history : M → Ledger.View blocks} {t₀ t t' t₁ : M}

/-! What was seen during a part of a call was seen during the call. -/

theorem SeenDeep.mono {transaction : P.Tx} {tipHeight confirmations : Nat}
    (h : SeenDeep history t t' transaction tipHeight confirmations) (hstart : t₀ ≤ t)
    (hend : t' ≤ t₁) : SeenDeep history t₀ t₁ transaction tipHeight confirmations := by
  cases h with
  | waiting after before h => exact .waiting (le_trans hstart after) (le_trans before hend) h
  | confirmed after later last before first tip still below =>
    exact .confirmed (le_trans hstart after) later last (le_trans before hend) first tip still below

theorem SeenDeep.knows {transaction : P.Tx} {tipHeight confirmations : Nat}
    (h : SeenDeep history t t' transaction tipHeight confirmations) :
    ∃ s, t ≤ s ∧ s ≤ t' ∧ (history s).Knows transaction := by
  cases h with
  | waiting after before h => exact ⟨_, after, before, Or.inl h⟩
  | confirmed after later last before first =>
    exact ⟨_, after, le_trans later (le_trans last before), first.knows⟩

/-- What is right at one time was seen. -/
theorem Deep.seen {transaction : P.Tx} {confirmations : Nat} {s : M}
    (h : Deep (history s) transaction confirmations) (after : t ≤ s) (before : s ≤ t') :
    SeenDeep history t t' transaction (history s).tip confirmations := by
  cases h with
  | waiting h => exact .waiting after before h
  | confirmed h => exact .confirmed after (le_refl s) (le_refl s) before h rfl h h.le_tip

theorem SeenUnspent.mono {outpoint : OutPoint P.Txid} (h : SeenUnspent history t t' outpoint)
    (hstart : t₀ ≤ t) (hend : t' ≤ t₁) : SeenUnspent history t₀ t₁ outpoint := by
  obtain ⟨s, after, before, hs⟩ := h
  exact ⟨s, le_trans hstart after, le_trans before hend, hs⟩

theorem DepositSeen.mono {address : P.Address} {source : SourceUtxo P}
    (h : DepositSeen history t t' address source) (hstart : t₀ ≤ t) (hend : t' ≤ t₁) :
    DepositSeen history t₀ t₁ address source := by
  obtain ⟨transaction, tipHeight, s, hmakes, hscript, hcoinbase, hpos, after, before, hdeep, hunspent⟩
    := h
  exact ⟨transaction, tipHeight, s, hmakes, hscript, hcoinbase, hpos, le_trans hstart after,
    le_trans before hend, hdeep.mono hstart (le_refl s), hunspent.mono (le_refl s) hend⟩

end Seen

/-- Numbered blocks, for a platform whose addresses are given. -/
def numberedChain (P : Platform) (address : P.XOnlyPublicKey → NetworkId → P.Address) :
    ChainPlatform P where
  BlockHash := Nat
  genesisHash := fun _ => 0
  blockHashFromStr := fun _ => some 1
  blockHashToString := Nat.repr
  txidToString := fun _ => "txid"
  addressP2trTweaked := address
  txidFromText := fun _ => none
  packageMsg := fun _ => none

end Tinylayer
