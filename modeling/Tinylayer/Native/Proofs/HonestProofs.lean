import Tinylayer.Native.HonestExplorer
import Tinylayer.Native.Proofs.SteadyProofs
import Tinylayer.Native.Proofs.SweepableProofs

/-!
# Proofs: an honest explorer is truthful

What is looked up in the ledger is right, and nothing that is there is missing.
-/

namespace Tinylayer

open Durable Inquiry

variable {P : Platform} {B : ChainPlatform P} {blocks : Blocks B}

namespace HonestExplorer

variable {view : Ledger.View blocks} {entry : P.Tx × ExplorerTxStatus B}

theorem mem_entries {transaction : P.Tx} {status : ExplorerTxStatus B} :
    (transaction, status) ∈ entries view ↔ status.Describes view transaction := by
  simp only [entries, List.mem_append, List.mem_map, List.mem_flatMap, Prod.mk.injEq, Prod.exists,
    List.mem_zipIdx_iff_getElem?]
  constructor
  · rintro (⟨_, hmem, rfl, rfl⟩ | ⟨hash, height, hhash, _, hmem, rfl, rfl⟩)
    · exact .waiting hmem
    · exact .confirmed ⟨hhash, hmem⟩
  · intro h
    cases h with
    | waiting hmem => exact Or.inl ⟨_, hmem, rfl, rfl⟩
    | confirmed hholds => exact Or.inr ⟨_, _, hholds.1, _, hholds.2, rfl, rfl⟩

theorem describes_of_mem (h : entry ∈ entries view) : entry.2.Describes view entry.1 :=
  mem_entries.1 h

theorem knows_iff {transaction : P.Tx} :
    view.Knows transaction ↔ ∃ entry ∈ entries view, entry.1 = transaction := by
  constructor
  · rintro (h | ⟨height, hash, h⟩)
    · exact ⟨(_, _), mem_entries.2 (.waiting h), rfl⟩
    · exact ⟨(_, _), mem_entries.2 (.confirmed h), rfl⟩
  · rintro ⟨entry, hmem, rfl⟩
    exact (describes_of_mem hmem).knows

theorem find_some {txid : P.Txid} (h : find view txid = some entry) :
    P.computeTxid entry.1 = txid ∧ entry.2.Describes view entry.1 := by
  have hid := List.find?_some h
  exact ⟨of_decide_eq_true hid, describes_of_mem (List.mem_of_find?_eq_some h)⟩

theorem find_none {txid : P.Txid} (h : find view txid = none) (transaction : P.Tx)
    (hknows : view.Knows transaction) : P.computeTxid transaction ≠ txid := by
  obtain ⟨entry, hmem, rfl⟩ := knows_iff.1 hknows
  simpa using List.find?_eq_none.1 h entry hmem

theorem spender_none {outpoint : OutPoint P.Txid} :
    spender view outpoint = none ↔ Unspent view outpoint := by
  simp only [spender, List.find?_eq_none, decide_eq_true_eq]
  constructor
  · intro h transaction hknows
    obtain ⟨entry, hmem, rfl⟩ := knows_iff.1 hknows
    exact h entry hmem
  · exact fun h entry hmem => h entry.1 (describes_of_mem hmem).knows

theorem outspend_describes (outpoint : OutPoint P.Txid) :
    (outspend view outpoint).Describes view outpoint := by
  unfold outspend
  split
  · rename_i entry hentry
    have hspends := List.find?_some hentry
    exact ⟨entry.1, entry.2, of_decide_eq_true hspends, rfl, rfl,
      describes_of_mem (List.mem_of_find?_eq_some hentry)⟩
  · rename_i hnone
    exact spender_none.1 hnone

theorem mem_unspentOf {address : P.Address} {utxo : ExplorerAddressUtxo B} :
    utxo ∈ unspentOf view address entry ↔ ∃ output, utxo.status = entry.2 ∧
      Makes entry.1 utxo.outpoint output ∧ output.value = utxo.value ∧
      output.scriptPubkey = P.addressScript address ∧ Unspent view utxo.outpoint := by
  simp only [unspentOf, List.mem_map, List.mem_filter, decide_eq_true_eq, Prod.exists,
    List.mem_zipIdx_iff_getElem?, Prod.mk.injEq, spender_none]
  constructor
  · rintro ⟨output, _, ⟨⟨_, vout, houtput, rfl, rfl⟩, hscript, hunspent⟩, rfl⟩
    exact ⟨_, rfl, ⟨rfl, houtput⟩, rfl, hscript, hunspent⟩
  · rintro ⟨output, hstatus, hmakes, hvalue, hscript, hunspent⟩
    refine ⟨output, utxo, ⟨⟨output, utxo.vout, hmakes.output, rfl, ?_⟩, hscript, hunspent⟩, rfl⟩
    rw [hmakes.txid, hvalue, ← hstatus]
    rfl

theorem mem_listed {address : P.Address} {utxo : ExplorerAddressUtxo B} :
    utxo ∈ (entries view).flatMap (unspentOf view address) ↔ utxo.Listed view address := by
  simp only [List.mem_flatMap, mem_unspentOf]
  constructor
  · rintro ⟨entry, hmem, output, hstatus, hmakes, hvalue, hscript, hunspent⟩
    exact ⟨⟨entry.1, output, hstatus ▸ describes_of_mem hmem, hmakes, hvalue, hscript⟩, hunspent⟩
  · rintro ⟨⟨transaction, output, hdescribes, hmakes, hvalue, hscript⟩, hunspent⟩
    exact ⟨_, mem_entries.2 hdescribes, output, rfl, hmakes, hvalue, hscript, hunspent⟩

theorem lookup_truth {request : ExplorerGet P} {answer : request.Answer B}
    (h : lookup view request = some answer) : request.Truth view answer := by
  cases request with
  | tx txid =>
    obtain ⟨entry, hfind, rfl⟩ := Option.map_eq_some_iff.1 h
    exact ⟨rfl, entry.1, find_some hfind⟩
  | txHex txid =>
    obtain ⟨entry, hfind, rfl⟩ := Option.map_eq_some_iff.1 h
    exact ⟨(find_some hfind).2.knows, (find_some hfind).1⟩
  | outspend outpoint =>
    obtain ⟨_, -, rfl⟩ := Option.map_eq_some_iff.1 h
    exact outspend_describes outpoint
  | addressUtxo address =>
    cases h
    exact fun utxo => mem_listed
  | tipHeight =>
    cases h
    rfl
  | blockHeight height => exact h

theorem lookup_unknown {request : ExplorerGet P} (h : lookup view request = none) :
    request.Unknown view := by
  cases request with
  | tx txid | txHex txid => exact find_none (Option.map_eq_none_iff.1 h)
  | outspend outpoint => exact find_none (Option.map_eq_none_iff.1 h)
  | addressUtxo address => cases h
  | tipHeight => cases h
  | blockHeight height =>
    have hlength : view.chain.length ≤ height := List.getElem?_eq_none_iff.1 h
    rw [view.chain_length] at hlength
    exact hlength

variable (history : Nat → Ledger.View blocks) (posted : ExplorerQuery P → HttpReply)

/-- What the server answers is what a truthful explorer can answer. -/
theorem server_truthful (t : Nat) (query : ExplorerQuery P) :
    truthfulExplorer history t query (server history posted t query).1
      (server history posted t query).2 := by
  cases query with
  | get request =>
    refine ⟨Nat.le_succ t, fun answer hanswer => ?_, fun hnone => ?_⟩
    · exact lookup_truth (Except.ok.inj hanswer)
    · exact lookup_unknown (Except.ok.inj hnone)
  | postTx body => exact Nat.le_succ t
  | postPackage path parentHex childHex => exact Nat.le_succ t

/-- If the chain only grows, the server goes on answering. -/
theorem server_steady (hgrows : ∀ t, (history t).chain <+: (history (t + 1)).chain) :
    SteadyExplorer (server history posted) history fun _ => True where
  keeps := fun _ _ _ => trivial
  grows := fun t _ _ => hgrows t
  answers := fun t _ _ => ⟨_, rfl, fun _ hfound => lookup_truth hfound, lookup_unknown⟩
  plain := by
    intro t outpoint found _ hreply hspent
    obtain ⟨_, -, rfl⟩ := Option.map_eq_some_iff.1 (Except.ok.inj hreply)
    unfold outspend at hspent ⊢
    split at hspent
    · cases hspent
    · rfl

end HonestExplorer

/-! ## A ledger with one transaction -/

/-- The transaction is in the block after the first one. -/
def inFirst (transaction : P.Tx) : Nat → List P.Tx
  | 1 => [transaction]
  | _ => []

theorem mem_inFirst {transaction known : P.Tx} {height : Nat} :
    known ∈ inFirst transaction height ↔ height = 1 ∧ known = transaction := by
  unfold inFirst
  split
  · simp
  · rename_i hheight
    exact ⟨fun hmem => absurd hmem List.not_mem_nil, fun h => absurd h.1 hheight⟩

section Numbered

variable {address : P.XOnlyPublicKey → NetworkId → P.Address} {transaction : P.Tx} {tip : Nat}

def oneBlocks (address : P.XOnlyPublicKey → NetworkId → P.Address) (transaction : P.Tx) :
    Blocks (numberedChain P address) :=
  Ledger.numbered (inFirst transaction)

/-- The chain up to the given height. -/
def oneTransaction (address : P.XOnlyPublicKey → NetworkId → P.Address) (transaction : P.Tx)
    (tip : Nat) : Ledger.View (oneBlocks address transaction) :=
  Ledger.numberedView (inFirst transaction) [] tip

theorem tip_oneTransaction : (oneTransaction address transaction tip).tip = tip :=
  Ledger.tip_numberedView

theorem holds_oneTransaction :
    (oneTransaction address transaction (tip + 1)).Holds 1 (1 : Nat) transaction :=
  Ledger.holds_numberedView.2 ⟨by omega, rfl, List.mem_singleton_self _⟩

theorem knows_oneTransaction {known : P.Tx} :
    (oneTransaction address transaction (tip + 1)).Knows known ↔ known = transaction := by
  constructor
  · rintro (hwaiting | ⟨height, hash, hholds⟩)
    · cases hwaiting
    · exact (mem_inFirst.1 (Ledger.holds_numberedView.1 hholds).2.2).2
  · rintro rfl
    exact holds_oneTransaction.knows

theorem distinctIds_oneTransaction :
    DistinctIds fun _ : Nat => oneTransaction address transaction (tip + 1) := by
  intro s s' known known' hknows hknows' _
  rw [knows_oneTransaction.1 hknows, knows_oneTransaction.1 hknows']

theorem describes_oneTransaction {known : P.Tx}
    {status : ExplorerTxStatus (numberedChain P address)}
    (h : status.Describes (oneTransaction address transaction tip) known) :
    status = ⟨true, some 1, some (1 : Nat)⟩ := by
  cases h with
  | waiting hmem => cases hmem
  | confirmed hholds =>
    obtain ⟨-, rfl, hmem⟩ := Ledger.holds_numberedView.1 hholds
    obtain ⟨rfl, -⟩ := mem_inFirst.1 hmem
    rfl

theorem fundingKept_oneTransaction {network : NetworkId} {metadata : CoinMetadata P}
    (hmakes : Makes transaction metadata.outpoint
      { value := metadata.amountSat, scriptPubkey := fundingScript metadata.keys })
    (hcoinbase : isCoinbase transaction = false)
    (hspends : metadata.outpoint ∉ spentOutputs transaction)
    (hparents : ∀ (parent : P.Tx) vout, ⟨P.computeTxid parent, vout⟩ ∉ spentOutputs transaction)
    (hmax : tip + 1 < u32Max) (hnetwork : network ≠ .mutinynet) :
    FundingKept network metadata (tip + 1) (oneTransaction address transaction (tip + 1)) where
  valid := {
    once := fun h h' _ => (describes_oneTransaction h).trans (describes_oneTransaction h').symm
    closed := fun {known parent vout} hknows hspent => by
      rw [knows_oneTransaction] at hknows
      subst hknows
      exact absurd hspent (hparents parent vout) }
  height := by
    rw [tip_oneTransaction]
    exact hmax
  genesis := rfl
  checkpoint := fun h => absurd h hnetwork
  held := by
    refine ⟨transaction, 1, (1 : Nat), holds_oneTransaction, hmakes, ?_, Or.inl hcoinbase⟩
    rw [tip_oneTransaction]
    omega
  unspent := by
    intro known hknows
    rw [knows_oneTransaction] at hknows
    subst hknows
    exact hspends

end Numbered

/-! ## Deposits that an honest explorer lists -/

section Deposits

open Symbolic

def depositAddress : platform.Address where
  network := .regtest
  script := deposit.output.scriptPubkey

/-- A transaction that makes two deposits, of which the second is the larger one. -/
def depositing : platform.Tx where
  version := 2
  lockTime := 0
  input := [⟨deposit.outpoint, [], 0xffffffff, [[1]]⟩]
  output := [deposit.output, { deposit.output with value := 3000 }]

/-- The deposits that it makes, five blocks deep. -/
def deposited (vout : Nat) (output : TxOut) : SourceUtxo platform where
  outpoint := ⟨platform.computeTxid depositing, vout⟩
  output := output
  confirmations := 5
  coinbase := false

/-- A chain with the deposits in its second block. -/
def depositLedger : Ledger.View (oneBlocks (P := platform)
    (fun key network => ⟨network, platform.newP2trTweaked key⟩) depositing) :=
  oneTransaction _ depositing 5

theorem confirmedSourceUtxos_depositLedger :
    eval (HonestExplorer.server (fun _ => depositLedger) fun _ => .unsent "connection refused")
      (Explorer.confirmedSourceUtxos depositAddress) 0 = (.ok [deposited 0 deposit.output,
        deposited 1 { deposit.output with value := 3000 }], 11) := by
  decide +kernel

/-- An honest explorer lists both deposits. -/
theorem confirmed_deposits_seen_listed :
    DepositsSeen (fun _ : Nat => depositLedger) 0 11 depositAddress
      [deposited 0 deposit.output, deposited 1 { deposit.output with value := 3000 }] := by
  have hends := ends_eval (HonestExplorer.server_truthful (fun _ => depositLedger)
    fun _ => .unsent "connection refused") (Explorer.confirmedSourceUtxos depositAddress) 0
  rw [confirmedSourceUtxos_depositLedger] at hends
  exact Explorer.confirmed_deposits_seen (@distinctIds_oneTransaction platform _ depositing 4)
    hends

end Deposits

/-! ## An exit through an honest explorer -/

section Alice

open Symbolic

/-- The deposit was made by no transaction. -/
theorem exactDeposit_noParent (parent : exactPlatform.Tx) :
    exactPlatform.computeTxid parent ≠ (40 : Nat) := by
  have hdigits : ∀ n, ∃ b l, PrefixCode.nat n = b :: l := by
    intro n
    cases n with
    | zero => exact ⟨_, _, rfl⟩
    | succ n =>
      unfold PrefixCode.nat PrefixCode.digits
      split
      · exact ⟨_, _, rfl⟩
      · exact ⟨_, _, rfl⟩
  have hlong : ∀ transaction : Transaction Nat,
      bytesNumber (transactionWord transaction) + 1 ≠ 40 := by
    intro transaction
    obtain ⟨b, l, hb⟩ := hdigits transaction.version.toNat
    obtain ⟨c, l', hc⟩ := hdigits (-transaction.version).toNat
    simp only [transactionWord, intWord, hb, hc, List.cons_append]
    cases l with
    | nil => simp only [List.nil_append, List.cons_append, bytesNumber]; omega
    | cons d l => simp only [List.cons_append, bytesNumber]; omega
  exact hlong parent.stripWitness

/-- The coin was funded, and its first recovery signed. -/
def exactFunded : CliWorld exactPlatform (Backend exactPlatform) :=
  runAll (Backend.answer ⟨bytes 9, bytes 11⟩) (Command.program exactReader freshConfig)
    [.register ⟨bytes 2, bytes 3, bytes 1⟩, .fund ⟨bytes 4, bytes 5⟩ 1000 100 1 500] exactWorld

/-- The coin, with its recovery, and the funding transaction. -/
def exactOwned : Option (WalletCoin exactPlatform × (CoinMetadata exactPlatform ×
    SignedRecovery exactPlatform × exactPlatform.SecretKey) × exactPlatform.Tx) := do
  let coin ← exactFunded.saved.wallet.coin
  let owned ← (ownedRecovery coin freshConfig.network).toOption
  let funding ← exactFunded.env.confirmed.head?
  return (coin, owned, funding)

theorem exactOwned_state : exactFunded.saved.wallet.pending = none ∧ exactOwned.isSome = true ∧
    ∀ owned ∈ exactOwned, owned.2.1.1.amountSat = 1000 ∧ owned.2.1.2.1.delayBlocks = 100 ∧
      exactPlatform.computeTxid owned.2.2 = owned.2.1.1.outpoint.txid ∧
      owned.2.2.output[owned.2.1.1.outpoint.vout]? = some
        { value := owned.2.1.1.amountSat, scriptPubkey := fundingScript owned.2.1.1.keys } ∧
      spentOutputs owned.2.2 = [exactDeposit.outpoint] ∧
      owned.2.1.1.outpoint ≠ exactDeposit.outpoint := by
  decide +kernel

/-- The chain on which the funding of the coin is as deep as its recovery needs it. -/
theorem exits_through_explorer_funded :
    ∃ recovery, RecoveryArmed exactFunded.saved recovery ∨
      ∃ (blocks : Blocks (numberedChain exactPlatform exactPlatform.addressP2tr))
        (view : Ledger.View blocks) (u : CliWorld exactPlatform (Unit × Nat)),
        CliLife (answering (serveBy (Explorer.answer ⟨.regtest⟩)
          (HonestExplorer.server (fun _ => view) fun _ => .unsent "connection refused")
          (aged 0))) exactReader freshConfig
          { saved := exactFunded.saved, env := ((), 0), log := [] } u ∧
        RecoveryArmed u.saved recovery ∧ ExitSavedFor u.saved SourceSweepJournal.sweepAddress 1 500 := by
  obtain ⟨hidle, hsome, hall⟩ := exactOwned_state
  obtain ⟨⟨coin, ⟨metadata, recovery, key⟩, transaction⟩, howned⟩ := Option.isSome_iff_exists.1 hsome
  obtain ⟨hamount, hdelay, hid, houtput, hspent, hother⟩ := hall _ howned
  simp only [exactOwned, Option.bind_eq_bind, Option.bind_eq_some_iff, Option.pure_def,
    Option.some.injEq, Prod.mk.injEq, Except.toOption_eq_some] at howned
  obtain ⟨_, hcoin, _, howned, _, -, hsame, hsame', -⟩ := howned
  rw [hsame] at hcoin howned
  rw [hsame'] at howned
  dsimp only at hamount hdelay hid houtput hspent hother
  have hw : Initialized freshConfig (bytes 7) exactWorld := ⟨rfl, rfl, rfl⟩
  have hlife : CliLife (answering (Backend.answer ⟨bytes 9, bytes 11⟩)) exactReader freshConfig
      exactWorld exactFunded := Life.runAll _ exactWorld
  have haffordable : ExitAffordable freshConfig.network metadata recovery
      SourceSweepJournal.sweepAddress 1 500 := by
    refine ⟨⟨.regtest, 0x51 :: 1 :: (bytes 30).toList⟩, exactAddressCodec.fromStr_toString _, rfl,
      Nat.one_pos, ?_, ?_⟩
    · rw [hamount]
      change 1 * (111 + 111) + 330 ≤ 1000
      decide
    · change 1 * (111 + 111) ≤ 500
      decide
  have hkept : FundingKept freshConfig.network metadata recovery.delayBlocks
      (oneTransaction exactPlatform.addressP2tr transaction 100) := by
    rw [hdelay]
    refine fundingKept_oneTransaction ⟨hid, houtput⟩ ?_ ?_ ?_ (by decide) (by decide)
    · rw [isCoinbase, hspent]
      rfl
    · rw [hspent, List.mem_singleton]
      exact hother
    · intro parent vout hmem
      rw [hspent, List.mem_singleton] at hmem
      exact exactDeposit_noParent parent (congrArg OutPoint.txid hmem)
  refine ⟨recovery, ?_⟩
  rcases exits_through_explorer exactSecretCodec exactSchnorrCorrect exactSighashDefined
      exactAddressCodec txidCollisionFree hw hlife hcoin howned haffordable hidle
      (HonestExplorer.server_steady (fun _ => oneTransaction exactPlatform.addressP2tr transaction 100)
        (fun _ => .unsent "connection refused") fun _ => List.prefix_rfl)
      (fun _ _ => hkept) (aged 0) ((), 0) trivial with harmed | ⟨u, hu⟩
  · exact Or.inl harmed
  · exact Or.inr ⟨_, _, u, hu⟩

end Alice

end Tinylayer
