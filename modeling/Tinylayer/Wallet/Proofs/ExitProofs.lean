import Tinylayer.Client.Proofs.CanonicalProofs
import Tinylayer.Wallet.Proofs.InvariantProofs
import Tinylayer.Wallet.Proofs.SweepProofs

/-!
# Proofs: exits and what the chain shows of them

The parent of an exit can be signed again by anyone who has the client secret. Whatever parent the
wallet takes for its own pays the saved child the same output. Against a funding output that is
already spent, an exit goes ahead only if the spender cannot be a later owner's recovery.
-/

namespace Tinylayer

variable {P : Platform}

/-! ## Parents with other signatures -/

/-- `observed` is `saved` with signatures of the same digest, which may be others. -/
structure Rewitnessed (metadata : CoinMetadata P) (saved observed : P.Tx) : Prop where
  items : ∃ digest enclaveBytes clientBytes,
    recoverySighash saved metadata.amountSat metadata.keys = .ok digest ∧
    observed = saved.withWitness (recoveryWitness metadata.keys enclaveBytes clientBytes) ∧
    ValidSignature enclaveBytes digest metadata.keys.enclavePubkey ∧
    ValidSignature clientBytes digest metadata.keys.clientPubkey

/-- `child` spends only output 0 of `parent`, with a valid signature for `prevout`. -/
structure SpendsOutput (parent child : P.Tx) (prevout : TxOut) : Prop where
  output : parent.output[0]? = some prevout
  spent : spentOutputs child = [⟨P.computeTxid parent, 0⟩]
  signed : SpendsKey child [prevout] 0

theorem Transaction.withWitness_withWitness (tx : P.Tx) (witness witness' : List (List UInt8)) :
    (tx.withWitness witness).withWitness witness' = tx.withWitness witness' := by
  simp [Transaction.withWitness]

/-- Another transaction is a verified recovery too, exactly if it carries other valid signatures. -/
theorem VerifiedRecovery.rewitnessed_iff (htaproot : P.TaprootLaws) {metadata : CoinMetadata P}
    {recovery : SignedRecovery P} (h : VerifiedRecovery metadata recovery) {observed : P.Tx} :
    VerifiedRecovery metadata { recovery with transaction := observed } ↔
      Rewitnessed metadata recovery.transaction observed := by
  obtain ⟨hkeys, hterms, witness, digest, htransaction, hdigest, _⟩ :=
    (verifiedRecovery_iff htaproot).1 h
  have hsighash : recoverySighash recovery.transaction metadata.amountSat metadata.keys =
      .ok digest := by
    rw [← recoverySighash_stripWitness, h.stripped]
    exact hdigest
  rw [verifiedRecovery_iff htaproot]
  constructor
  · rintro ⟨_, _, _, digest', hobserved, hdigest', e, k, rfl, he, hk⟩
    cases hdigest.symm.trans hdigest'
    refine ⟨digest, e, k, hsighash, ?_, he, hk⟩
    rw [htransaction, Transaction.withWitness_withWitness]
    exact hobserved
  · rintro ⟨digest', e, k, hsighash', hobserved, he, hk⟩
    cases hsighash.symm.trans hsighash'
    refine ⟨hkeys, hterms, recoveryWitness metadata.keys e k, digest, ?_, hdigest, e, k, rfl, he,
      hk⟩
    rw [hobserved, htransaction, Transaction.withWitness_withWitness]

/-- The child that is built for a recovery spends its output. -/
theorem buildExitChild_spends (hkeypath : P.KeyPathSpend) {recovery : SignedRecovery P}
    {amountSat : Nat} {key : P.SecretKey} {destination : Script} {feeRateSatVb : Nat}
    {child : P.Tx}
    (h : buildExitChild recovery amountSat key destination feeRateSatVb = .ok child) :
    ∃ prevout, SpendsOutput recovery.transaction child prevout := by
  have hspent := buildExitChild_spent h
  simp only [buildExitChild, Except.bind_eq_ok, Except.ensure_eq_ok, exists_unit,
    Except.context_eq_ok, Except.pure_eq_ok, verifySignature_eq_ok] at h
  obtain ⟨_, _, prevout, houtput, ⟨_, hscript⟩, value, _, _, digest, hdigest, hverify, rfl⟩ := h
  refine ⟨prevout, by rw [← houtput, List.head?_eq_getElem?], hspent, _, prevout,
    P.xOnlyPublicKey (P.tapTweak key), _, digest, rfl, rfl, ?_, rfl, hdigest, hverify⟩
  rw [hscript]
  exact hkeypath key

/-- A package that passes its own check has a child for its parent, the owned recovery. -/
theorem ExitPackage.validate_child {package : ExitPackage P} {coin : WalletCoin P}
    (h : package.validate coin = .ok ()) :
    ∃ metadata recovery key script,
      ownedRecovery coin package.network = .ok (metadata, recovery, key) ∧
      package.parent = recovery.transaction ∧
      buildExitChild recovery metadata.amountSat key script package.feeRateSatVb =
        .ok package.child := by
  simp only [validate, Except.bind_eq_ok, Except.ensure_eq_ok, exists_unit, Client.lift_eq_ok,
    Prod.exists] at h
  obtain ⟨_, _, address, _, metadata, recovery, key, howned, ⟨_, hparent⟩, child, hchild, rfl, _⟩ :=
    h
  exact ⟨metadata, recovery, key, P.addressScript address, howned, hparent.symm, hchild⟩

/-- The wallet takes exactly the saved parent with possibly other signatures for its own, and the
saved child spends each of them. -/
theorem observed_parent_exact (htaproot : P.TaprootLaws) (hkeypath : P.KeyPathSpend)
    {coin : WalletCoin P} {journal : ExitJournal P} (hvalid : journal.validate coin = .ok ()) :
    ∃ metadata, coin.metadata = some metadata ∧ ∀ observed : P.Tx,
      (journal.validateObservedParent coin observed = .ok () ↔
        P.computeTxid observed = P.computeTxid journal.package.parent ∧
          Rewitnessed metadata journal.package.parent observed) ∧
      (journal.validateObservedParent coin observed = .ok () → ∃ prevout,
        journal.package.parent.output[0]? = some prevout ∧
          SpendsOutput observed journal.package.child prevout) := by
  obtain ⟨metadata, recovery, key, script, howned, hparent, hchild⟩ :=
    ExitPackage.validate_child hvalid
  obtain ⟨hmetadata, _, _, _, _, _, _, _, hverify⟩ := ownedRecovery_eq_ok.1 howned
  have hverified := verifyRecovery_eq_ok.1 hverify
  have hexact : ∀ observed : P.Tx, journal.validateObservedParent coin observed = .ok () ↔
      P.computeTxid observed = P.computeTxid journal.package.parent ∧
        Rewitnessed metadata journal.package.parent observed := by
    intro observed
    rw [hparent, ← hverified.rewitnessed_iff htaproot]
    simp only [ExitJournal.validateObservedParent, Except.bind_eq_ok, Except.ensure_eq_ok,
      exists_unit, Client.lift_eq_ok, verifyRecovery_eq_ok, Prod.exists, hvalid, true_and, hparent]
    refine and_congr_right fun _ => ?_
    constructor
    · rintro ⟨metadata', recovery', key', howned', hobserved⟩
      cases howned.symm.trans howned'
      exact hobserved
    · intro hobserved
      exact ⟨metadata, recovery, key, howned, hobserved⟩
  refine ⟨metadata, hmetadata, fun observed => ⟨hexact observed, fun hobserved => ?_⟩⟩
  obtain ⟨htxid, ⟨_, _, _, _, heq, _, _⟩⟩ := (hexact observed).1 hobserved
  obtain ⟨prevout, houtput, hspent, hsigned⟩ := buildExitChild_spends hkeypath hchild
  rw [← hparent] at houtput hspent
  refine ⟨prevout, houtput, ?_, ?_, hsigned⟩
  · rw [heq]
    exact houtput
  · rw [hspent, htxid]

/-! ## Spent funding outputs -/

/-- The transaction ids of the recoveries of a coin, oldest first. -/
def WalletCoin.recoveryTxids (coin : WalletCoin P) : List P.Txid :=
  coin.history.map fun recovery => P.computeTxid recovery.transaction

/-- A spender of the funding output that does not stop an exit: a recovery of the coin that is not
newer than the owned one. A confirmed one is the owned one, and the parent of the saved exit. -/
structure KnownSpender (coin : WalletCoin P) (spendingTxid : P.Txid) (spendingConfirmed : Bool)
    (savedExitParent : Option P.Txid) (spender own : SignedRecovery P) : Prop where
  mem : spender ∈ coin.history
  txid : P.computeTxid spender.transaction = spendingTxid
  owned : ∃ secret, coin.owned = some (own, secret)
  older : own.delayBlocks ≤ spender.delayBlocks
  confirmed : spendingConfirmed = true →
    spender = own ∧ ∀ parent ∈ savedExitParent, parent = spendingTxid

/-- A ladder is sorted: of two recoveries the older one has the larger delay. -/
theorem Ladder.index_le_iff {history : List (SignedRecovery P)} (h : Ladder history) {i j : Nat}
    {a b : SignedRecovery P} (ha : history[i]? = some a) (hb : history[j]? = some b) :
    i ≤ j ↔ b.delayBlocks ≤ a.delayBlocks := by
  obtain ⟨hi, rfl⟩ := List.getElem?_eq_some_iff.1 ha
  obtain ⟨hj, rfl⟩ := List.getElem?_eq_some_iff.1 hb
  have hpairwise := List.pairwise_iff_getElem.1 h.pairwise
  constructor
  · intro hij
    rcases Nat.lt_or_eq_of_le hij with hlt | rfl
    · exact Nat.le_of_lt (hpairwise i j hi hj hlt)
    · exact Nat.le_refl _
  · intro hdelay
    by_contra hij
    have := hpairwise j i hj hi (by omega)
    omega

namespace CoinInv

variable {coin : WalletCoin P}

/-- The recoveries of a coin have different transaction ids, as they have different delays. -/
theorem recoveryTxids_nodup (h : CoinInv coin) (htxid : P.TxidCollisionFree) :
    coin.recoveryTxids.Nodup := by
  unfold WalletCoin.recoveryTxids
  cases hmetadata : coin.metadata with
  | none =>
    rw [(h.unfunded.1 hmetadata).2]
    exact List.nodup_nil
  | some metadata =>
    refine List.pairwise_map.2 (h.ladder.pairwise.imp_of_mem fun ha hb hlt heq => ?_)
    have hdelay := (h.recoveries metadata hmetadata _ ha).delay_of_txid_eq htxid
      (h.recoveries metadata hmetadata _ hb) heq
    omega

/-- `position` finds the recovery with the given transaction id. -/
theorem recoveryIndex_eq_some (h : CoinInv coin) (htxid : P.TxidCollisionFree) {txid : P.Txid}
    {index : Nat} :
    recoveryIndex coin.history txid = some index ↔
      ∃ recovery, coin.history[index]? = some recovery ∧
        P.computeTxid recovery.transaction = txid := by
  simp only [recoveryIndex, List.findIdx?_eq_some_iff_getElem, decide_eq_true_eq]
  constructor
  · rintro ⟨hindex, heq, _⟩
    exact ⟨_, List.getElem?_eq_getElem hindex, heq⟩
  · rintro ⟨recovery, hrecovery, heq⟩
    obtain ⟨hindex, rfl⟩ := List.getElem?_eq_some_iff.1 hrecovery
    refine ⟨hindex, heq, fun j hj hsame => ?_⟩
    have hne := List.pairwise_iff_getElem.1 (List.pairwise_map.1 (h.recoveryTxids_nodup htxid))
      j index (by omega) hindex hj
    exact hne (hsame.trans heq.symm)

/-- What `verify_exit_funding` accepts, in terms of the recoveries and not of their places. -/
theorem verifyExitFunding_eq_ok (h : CoinInv coin) (htxid : P.TxidCollisionFree)
    {observed : ObservedFunding P} {minimumConfirmations : Nat} {spendingTxid : Option P.Txid}
    {spendingConfirmed : Bool} {savedExitParent : Option P.Txid} :
    verifyExitFunding coin observed minimumConfirmations spendingTxid spendingConfirmed
        savedExitParent = .ok () ↔
      ∃ metadata, coin.metadata = some metadata ∧
        verifyObservedFundingOutput metadata observed minimumConfirmations = .ok () ∧
        (observed.unspent = false → ∃ txid spender own, spendingTxid = some txid ∧
          KnownSpender coin txid spendingConfirmed savedExitParent spender own) := by
  cases hunspent : observed.unspent with
  | true =>
    simp [verifyExitFunding, hunspent]
  | false =>
    simp only [verifyExitFunding, hunspent, Except.bind_eq_ok, Except.ensure_eq_ok, exists_unit,
      Except.context_eq_ok, Client.lift_eq_ok, h.recoveryIndex_eq_some htxid, Bool.false_eq_true,
      if_false, forall_const]
    refine exists_congr fun metadata => and_congr_right fun hmetadata => and_congr_right fun _ => ?_
    constructor
    · rintro ⟨txid, hspending, i, ⟨spender, hspender, heq⟩, j, howned, hle, known, hknown, _,
        hconfirmed⟩
      cases hspender.symm.trans hknown
      have hmem := List.mem_of_getElem? hspender
      obtain ⟨own, secret, hown, _⟩ := h.owned (List.ne_nil_of_mem hmem)
      obtain ⟨j', hj', _, hownAt⟩ := WalletCoin.owned_eq_some.1 hown
      cases howned.symm.trans hj'
      refine ⟨txid, spender, own, hspending, hmem, heq, ⟨secret, hown⟩,
        (h.ladder.index_le_iff hspender hownAt).1 hle, fun hspent => ?_⟩
      rcases hconfirmed with hnot | ⟨rfl, hparent⟩
      · rw [hspent] at hnot
        cases hnot
      · cases hspender.symm.trans hownAt
        exact ⟨rfl, hparent⟩
    · rintro ⟨txid, spender, own, hspending, hmem, heq, ⟨secret, hown⟩, holder, hconfirmed⟩
      obtain ⟨i, hspender⟩ := List.mem_iff_getElem?.1 hmem
      obtain ⟨j, hj, _, hownAt⟩ := WalletCoin.owned_eq_some.1 hown
      have hle := (h.ladder.index_le_iff hspender hownAt).2 holder
      refine ⟨txid, hspending, i, ⟨spender, hspender, heq⟩, j, hj, hle, spender, hspender,
        verifyRecovery_eq_ok.2 (h.recoveries metadata hmetadata spender hmem), ?_⟩
      cases hspent : spendingConfirmed with
      | false => exact Or.inl rfl
      | true =>
        obtain ⟨rfl, hparent⟩ := hconfirmed hspent
        have hge := (h.ladder.index_le_iff hownAt hspender).2 (Nat.le_refl _)
        exact Or.inr ⟨Nat.le_antisymm hle hge, hparent⟩

end CoinInv

/-- Against a spent funding output an exit goes ahead exactly if the spender is a recovery of the
coin that is not newer than the owned one, and, once it has confirmed, the owned one itself. -/
theorem exit_funding_fails_closed (hsecret : P.SecretCodec) (htxid : P.TxidCollisionFree)
    (ops : List (Operation P)) {coin : WalletCoin P}
    (hcoin : (WalletState.empty.run ops).coin = some coin) :
    coin.recoveryTxids.Nodup ∧
    ∀ (observed : ObservedFunding P) (minimumConfirmations : Nat) (spendingTxid : Option P.Txid)
      (spendingConfirmed : Bool) (savedExitParent : Option P.Txid),
      verifyExitFunding coin observed minimumConfirmations spendingTxid spendingConfirmed
          savedExitParent = .ok () ↔
        ∃ metadata, coin.metadata = some metadata ∧
          verifyObservedFundingOutput metadata observed minimumConfirmations = .ok () ∧
          (observed.unspent = false → ∃ txid spender own, spendingTxid = some txid ∧
            KnownSpender coin txid spendingConfirmed savedExitParent spender own) := by
  have hinv := (WalletInv.reachable hsecret ops).coin coin hcoin
  exact ⟨hinv.recoveryTxids_nodup htxid, fun _ _ _ _ _ => hinv.verifyExitFunding_eq_ok htxid⟩

/-! ## An exit of a funded coin -/

section Demo

open Symbolic WalletState

/-- A deposit of the key 7. -/
def exactDeposit : SourceUtxo exactPlatform where
  outpoint := ⟨(40 : Nat), 0⟩
  output := { value := 2000, scriptPubkey := 0x51 :: 1 :: (bytes 7).toList }
  confirmations := 1
  coinbase := false

/-- The status of the coin after `count` signatures. -/
def exactStatus (capability handoff : Bytes32) (count : Nat) : CoinStatus exactPlatform :=
  ⟨bytes 1, (bytes 9).toList, authorization (bytes 1) (capabilityHash capability) handoff, count⟩

/-- The answer of the enclave to the pending request. -/
def exactResponse (s : WalletState exactPlatform) : SignResponse exactPlatform where
  signature := match s.pending with
    | some (.recovery pending) =>
      exactPlatform.signSchnorr (bytes 9) pending.stage.attempt.request.sighash
    | _ => exactPlatform.signSchnorr (bytes 9) ([] : List UInt8)
  nextHandoff := bytes 11

def exactFundingTxid (s : WalletState exactPlatform) : exactPlatform.Txid :=
  match s.fundingTransaction with
  | .ok transaction => exactPlatform.computeTxid transaction
  | .error _ => exactPlatform.nullTxid

def exactPreparing : List (Operation exactPlatform) :=
  [.beginRegistration ⟨bytes 2, bytes 3, bytes 1⟩,
    .completeRegistration (exactStatus (bytes 3) initialHandoff 0),
    .beginFunding ⟨bytes 4, bytes 5⟩ .regtest (bytes 7) exactDeposit
      (exactStatus (bytes 3) initialHandoff 0) 1000 100 1 500 10]

def exactSecuring : List (Operation exactPlatform) :=
  exactPreparing ++ [.recordSignResponse (exactResponse (empty.run exactPreparing)),
    .completeFundingRecovery (exactStatus (bytes 4) (bytes 11) 1)]

def exactFunding : List (Operation exactPlatform) :=
  exactSecuring ++ [.markFundingBroadcast (exactFundingTxid (empty.run exactSecuring))]

/-- The funded coin and an exit that pays the key 30. -/
def exactExit : Option (WalletCoin exactPlatform × ExitJournal exactPlatform) := do
  let coin ← (empty.run exactFunding).coin
  let destination : Address := ⟨.regtest, 0x51 :: 1 :: (bytes 30).toList⟩
  let journal ← (ExitJournal.prepare coin .regtest (exactPlatform.addressToString destination) 100 1
    500).toOption
  return (coin, journal)

theorem exactExit_observed : exactExit.isSome = true ∧ ∀ exit ∈ exactExit,
    exit.2.validate exit.1 = .ok () ∧
      exit.2.validateObservedParent exit.1 exit.2.package.parent = .ok () := by
  decide +kernel

theorem observed_parent_exact_funded : ∃ coin journal, exactExit = some (coin, journal) ∧
    journal.validateObservedParent coin journal.package.parent = .ok () ∧
    ∃ prevout, journal.package.parent.output[0]? = some prevout ∧
      SpendsOutput journal.package.parent journal.package.child prevout := by
  obtain ⟨hsome, hall⟩ := exactExit_observed
  obtain ⟨⟨coin, journal⟩, hexit⟩ := Option.isSome_iff_exists.1 hsome
  obtain ⟨hvalid, hobserved⟩ := hall _ hexit
  obtain ⟨_, _, hexact⟩ := observed_parent_exact exactTaprootLaws keyPathSpend hvalid
  exact ⟨coin, journal, hexit, hobserved, (hexact _).2 hobserved⟩

/-- The funded coin, its funding output as a spent one, and the id of its recovery. -/
def exactSpent : Option
    (WalletCoin exactPlatform × ObservedFunding exactPlatform × exactPlatform.Txid) := do
  let coin ← (empty.run exactFunding).coin
  let metadata ← coin.metadata
  let funding ← coin.funding
  let output ← funding.transaction.output[metadata.outpoint.vout]?
  let (recovery, _) ← coin.owned
  return (coin, ⟨metadata.outpoint, output, 1, false, false⟩,
    exactPlatform.computeTxid recovery.transaction)

theorem exactSpent_observed : exactSpent.isSome = true ∧ ∀ spent ∈ exactSpent,
    (empty.run exactFunding).coin = some spent.1 ∧ spent.2.1.unspent = false ∧
      (∃ metadata ∈ spent.1.metadata,
        verifyObservedFundingOutput metadata spent.2.1 1 = .ok ()) ∧
      spent.1.owned.map (fun owned => exactPlatform.computeTxid owned.1.transaction) =
        some spent.2.2 := by
  decide +kernel

/-- The owned recovery has confirmed. -/
theorem exit_funding_fails_closed_funded : ∃ coin observed txid spender own,
    exactSpent = some (coin, observed, txid) ∧ coin.recoveryTxids.Nodup ∧
    verifyExitFunding coin observed 1 (some txid) true none = .ok () ∧
    KnownSpender coin txid true none spender own := by
  have hverify : ∀ spent ∈ exactSpent,
      verifyExitFunding spent.1 spent.2.1 1 (some spent.2.2) true none = .ok () := by
    decide +kernel
  obtain ⟨hsome, hall⟩ := exactSpent_observed
  obtain ⟨⟨coin, observed, txid⟩, hspent⟩ := Option.isSome_iff_exists.1 hsome
  obtain ⟨hcoin, hunspent, _⟩ := hall _ hspent
  obtain ⟨hnodup, hexact⟩ := exit_funding_fails_closed exactSecretCodec txidCollisionFree
    exactFunding hcoin
  obtain ⟨_, _, _, hspender⟩ := (hexact _ _ _ _ _).1 (hverify _ hspent)
  obtain ⟨_, spender, own, ⟨⟩, hknown⟩ := hspender hunspent
  exact ⟨coin, observed, txid, spender, own, hspent, hnodup, hverify _ hspent, hknown⟩

/-- The owned recovery has confirmed, but the given exit has another parent. -/
theorem exit_funding_other_parent : ∃ coin observed txid own secret,
    exactSpent = some (coin, observed, txid) ∧ (empty.run exactFunding).coin = some coin ∧
    (∃ metadata ∈ coin.metadata, verifyObservedFundingOutput metadata observed 1 = .ok ()) ∧
    coin.owned = some (own, secret) ∧ exactPlatform.computeTxid own.transaction = txid ∧
    verifyExitFunding coin observed 1 (some txid) true (some exactPlatform.nullTxid) =
      .error "a different recovery has already confirmed" := by
  have hverify : ∀ spent ∈ exactSpent,
      verifyExitFunding spent.1 spent.2.1 1 (some spent.2.2) true (some exactPlatform.nullTxid) =
        .error "a different recovery has already confirmed" := by
    decide +kernel
  obtain ⟨hsome, hall⟩ := exactSpent_observed
  obtain ⟨⟨coin, observed, txid⟩, hspent⟩ := Option.isSome_iff_exists.1 hsome
  obtain ⟨hcoin, _, hmatches, howned⟩ := hall _ hspent
  obtain ⟨⟨own, secret⟩, hown, heq⟩ := Option.map_eq_some_iff.1 howned
  exact ⟨coin, observed, txid, own, secret, hspent, hcoin, hmatches, hown, heq, hverify _ hspent⟩

end Demo

end Tinylayer
