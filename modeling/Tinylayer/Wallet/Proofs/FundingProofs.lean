import Tinylayer.Enclave.Proofs.ChainProofs
import Tinylayer.Wallet.Proofs.InvariantProofs

/-!
# Proofs: funding a coin

A funding that `begin_funding` accepts is carried through: its transaction satisfies every later
check, and once its recovery is secured the wallet hands out this one transaction ever after.
-/

namespace Tinylayer

variable {P : Platform}

open WalletState

/-! ## The funding transaction -/

/-- What `build_source_funding` returns: one deposit pays the coin and returns the change. -/
theorem buildSourceFunding_ok {keys : CoinKeys P} {network : NetworkId} {sourceSecret : P.SecretKey}
    {source : SourceUtxo P} {amountSat feeRateSatVb maxFeeSat : Nat}
    {funding : PreparedSourceFunding P}
    (h : buildSourceFunding keys network sourceSecret source amountSat feeRateSatVb maxFeeSat =
      .ok funding) :
    validateFundingInputs funding.transaction = .ok () ∧ funding.feeSat ≤ maxFeeSat ∧
      funding.outpoint = ⟨P.computeTxid funding.transaction, 0⟩ ∧
      ∃ witness changeSat, source.output.value = amountSat + changeSat + funding.feeSat ∧
        funding.transaction = sourceFundingTransaction source witness (fundingScript keys)
          (P.addressScript (sourceFundingAddress sourceSecret network)) amountSat changeSat := by
  simp only [buildSourceFunding, Except.bind_eq_ok, Except.ensure_eq_ok, exists_unit,
    Except.context_eq_ok, Except.pure_eq_ok, Option.bind_eq_some_iff, checkedSub_eq_some] at h
  obtain ⟨_, _, _, _, _, _, _, fee, _, hfee, change, ⟨_, ⟨hamount, rfl⟩, hchange, rfl⟩, _, sighash,
    _, _, hinputs, rfl⟩ := h
  refine ⟨hinputs, hfee, rfl, _, _, ?_, rfl⟩
  dsimp only
  omega

/-- The transaction of a funding passes the check that is made before it is broadcast. -/
theorem validateFinalizedFunding_of_source {keys : CoinKeys P} {network : NetworkId}
    {sourceSecret : P.SecretKey} {source : SourceUtxo P} {amountSat feeRateSatVb maxFeeSat : Nat}
    {funding : PreparedSourceFunding P} (hkeys : keys.Valid)
    (hscript : fundingScript keys ≠ P.addressScript (sourceFundingAddress sourceSecret network))
    (h : buildSourceFunding keys network sourceSecret source amountSat feeRateSatVb maxFeeSat =
      .ok funding) :
    validateFinalizedFunding (keys.metadata network funding.outpoint amountSat)
      funding.transaction = .ok () := by
  obtain ⟨hinputs, _, houtpoint, witness, changeSat, _, htx⟩ := buildSourceFunding_ok h
  simp only [validateFinalizedFunding, Except.bind_eq_ok, Except.ensure_eq_ok, exists_unit,
    Except.context_eq_ok, Client.lift_eq_ok, verifyFundingUtxo, CoinMetadata.validate_eq_ok]
  refine ⟨hinputs, ?_, ?_, ⟨amountSat, fundingScript keys⟩, ?_, hkeys, trivial, rfl⟩
  · simp [CoinKeys.metadata, houtpoint]
  · simp [CoinKeys.metadata, htx, sourceFundingTransaction, Ne.symm hscript]
  · simp [CoinKeys.metadata, houtpoint, htx, sourceFundingTransaction]

/-! ## A secured funding -/

namespace WalletInv

variable {s : WalletState P}

/-- The transaction of a funding whose recovery is secured may be broadcast. -/
theorem fundingTransaction (h : WalletInv s) {coin : WalletCoin P} {metadata : CoinMetadata P}
    {funding : FundingJournal P} (hcoin : s.coin = some coin)
    (hmetadata : coin.metadata = some metadata) (hfunding : coin.funding = some funding)
    (hstage : funding.stage ≠ .prepared)
    (hvalid : validateFinalizedFunding metadata funding.transaction = .ok ()) :
    s.fundingTransaction = .ok funding.transaction := by
  have hinv := h.coin coin hcoin
  obtain ⟨recovery, hhistory, hdelay⟩ := hinv.secured funding hfunding hstage
  have hver := hinv.recoveries metadata hmetadata recovery (by simp [hhistory])
  refine fundingTransaction_eq_ok.2 ⟨coin, metadata, funding, recovery, hcoin, hmetadata, hfunding,
    ?_, hvalid, by simp [hhistory], hdelay, hver, rfl⟩
  cases hs : funding.stage with
  | prepared => exact absurd hs hstage
  | recoverySecured => exact Or.inl rfl
  | broadcast => exact Or.inr rfl

/-- It stays the same in every later state. -/
theorem fundingTransaction_run (hsecret : P.SecretCodec) (h : WalletInv s) {transaction : P.Tx}
    (htx : s.fundingTransaction = .ok transaction) (ops : List (Operation P)) :
    (s.run ops).fundingTransaction = .ok transaction := by
  obtain ⟨coin, metadata, funding, _, hcoin, hmetadata, hfunding, hstage, hvalid, _, _, _, rfl⟩ :=
    fundingTransaction_eq_ok.1 htx
  obtain ⟨hinv, hevolves⟩ := h.run hsecret ops
  obtain ⟨coin', hcoin', he⟩ := hevolves coin hcoin
  obtain ⟨stage, hfunding', hrank⟩ := he.funding funding hfunding
  have hmetadata' := he.metadata metadata hmetadata
  have htx' := hinv.fundingTransaction hcoin' hmetadata' hfunding'
  refine htx' ?_ hvalid
  rintro (rfl : stage = .prepared)
  rcases hstage with hs | hs <;> simp [hs, FundingStage.rank] at hrank

end WalletInv

/-! ## The live signer -/

namespace Signer

variable {LIMIT : Nat}

/-- A coin that has not signed yet answers the request that presents its authorization, and its new
status confirms the answer. -/
theorem sign_first (hschnorr : P.SchnorrCorrect) {calls : List (Call P)} {status : CoinStatus P}
    {request : SignRequest P}
    (hlive : ((new : Signer P LIMIT).run calls).status request.coinId = .ok status)
    (hcount : status.signatureCount = 0) (hauth : presented request = status.authorization)
    (hnext : request.nextCapabilityHash ≠ capabilityHash request.currentCapability)
    (draws : Draws P) :
    ∃ response σ' status',
      sign draws request ((new : Signer P LIMIT).run calls) = .ok response σ' ∧
      σ'.status request.coinId = .ok status' ∧ status'.coinId = request.coinId ∧
      status'.signingPubkey = status.signingPubkey ∧
      verifySignResponse request 0 status' response = .ok () := by
  obtain ⟨coin, hlookup, rfl⟩ := status_ok.1 hlive
  obtain ⟨r, _, hsummary⟩ := (@Signer.recorded_run P LIMIT calls request.coinId).of_lookup hlookup
  change coin.signatureCount = 0 at hcount
  have hlog : issuances request.coinId (new : Signer P LIMIT) calls = [] := by
    rw [hsummary] at hcount
    exact List.length_eq_zero_iff.1 hcount
  have hcached : coin.cached request = none := by
    rw [hsummary, hlog]
    rfl
  refine ⟨coin.respond draws request, _, _, sign_ok.2 ⟨coin, hlookup,
    Or.inr ⟨hcached, hauth, hnext, by rw [hcount]; decide, rfl, rfl⟩⟩,
    status_ok.2 ⟨_, AList.lookup_insert _, rfl⟩, rfl, rfl, ?_⟩
  refine verifySignResponse_eq_ok.2 ⟨by decide, ⟨rfl, ?_, rfl⟩, hschnorr _ _⟩
  simp [Coin.status, Coin.advance, hcount]

end Signer

/-! ## Funding from end to end -/

section Complete

variable (hschnorr : P.SchnorrCorrect) (hcodec : P.SignatureCodec) (htaproot : P.TaprootLaws)
include hschnorr hcodec htaproot

/-- A journaled attempt is completed by any signature of the enclave on its digest. -/
theorem AttemptInv.completeRecovery {coin : WalletCoin P} {metadata : CoinMetadata P}
    {attempt : RecoveryAttempt P} (h : AttemptInv coin metadata attempt) (hinv : CoinInv coin)
    {response : SignResponse P}
    (hverify : P.verifySchnorr response.signature attempt.request.sighash
      coin.keys.enclavePubkey = true) :
    Tinylayer.completeRecovery attempt.request response attempt.prepared coin.clientSecret =
      .ok (signedRecovery metadata attempt.prepared.withdrawalXonlyPubkey attempt.delayBlocks
        response.signature coin.clientSecret attempt.request.sighash) := by
  have hkeys := hinv.metadata_keys metadata h.metadata_eq
  have hvalid : metadata.keys.Valid := hkeys ▸ hinv.keys
  have hsecret : P.xOnlyPublicKey coin.clientSecret = metadata.keys.clientPubkey :=
    hinv.secret.trans (congrArg (·.clientPubkey) hkeys.symm)
  rw [← hkeys] at hverify
  rw [h.prepared]
  exact completeRecovery_eq_ok.2 ⟨rfl, h.coinId.trans (congrArg (·.coinId) hkeys.symm), hsecret,
    rfl, hverify, h.sighash, rfl,
    .of_signature hschnorr hcodec htaproot hvalid h.terms hsecret h.sighash hverify⟩

/-- A journaled funding is secured with any answer that the enclave's status confirms. -/
theorem WalletInv.completeFunding_of_answer {s : WalletState P} (h : WalletInv s)
    {nextCapability : Capability} {secret : Bytes32} {attempt : RecoveryAttempt P}
    {response : SignResponse P} {coin : WalletCoin P} {status : CoinStatus P}
    (hpending : s.pending =
      some (.recovery ⟨.fund nextCapability secret, .responded attempt response⟩))
    (hcoin : s.coin = some coin) (hstatus : verifyStatus coin.keys status = .ok ())
    (hresponse : verifySignResponse attempt.request attempt.expectedSignatureCount status response =
      .ok ()) :
    ∃ funding recovery, coin.funding = some funding ∧
      WalletState.completeFundingRecovery status s = .ok () { s with
        coin := some (securedCoin coin funding recovery nextCapability response.nextHandoff secret)
        pending := none } := by
  have hinv := h.coin coin hcoin
  obtain ⟨coin', hcoin', metadata, hattempt, ⟨funding, hfunding, hstage, _⟩, _⟩ :=
    h.recovery _ hpending
  obtain rfl := Option.some.inj (hcoin.symm.trans hcoin')
  have hcount : attempt.expectedSignatureCount = 0 := by
    rw [show attempt.expectedSignatureCount = coin.history.length from hattempt.count,
      hinv.prepared funding hfunding hstage]
    rfl
  have hverify := (verifySignResponse_eq_ok.1 hresponse).2.2
  rw [(verifyStatus_eq_ok.1 hstatus).2.2] at hverify
  have hrecovery := hattempt.completeRecovery hschnorr hcodec htaproot hinv hverify
  rw [hcount] at hresponse
  exact ⟨funding, _, hfunding, completeFundingRecovery_ok.2 ⟨_, _, _, _, _, _, _, hpending, hcount,
    hcoin, hstatus, hresponse, hrecovery, rfl, hfunding, hstage, rfl⟩⟩

/-- A journaled funding is carried through with any answer that the enclave's status confirms. -/
theorem WalletInv.completeFunding {s : WalletState P} (h : WalletInv s)
    {nextCapability : Capability} {secret : Bytes32} {attempt : RecoveryAttempt P}
    {coin : WalletCoin P} {metadata : CoinMetadata P} {funding : FundingJournal P}
    {status : CoinStatus P} {response : SignResponse P}
    (hpending : s.pending = some (.recovery ⟨.fund nextCapability secret, .prepared attempt⟩))
    (hcoin : s.coin = some coin) (hmetadata : coin.metadata = some metadata)
    (hfunding : coin.funding = some funding)
    (hvalid : validateFinalizedFunding metadata funding.transaction = .ok ())
    (hstatus : verifyStatus coin.keys status = .ok ())
    (hresponse : verifySignResponse attempt.request attempt.expectedSignatureCount status response =
      .ok ()) :
    ∃ s₂ s₃ s₄, WalletState.recordSignResponse response s = .ok () s₂ ∧
      WalletState.completeFundingRecovery status s₂ = .ok () s₃ ∧
      WalletState.markFundingBroadcast (P.computeTxid funding.transaction) s₃ = .ok () s₄ ∧
      WalletInv s₃ ∧ s₃.fundingTransaction = .ok funding.transaction ∧
      (∃ coin₃ recovery, s₃.coin = some coin₃ ∧ coin₃.history = [recovery] ∧
        VerifiedRecovery metadata recovery) ∧
      s₄.coin.bind WalletCoin.funding = some { funding with stage := .broadcast } := by
  obtain ⟨s₂, hs₂⟩ : ∃ s₂ : WalletState P, s₂ = { s with
      pending := some (.recovery ⟨.fund nextCapability secret, .responded attempt response⟩) } :=
    ⟨_, rfl⟩
  have hrecord : WalletState.recordSignResponse response s = .ok () s₂ :=
    recordSignResponse_ok.2 ⟨_, _, Or.inl ⟨hpending, hs₂⟩⟩
  have hpending₂ : s₂.pending =
      some (.recovery ⟨.fund nextCapability secret, .responded attempt response⟩) := by rw [hs₂]
  have hcoin₂ : s₂.coin = some coin := by
    rw [hs₂]
    exact hcoin
  have hinv₂ := (h.recordSignResponse hrecord).1
  obtain ⟨funding', recovery, hfunding', hsecure⟩ := hinv₂.completeFunding_of_answer hschnorr hcodec
    htaproot hpending₂ hcoin₂ hstatus hresponse
  obtain rfl := Option.some.inj (hfunding.symm.trans hfunding')
  have hinv₃ := (hinv₂.completeFundingRecovery hsecure).1
  obtain ⟨coin', hcoin', _, _, ⟨funding', hfunding'', hstage, _⟩, _⟩ := h.recovery _ hpending
  obtain rfl := Option.some.inj (hcoin.symm.trans hcoin')
  obtain rfl := Option.some.inj (hfunding.symm.trans hfunding'')
  have hhistory : coin.history ++ [recovery] = [recovery] := by
    rw [(h.coin coin hcoin).prepared funding hfunding hstage]
    rfl
  have hver := (hinv₃.coin _ rfl).recoveries metadata hmetadata recovery
    (List.mem_append.2 (Or.inr List.mem_cons_self))
  have htx := hinv₃.fundingTransaction rfl hmetadata rfl nofun hvalid
  exact ⟨_, _, _, hrecord, hsecure, markFundingBroadcast_ok.2 ⟨_, htx, rfl, rfl⟩, hinv₃, htx,
    ⟨_, recovery, rfl, hhistory, hver⟩, rfl⟩

/-- Whenever `begin_funding` succeeds, the signer whose status it was given answers the journaled
request, and then recovery, broadcast and every later rebroadcast of the journaled transaction go
through, before the broadcast is marked and after it. -/
theorem beginFunding_completes {LIMIT : Nat} (hsecret : P.SecretCodec) (ops : List (Operation P))
    (draws : FundingDraws P) (network : NetworkId) (sourceSecret : P.SecretKey)
    (source : SourceUtxo P) (status : CoinStatus P)
    (amountSat delayBlocks feeRateSatVb maxFeeSat minimumReactionBlocks : Nat)
    (request : SignRequest P) (s₁ : WalletState P)
    (hbegin : beginFunding draws network sourceSecret source status amountSat delayBlocks
      feeRateSatVb maxFeeSat minimumReactionBlocks (empty.run ops) = .ok request s₁)
    (hscript : ∀ coin, s₁.coin = some coin →
      fundingScript coin.keys ≠ P.addressScript (sourceFundingAddress sourceSecret network))
    (calls : List (Signer.Call P))
    (hlive : ((Signer.new : Signer P LIMIT).run calls).status request.coinId = .ok status)
    (answer : Signer.Draws P) :
    s₁.pendingSignRequest = .ok request ∧
    ∃ coin metadata funding response σ' status',
      s₁.coin = some coin ∧ coin.metadata = some metadata ∧ coin.funding = some funding ∧
      Signer.sign answer request ((Signer.new : Signer P LIMIT).run calls) = .ok response σ' ∧
      σ'.status request.coinId = .ok status' ∧
      ∃ s₂ s₃ s₄, recordSignResponse response s₁ = .ok () s₂ ∧
        completeFundingRecovery status' s₂ = .ok () s₃ ∧
        markFundingBroadcast (P.computeTxid funding.transaction) s₃ = .ok () s₄ ∧
        validateFinalizedFunding metadata funding.transaction = .ok () ∧
        (∃ coin₃ recovery, s₃.coin = some coin₃ ∧ coin₃.history = [recovery] ∧
          verifyRecovery metadata recovery = .ok ()) ∧
        s₄.coin.bind WalletCoin.funding = some { funding with stage := .broadcast } ∧
        ∀ later, (s₃.run later).fundingTransaction = .ok funding.transaction ∧
          (s₄.run later).fundingTransaction = .ok funding.transaction := by
  have hinv₀ := WalletInv.reachable hsecret ops
  have hinv₁ := (hinv₀.beginFunding hsecret hbegin).1
  obtain ⟨_, coin, capability, prepared, unsigned, hcoin, _, _, hcount, hsource, hprepare, hs₁⟩ :=
    beginFunding_ok hbegin
  have hkeys := (hinv₀.coin coin hcoin).keys
  have hcoin₁ : s₁.coin = some (preparedCoin coin network prepared amountSat delayBlocks
      feeRateSatVb maxFeeSat) := by rw [hs₁]
  have hpending : s₁.pending = some (preparedRecovery
      (.fund draws.nextCapability (P.secretBytes draws.withdrawal)) 0 delayBlocks request
      unsigned) := by rw [hs₁]
  have hscript₁ := hscript _ hcoin₁
  have hfinal := validateFinalizedFunding_of_source hkeys hscript₁ hsource
  obtain ⟨⟨_, _, hpubkey⟩, hauth, hnext, _, _, _, sighash, _, rfl, rfl⟩ :=
    prepareRecovery_eq_ok.1 hprepare
  -- the signer answers
  obtain ⟨response, σ', status', hsign, hlive', hid, hpubkey', hresponse⟩ :=
    Signer.sign_first hschnorr hlive hcount hauth.symm hnext answer
  have hstatus : verifyStatus coin.keys status' = .ok () :=
    verifyStatus_eq_ok.2 ⟨hkeys, hid, hpubkey'.trans hpubkey⟩
  -- the wallet records the answer and completes the recovery
  obtain ⟨s₂, s₃, s₄, hrecord, hsecure, hmark, hinv₃, htx,
    ⟨coin₃, recovery, hcoin₃, hhistory, hver⟩, hbroadcast⟩ :=
    hinv₁.completeFunding hschnorr hcodec htaproot hpending hcoin₁ rfl rfl hfinal hstatus hresponse
  refine ⟨by rw [pendingSignRequest, hpending]; rfl, _, _, _, response, σ', status', hcoin₁, rfl,
    rfl, hsign, hlive', s₂, s₃, s₄, hrecord, hsecure, hmark, hfinal, ?_, hbroadcast, ?_⟩
  · exact ⟨coin₃, recovery, hcoin₃, hhistory, verifyRecovery_eq_ok.2 hver⟩
  · intro later
    refine ⟨hinv₃.fundingTransaction_run hsecret htx later, ?_⟩
    -- to mark the broadcast is one of the operations that follow the secured recovery
    have hafter : s₃.after (.markFundingBroadcast (P.computeTxid prepared.transaction)) = s₄ := by
      rw [after, Update.stateAfter, hmark]
    rw [← hafter, ← run_cons]
    exact hinv₃.fundingTransaction_run hsecret htx _

end Complete

section Deposit

open Symbolic

/-- The signer knows the coin of the wallet. -/
def registeringCalls : List (Signer.Call platform) :=
  [⟨.register ⟨bytes 1, capabilityHash (bytes 3)⟩, ⟨bytes 9, bytes 10⟩⟩]

theorem beginFunding_completes_deposit :
    ∃ response status' s₂ s₃ s₄ funding,
      recordSignResponse response (empty.run preparing) = .ok () s₂ ∧
      completeFundingRecovery status' s₂ = .ok () s₃ ∧
      markFundingBroadcast (platform.computeTxid (FundingJournal.transaction funding)) s₃ =
        .ok () s₄ ∧
      ∀ later, (s₃.run later).fundingTransaction = .ok funding.transaction ∧
        (s₄.run later).fundingTransaction = .ok funding.transaction := by
  have hbegin := Update.result?_eq_some.1 (show (beginFunding ⟨bytes 4, bytes 5⟩ .regtest (bytes 7)
    deposit (liveStatus (bytes 3) initialHandoff 0) 1000 100 1 500 10).result?
      (empty.run registering) = some fundingRequest by decide +kernel)
  have hscript : ∀ coin ∈ (empty.run preparing).coin,
      fundingScript coin.keys ≠ platform.addressScript (sourceFundingAddress (bytes 7) .regtest) := by
    decide +kernel
  have hlive : ((Signer.new : Signer platform 1).run registeringCalls).status (bytes 1) =
      .ok (liveStatus (bytes 3) initialHandoff 0) := by decide +kernel
  obtain ⟨_, _, _, funding, response, _, status', _, _, _, _, _, s₂, s₃, s₄, hrecord, hsecure, hmark,
    _, _, _, hlater⟩ := beginFunding_completes schnorrCorrect signatureCodec taprootLaws
      secretCodec registering _ _ _ _ _ _ _ _ _ _ _ _ hbegin hscript registeringCalls hlive
      ⟨bytes 12, bytes 11⟩
  exact ⟨response, status', s₂, s₃, s₄, funding, hrecord, hsecure, hmark, hlater⟩

end Deposit

end Tinylayer
