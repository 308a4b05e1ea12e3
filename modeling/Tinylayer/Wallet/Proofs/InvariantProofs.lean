import Tinylayer.Symbolic
import Tinylayer.Wallet.Run

/-!
# Proofs: the invariant of the wallet

Every operation keeps the invariant: first what each operation does to the coin, then the
operations themselves, and from these any sequence of them.
-/

namespace Tinylayer

variable {P : Platform}

open WalletState

/-! ## The coin -/

theorem CoinInv.registered {secret : P.SecretKey} {capability : Capability}
    {registration : Registration P} {status : CoinStatus P} {keys : CoinKeys P}
    (hreg : RegistrationInv secret capability registration)
    (h : Tinylayer.completeRegistration registration status = .ok keys) :
    CoinInv (registeredCoin secret capability keys) := by
  obtain ⟨coinId, rfl⟩ := hreg
  obtain ⟨_, _, hne, rfl⟩ := completeRegistration_eq_ok.1 h
  refine { keys := ⟨rfl, hne⟩, secret := rfl, accepted := rfl, metadata_keys := ?_,
           unfunded := ?_, recoveries := ?_, ladder := ?_, capability := ?_, handoff := ?_,
           initial := ?_, owned := ?_, latest := ?_, transferred := ?_, prepared := ?_,
           secured := ?_ } <;>
    simp [registeredCoin, Ladder]

theorem CoinInv.prepareFunding {coin : WalletCoin P} (h : CoinInv coin)
    (hhistory : coin.history = [])
    (network : NetworkId) (funding : PreparedSourceFunding P)
    (amountSat delayBlocks feeRateSatVb maxFeeSat : Nat) :
    CoinInv (preparedCoin coin network funding amountSat delayBlocks feeRateSatVb maxFeeSat) where
  keys := h.keys
  secret := h.secret
  accepted := h.accepted
  metadata_keys := by simp [preparedCoin, CoinKeys.metadata]
  unfunded := by simp [preparedCoin]
  recoveries := by simp [preparedCoin, hhistory]
  ladder := h.ladder
  capability := h.capability
  handoff := h.handoff
  initial := h.initial
  owned := fun hne => absurd hhistory hne
  latest := fun _ hne => absurd hhistory hne
  transferred := fun hout => by
    have := h.transferred hout
    rw [hhistory] at this
    cases this
  prepared := fun _ _ _ => hhistory
  secured := by simp [preparedCoin]

/-- The first recovery is appended, and belongs to the wallet. -/
theorem CoinInv.secureFunding {coin : WalletCoin P} (h : CoinInv coin)
    {nextCapability : Capability} {withdrawalSecret : Bytes32} {attempt : RecoveryAttempt P}
    {response : SignResponse P} {recovery : SignedRecovery P} {funding : FundingJournal P}
    (hinv : RecoveryInv coin ⟨.fund nextCapability withdrawalSecret, .responded attempt response⟩)
    (hrecovery : completeRecovery attempt.request response attempt.prepared coin.clientSecret =
      .ok recovery)
    (hdelay : recovery.delayBlocks = attempt.delayBlocks) (hfunding : coin.funding = some funding)
    (hstage : funding.stage = .prepared) :
    CoinInv (securedCoin coin funding recovery nextCapability response.nextHandoff
      withdrawalSecret) := by
  obtain ⟨metadata, hattempt, ⟨funding', hfunding', _, hdelay'⟩, _, key, hkey, hpays⟩ := hinv
  obtain rfl := Option.some.inj (hfunding.symm.trans hfunding')
  have hhistory : coin.history = [] := h.prepared _ hfunding hstage
  have hout : coin.outgoing = none := hattempt.outgoing h
  have hmetadata : coin.metadata = some metadata := hattempt.metadata_eq
  obtain ⟨hver, hwithdrawal, _⟩ := VerifiedRecovery.of_complete hrecovery
  have hprepared : attempt.prepared.metadata = metadata := congrArg (·.metadata) hattempt.prepared
  rw [hprepared] at hver
  change attempt.delayBlocks = funding.delayBlocks at hdelay'
  change attempt.prepared.withdrawalXonlyPubkey = _ at hpays
  refine { keys := h.keys, secret := h.secret, accepted := h.accepted,
           metadata_keys := h.metadata_keys, unfunded := ?_, recoveries := ?_, ladder := ?_,
           capability := ?_, handoff := ?_, initial := ?_, owned := ?_, latest := ?_,
           transferred := ?_, prepared := ?_, secured := ?_ }
  · simp [securedCoin, hmetadata]
  · simpa [securedCoin, hhistory, hmetadata] using hver
  · simp [securedCoin, hhistory, Ladder]
  · simp [securedCoin, hout]
  · simp [securedCoin, hout]
  · simp [securedCoin]
  · intro _
    refine ⟨recovery, withdrawalSecret, WalletCoin.owned_eq_some.2 ⟨0, ?_, rfl, ?_⟩, key, hkey,
      hwithdrawal.trans hpays⟩
    · simp [securedCoin, hhistory]
    · simp [securedCoin, hhistory]
  · simp [securedCoin, hhistory]
  · simp [securedCoin, hhistory]
  · simp [securedCoin]
  · simp [securedCoin, hhistory, hdelay, hdelay']

theorem CoinInv.broadcastFunding {coin : WalletCoin P} (h : CoinInv coin)
    (hstage : ∀ funding ∈ coin.funding, funding.stage ≠ .prepared) :
    CoinInv (broadcastCoin coin) where
  keys := h.keys
  secret := h.secret
  accepted := h.accepted
  metadata_keys := h.metadata_keys
  unfunded := by simpa [broadcastCoin] using h.unfunded
  recoveries := h.recoveries
  ladder := h.ladder
  capability := h.capability
  handoff := h.handoff
  initial := h.initial
  owned := h.owned
  latest := h.latest
  transferred := h.transferred
  prepared := by
    intro funding hf hs
    obtain ⟨funding', _, rfl⟩ := Option.map_eq_some_iff.1 hf
    cases hs
  secured := by
    intro funding hf _
    obtain ⟨funding', hf', rfl⟩ := Option.map_eq_some_iff.1 hf
    exact h.secured funding' hf' (hstage funding' hf')

/-- Only the wallet's own recovery is kept when the coin is handed on. -/
theorem CoinInv.transfer {coin : WalletCoin P} (h : CoinInv coin) {index : Nat}
    {retained : SignedRecovery P} (hindex : coin.withdrawalRecoveryIndex = some index)
    (hretained : coin.history[index]? = some retained) (request : TransferRequest)
    (envelope : TransferEnvelope) :
    CoinInv (transferredCoin coin retained request envelope) := by
  have hmem : retained ∈ coin.history := List.mem_of_getElem? hretained
  have hne : coin.history ≠ [] := List.ne_nil_of_mem hmem
  obtain ⟨recovery, secret, howned, hpays⟩ := h.owned hne
  obtain ⟨index', hindex', hsecret, hrecovery⟩ := WalletCoin.owned_eq_some.1 howned
  obtain rfl := Option.some.inj (hindex.symm.trans hindex')
  obtain rfl := Option.some.inj (hretained.symm.trans hrecovery)
  have hsome : coin.metadata ≠ none := fun hm => hne (h.unfunded.1 hm).2
  refine { keys := h.keys, secret := h.secret, accepted := h.accepted,
           metadata_keys := h.metadata_keys, unfunded := ?_, recoveries := ?_, ladder := ?_,
           capability := ?_, handoff := ?_, initial := nofun, owned := ?_, latest := ?_,
           transferred := ?_, prepared := ?_, secured := ?_ }
  · simp [transferredCoin, hsome]
  · intro metadata hm r hr
    obtain rfl := List.mem_singleton.1 hr
    exact h.recoveries metadata hm r hmem
  · simp [transferredCoin, Ladder]
  · simp [transferredCoin]
  · simp [transferredCoin]
  · intro _
    exact ⟨retained, secret, WalletCoin.owned_eq_some.2 ⟨0, rfl, hsecret, rfl⟩, hpays⟩
  · simp [transferredCoin]
  · simp [transferredCoin]
  · intro funding hf hs
    exact absurd (h.prepared funding hf hs) hne
  · intro funding hf hs
    obtain ⟨r, hr, hd⟩ := h.secured funding hf hs
    rw [hr] at hmem
    obtain rfl := List.mem_singleton.1 hmem
    exact ⟨retained, rfl, hd⟩

theorem CoinInv.accept {payload : TransferPayload P} {network : NetworkId}
    {request : TransferRequest} {incoming : IncomingTransfer} {status : CoinStatus P}
    {observed : ObservedFunding P} {minimumConfirmations minimumReactionBlocks : Nat}
    (h : Acceptable payload network request incoming status observed minimumConfirmations
      minimumReactionBlocks) (envelope : TransferEnvelope) :
    CoinInv (acceptedCoin payload incoming.capability incoming.withdrawalSecret request
      envelope) := by
  obtain ⟨latest, key, hlatest, _, hkey, hverify, _⟩ := h.withdrawal
  obtain ⟨⟨hkeys, _, _⟩, _, ⟨_, _, hlast⟩, hver, hne⟩ := verifyHistory_eq_ok.1 hverify
  have hpays : latest.withdrawalXonlyPubkey = secretXonly key := by
    simpa [hlatest] using hlast
  refine { keys := hkeys, secret := h.secret, accepted := rfl, metadata_keys := ?_,
           unfunded := ?_, recoveries := ?_, ladder := hver.ladder, capability := ?_,
           handoff := ?_, initial := fun hnil => absurd hnil hne, owned := ?_,
           latest := fun _ _ => rfl, transferred := ?_, prepared := ?_, secured := ?_ }
  · simp [acceptedCoin]
  · simp [acceptedCoin, hne]
  · intro metadata hm recovery hr
    obtain rfl := Option.some.inj hm
    exact hver.recoveries recovery hr
  · simp [acceptedCoin]
  · simp [acceptedCoin]
  · intro _
    refine ⟨latest, incoming.withdrawalSecret,
      WalletCoin.owned_eq_some.2 ⟨_, rfl, rfl, ?_⟩, key, hkey, hpays⟩
    rw [List.getLast?_eq_getElem?] at hlatest
    exact hlatest
  · simp [acceptedCoin]
  · simp [acceptedCoin]
  · simp [acceptedCoin]

/-! ## The operations -/

namespace WalletInv

theorem empty : WalletInv (WalletState.empty : WalletState P) where
  version := rfl
  registration := by simp [WalletState.empty]
  incoming := by simp [WalletState.empty]
  recovery := by simp [WalletState.empty]
  coin := by simp [WalletState.empty]

variable {s s' : WalletState P}

theorem beginRegistration (h : WalletInv s) {draws : RegistrationDraws P}
    {request : RegisterRequest P} (hok : WalletState.beginRegistration draws s = .ok request s') :
    WalletInv s' ∧ Evolves s s' := by
  obtain ⟨hcoin, hincoming, ⟨_, _, _, _, rfl, _⟩ | ⟨hp, rfl, _⟩⟩ := beginRegistration_ok hok
  · exact ⟨h, .refl _⟩
  · refine ⟨{ version := h.version, registration := ?_, incoming := ?_, recovery := ?_,
              coin := h.coin }, .of_coin_none hcoin⟩
    · intro secret capability registration heq
      cases heq
      exact ⟨hcoin, hincoming, draws.coinId, rfl⟩
    · intro incoming hi
      rw [hincoming] at hi
      cases hi
    · intro pending heq
      cases heq

theorem completeRegistration (h : WalletInv s) {status : CoinStatus P} {u : Unit}
    (hok : WalletState.completeRegistration status s = .ok u s') : WalletInv s' ∧ Evolves s s' := by
  obtain ⟨hcoin, secret, capability, registration, keys, hp, hkeys, rfl⟩ :=
    completeRegistration_ok hok
  obtain ⟨_, hincoming, hreg⟩ := h.registration secret capability registration hp
  refine ⟨{ version := h.version, registration := ?_, incoming := ?_, recovery := ?_,
            coin := ?_ }, .of_coin_none hcoin⟩
  · simp
  · intro incoming hi
    rw [hincoming] at hi
    cases hi
  · simp
  · intro coin heq
    obtain rfl := Option.some.inj heq
    exact .registered hreg hkeys

theorem beginFunding (h : WalletInv s) (hsecret : P.SecretCodec) {draws : FundingDraws P}
    {network : NetworkId} {sourceSecret : P.SecretKey} {source : SourceUtxo P}
    {status : CoinStatus P}
    {amountSat delayBlocks feeRateSatVb maxFeeSat minimumReactionBlocks : Nat}
    {request : SignRequest P}
    (hok : WalletState.beginFunding draws network sourceSecret source status amountSat delayBlocks
      feeRateSatVb maxFeeSat minimumReactionBlocks s = .ok request s') :
    WalletInv s' ∧ Evolves s s' := by
  obtain ⟨hpending, coin, capability, funding, prepared, hcoin,
    ⟨hmetadata, hfunding, hhistory, hhandoff, hcapability⟩, _, _, _, hprepare, rfl⟩ :=
    beginFunding_ok hok
  have hinv := h.coin coin hcoin
  obtain ⟨_, _, hnext, _, _, hterms, sighash, hsighash, rfl, rfl⟩ := prepareRecovery_eq_ok.1 hprepare
  refine ⟨{ version := h.version, registration := ?_, incoming := ?_, recovery := ?_,
            coin := ?_ }, .of_coin hcoin rfl ?_⟩
  · intro _ _ _ heq
    cases heq
  · intro incoming hi
    rw [(h.incoming incoming hi).1] at hcoin
    cases hcoin
  · intro pending heq
    cases heq
    refine ⟨_, rfl, _, ⟨rfl, rfl, hcapability, hhandoff, hnext, by rw [preparedCoin, hhistory]; rfl,
      rfl, hterms, hsighash⟩, ⟨_, rfl, rfl, rfl⟩, rfl, draws.withdrawal, hsecret _, rfl⟩
  · intro coin' heq
    obtain rfl := Option.some.inj heq
    exact hinv.prepareFunding hhistory network funding amountSat delayBlocks feeRateSatVb maxFeeSat
  · refine { keys := rfl, clientSecret := rfl, metadata := ?_, funding := ?_, received := ?_,
             owned := fun _ h => h, outgoing := fun _ h => h }
    · simp [hmetadata]
    · simp [hfunding]
    · simp [hmetadata]

theorem recordSignResponse (h : WalletInv s) {response : SignResponse P} {u : Unit}
    (hok : WalletState.recordSignResponse response s = .ok u s') : WalletInv s' ∧ Evolves s s' := by
  obtain ⟨purpose, attempt, ⟨hp, rfl⟩ | ⟨_, rfl⟩⟩ := recordSignResponse_ok.1 hok
  · obtain ⟨coin, hcoin, hinv⟩ := h.recovery _ hp
    refine ⟨{ version := h.version, registration := ?_, incoming := ?_, recovery := ?_,
              coin := h.coin }, .of_coin_eq rfl⟩
    · intro _ _ _ heq
      cases heq
    · intro incoming hi
      rw [(h.incoming incoming hi).1] at hcoin
      cases hcoin
    · intro pending heq
      cases heq
      exact ⟨coin, hcoin, hinv⟩
  · exact ⟨h, .refl _⟩

theorem completeFundingRecovery (h : WalletInv s) {status : CoinStatus P} {u : Unit}
    (hok : WalletState.completeFundingRecovery status s = .ok u s') :
    WalletInv s' ∧ Evolves s s' := by
  obtain ⟨nextCapability, withdrawalSecret, attempt, response, coin, recovery, funding, hp, _,
    hcoin, _, _, hrecovery, hdelay, hfunding, hstage, rfl⟩ := completeFundingRecovery_ok.1 hok
  have hinv := h.coin coin hcoin
  obtain ⟨coin', hcoin', hpending⟩ := h.recovery _ hp
  obtain rfl := Option.some.inj (hcoin.symm.trans hcoin')
  refine ⟨{ version := h.version, registration := ?_, incoming := ?_, recovery := ?_,
            coin := ?_ }, .of_coin hcoin rfl ?_⟩
  · simp
  · intro incoming hi
    rw [(h.incoming incoming hi).1] at hcoin
    cases hcoin
  · simp
  · intro coin' heq
    obtain rfl := Option.some.inj heq
    exact hinv.secureFunding hpending hrecovery hdelay hfunding hstage
  · have hhistory := hinv.prepared funding hfunding hstage
    refine { keys := rfl, clientSecret := rfl, metadata := fun _ h => h, funding := ?_,
             received := ?_, owned := ?_, outgoing := fun _ h => h }
    · intro f hf
      obtain rfl := Option.some.inj (hfunding.symm.trans hf)
      exact ⟨.recoverySecured, rfl, by simp [hstage, FundingStage.rank]⟩
    · intro _ hf
      rw [hfunding] at hf
      cases hf
    · rintro ⟨r, secret⟩ howned
      obtain ⟨index, _, _, hr⟩ := WalletCoin.owned_eq_some.1 howned
      simp [hhistory] at hr

/-- The stage of a secured funding is set to the last one. -/
theorem broadcastCoin (h : WalletInv s) {coin : WalletCoin P} {funding : FundingJournal P}
    (hcoin : s.coin = some coin) (hf : coin.funding = some funding)
    (hstage : funding.stage ≠ .prepared) :
    WalletInv { s with coin := s.coin.map WalletState.broadcastCoin } ∧
      Evolves s { s with coin := s.coin.map WalletState.broadcastCoin } := by
  have hinv := h.coin coin hcoin
  have hcoin' : s.coin.map WalletState.broadcastCoin = some (WalletState.broadcastCoin coin) := by
    rw [hcoin]
    rfl
  refine ⟨{ version := h.version, registration := ?_, incoming := ?_, recovery := ?_,
            coin := ?_ }, .of_coin hcoin hcoin' ?_⟩
  · intro secret capability registration hp
    rw [(h.registration secret capability registration hp).1] at hcoin
    cases hcoin
  · intro incoming hi
    rw [(h.incoming incoming hi).1] at hcoin
    cases hcoin
  · -- a pending transfer agrees with the coin also after the broadcast
    intro pending hp
    obtain ⟨coin', hc', metadata', hattempt, hpurpose⟩ := h.recovery pending hp
    obtain rfl := Option.some.inj (hcoin.symm.trans hc')
    refine ⟨_, hcoin', metadata', ⟨hattempt.metadata_eq, hattempt.coinId, hattempt.capability,
      hattempt.handoff, hattempt.next, hattempt.count, hattempt.prepared, hattempt.terms,
      hattempt.sighash⟩, ?_⟩
    obtain ⟨purpose, stage⟩ := pending
    cases purpose with
    | fund nextCapability withdrawalSecret =>
      obtain ⟨⟨funding', hf', hs', _⟩, _⟩ := hpurpose
      obtain rfl := Option.some.inj (hf.symm.trans hf')
      exact absurd hs' hstage
    | transfer request =>
      obtain ⟨hfits, hrest⟩ := hpurpose
      refine ⟨⟨hfits.validate, hfits.metadata_eq, hfits.history_ne, ?_, hfits.coinId,
        hfits.request_network, hfits.metadata_network, hfits.outpoint, hfits.amount⟩, hrest⟩
      intro f hf'
      obtain ⟨_, _, rfl⟩ := Option.map_eq_some_iff.1 hf'
      rfl
  · intro coin' heq
    obtain rfl := Option.some.inj (hcoin'.symm.trans heq)
    refine hinv.broadcastFunding fun funding' hf' => ?_
    obtain rfl := Option.some.inj (hf.symm.trans hf')
    exact hstage
  · refine { keys := rfl, clientSecret := rfl, metadata := fun _ h => h, funding := ?_,
             received := ?_, owned := fun _ h => h, outgoing := fun _ h => h }
    · intro f hf'
      refine ⟨.broadcast, by simp [WalletState.broadcastCoin, hf'], ?_⟩
      cases f.stage <;> simp [FundingStage.rank]
    · intro _ hf'
      simp [WalletState.broadcastCoin, hf']

theorem markFundingBroadcast (h : WalletInv s) {txid : P.Txid} {u : Unit}
    (hok : WalletState.markFundingBroadcast txid s = .ok u s') : WalletInv s' ∧ Evolves s s' := by
  obtain ⟨transaction, htx, _, rfl⟩ := markFundingBroadcast_ok.1 hok
  obtain ⟨coin, metadata, funding, recovery, hcoin, hm, hf, hstage, _⟩ :=
    fundingTransaction_eq_ok.1 htx
  refine h.broadcastCoin hcoin hf ?_
  rcases hstage with hs | hs <;> simp [hs]

theorem beginTransferRequest (h : WalletInv s) {draws : RequestDraws P} {network : NetworkId}
    {coinId : CoinId} {outpoint : OutPoint P.Txid} {expectedAmountSat minimumReactionBlocks : Nat}
    {request : TransferRequest}
    (hok : WalletState.beginTransferRequest draws network coinId outpoint expectedAmountSat
      minimumReactionBlocks s = .ok request s') : WalletInv s' ∧ Evolves s s' := by
  obtain ⟨hcoin, hpending, _, hmin, ⟨_, _, _, rfl⟩ | ⟨_, hvalid, rfl, rfl⟩⟩ :=
    beginTransferRequest_ok hok
  · exact ⟨h, .refl _⟩
  · refine ⟨{ version := h.version, registration := ?_, incoming := ?_, recovery := ?_,
              coin := h.coin }, .of_coin_none hcoin⟩
    · intro secret capability registration hp
      rw [hpending] at hp
      cases hp
    · intro incoming hi
      obtain rfl := Option.some.inj hi
      exact ⟨hcoin, hpending, draws, network, coinId, outpoint, expectedAmountSat,
        minimumReactionBlocks, rfl, hmin, hvalid⟩
    · intro pending hp
      rw [hpending] at hp
      cases hp

theorem beginTransfer (h : WalletInv s) {network : NetworkId} {request : TransferRequest}
    {status : CoinStatus P} {observed : ObservedFunding P}
    {minimumConfirmations minimumReactionBlocks : Nat} {signRequest : SignRequest P}
    (hok : WalletState.beginTransfer network request status observed minimumConfirmations
      minimumReactionBlocks s = .ok signRequest s') : WalletInv s' ∧ Evolves s s' := by
  obtain ⟨_, _, coin, metadata, capability, handoff, withdrawal, delay, hash, key, prepared,
    template, hcoin, hfits, hsend, hhash, hkey, hprepare, htemplate, hsize, rfl⟩ :=
    beginTransfer_ok.1 hok
  have hinv := h.coin coin hcoin
  obtain ⟨⟨_, _, _⟩, _, hnext, _, _, hterms, sighash, hsighash, rfl, rfl⟩ :=
    prepareRecovery_eq_ok.1 hprepare
  obtain ⟨_, _, ⟨_, hcount, _⟩, _⟩ := verifyHistory_eq_ok.1 hsend.history
  have hkeys : metadata.keys = coin.keys := hinv.metadata_keys metadata hfits.metadata_eq
  refine ⟨{ version := h.version, registration := ?_, incoming := ?_, recovery := ?_,
            coin := h.coin }, .of_coin_eq rfl⟩
  · intro _ _ _ heq
    cases heq
  · intro incoming hi
    rw [(h.incoming incoming hi).1] at hcoin
    cases hcoin
  · intro pending heq
    cases heq
    refine ⟨coin, hcoin, metadata, ⟨hfits.metadata_eq, congrArg (·.coinId) hkeys,
      hsend.capability_eq, hsend.handoff_eq, hnext, hcount, rfl, hterms, hsighash⟩, ?_, hhash, hkey,
      hsend.delay, ?_⟩
    · rw [hfits.metadata_network]
      exact hfits
    · cases recoverySerializationTemplate_unsignedRecovery.symm.trans htemplate
      exact hsize

theorem completeTransfer (h : WalletInv s) {draws : EnvelopeDraws P} {status : CoinStatus P}
    {envelope : TransferEnvelope} (hok : WalletState.completeTransfer draws status s = .ok envelope s') :
    WalletInv s' ∧ Evolves s s' := by
  obtain ⟨request, attempt, response, coin, metadata, recovery, index, retained, requestId, hp,
    hcoin, _, _, _, _, _, _, _, hindex, hretained, _, _, rfl⟩ := completeTransfer_ok.1 hok
  have hinv := h.coin coin hcoin
  obtain ⟨coin', hcoin', _, hattempt, _⟩ := h.recovery _ hp
  obtain rfl := Option.some.inj (hcoin.symm.trans hcoin')
  have hout := hattempt.outgoing hinv
  refine ⟨{ version := h.version, registration := ?_, incoming := ?_, recovery := ?_,
            coin := ?_ }, .of_coin hcoin rfl ?_⟩
  · simp
  · intro incoming hi
    rw [(h.incoming incoming hi).1] at hcoin
    cases hcoin
  · simp
  · intro coin' heq
    obtain rfl := Option.some.inj heq
    exact hinv.transfer hindex hretained request envelope
  · refine { keys := rfl, clientSecret := rfl, metadata := fun _ h => h, funding := ?_,
             received := fun _ h => h, owned := ?_, outgoing := ?_ }
    · exact fun funding hf => ⟨funding.stage, hf, Nat.le_refl _⟩
    · rintro ⟨r, secret⟩ howned
      obtain ⟨index', hindex', hsecret, hr⟩ := WalletCoin.owned_eq_some.1 howned
      obtain rfl := Option.some.inj (hindex.symm.trans hindex')
      obtain rfl := Option.some.inj (hretained.symm.trans hr)
      exact WalletCoin.owned_eq_some.2 ⟨0, rfl, hsecret, rfl⟩
    · intro outgoing ho
      rw [hout] at ho
      cases ho

theorem acceptTransfer (h : WalletInv s) {reader : PayloadReader P} {network : NetworkId}
    {request : TransferRequest} {envelope : TransferEnvelope} {status : CoinStatus P}
    {observed : ObservedFunding P} {minimumConfirmations minimumReactionBlocks : Nat}
    {accepted : Bool}
    (hok : WalletState.acceptTransfer reader network request envelope status observed
      minimumConfirmations minimumReactionBlocks s = .ok accepted s') : WalletInv s' ∧ Evolves s s' := by
  obtain ⟨_, _, ⟨_, _, _, _, _, rfl⟩ | ⟨hcoin, coin, haccept, _, rfl⟩⟩ := acceptTransfer_ok.1 hok
  · exact ⟨h, .refl _⟩
  · obtain ⟨hpending, incoming, payload, _, _, _, hacceptable, rfl⟩ := acceptCoin_eq_ok.1 haccept
    refine ⟨{ version := h.version, registration := ?_, incoming := ?_, recovery := ?_,
              coin := ?_ }, .of_coin_none hcoin⟩
    · intro secret capability registration hp
      rw [hpending] at hp
      cases hp
    · simp
    · intro pending hp
      rw [hpending] at hp
      cases hp
    · intro coin' heq
      obtain rfl := Option.some.inj heq
      exact .accept hacceptable envelope

/-- An operation that failed changed nothing, so only those that succeed matter. -/
theorem stateAfter {α : Type} {x : Update String (WalletState P) α} (h : WalletInv s)
    (hatomic : x.Atomic s) (hok : ∀ a s', x s = .ok a s' → WalletInv s' ∧ Evolves s s') :
    WalletInv (x.stateAfter s) ∧ Evolves s (x.stateAfter s) := by
  rcases hatomic.stateAfter_eq with ⟨a, ha⟩ | hs
  · exact hok a _ ha
  · rw [hs]
    exact ⟨h, .refl s⟩

theorem after (hsecret : P.SecretCodec) (h : WalletInv s) (op : Operation P) :
    WalletInv (s.after op) ∧ Evolves s (s.after op) := by
  cases op with
  | beginRegistration draws =>
    exact h.stateAfter (by apply beginRegistration_atomic) fun _ _ => h.beginRegistration
  | completeRegistration status =>
    exact h.stateAfter (by apply completeRegistration_atomic) fun _ _ => h.completeRegistration
  | beginFunding =>
    exact h.stateAfter (by apply beginFunding_atomic) fun _ _ => h.beginFunding hsecret
  | recordSignResponse response =>
    exact h.stateAfter (by apply recordSignResponse_atomic) fun _ _ => h.recordSignResponse
  | completeFundingRecovery status =>
    exact h.stateAfter (by apply completeFundingRecovery_atomic) fun _ _ => h.completeFundingRecovery
  | markFundingBroadcast txid =>
    exact h.stateAfter (by apply markFundingBroadcast_atomic) fun _ _ => h.markFundingBroadcast
  | beginTransferRequest =>
    exact h.stateAfter (by apply beginTransferRequest_atomic) fun _ _ => h.beginTransferRequest
  | beginTransfer =>
    exact h.stateAfter (by apply beginTransfer_atomic) fun _ _ => h.beginTransfer
  | completeTransfer draws status =>
    exact h.stateAfter (by apply completeTransfer_atomic) fun _ _ => h.completeTransfer
  | acceptTransfer =>
    exact h.stateAfter (by apply acceptTransfer_atomic) fun _ _ => h.acceptTransfer

theorem run (hsecret : P.SecretCodec) (h : WalletInv s) (ops : List (Operation P)) :
    WalletInv (s.run ops) ∧ Evolves s (s.run ops) := by
  induction ops generalizing s with
  | nil => exact ⟨h, .refl s⟩
  | cons op ops ih =>
    obtain ⟨hinv, hevolves⟩ := h.after hsecret op
    obtain ⟨hinv', hevolves'⟩ := ih hinv
    exact ⟨hinv', hevolves.trans hevolves'⟩

theorem reachable (hsecret : P.SecretCodec) (ops : List (Operation P)) :
    WalletInv (WalletState.empty.run ops) := (empty.run hsecret ops).1

/-! ## The coin and the wallet in the words of the code -/

theorem coinWellFormed {coin : WalletCoin P} (h : CoinInv coin) : CoinWellFormed coin where
  accepted := h.accepted
  capability := h.capability.symm
  handoff := h.handoff.symm
  transferred := h.transferred
  prepared := h.prepared
  secured := by
    intro funding hf hstage
    obtain ⟨first, hfirst, hdelay⟩ := h.secured funding hf hstage
    exact ⟨first, by rw [hfirst]; rfl, hdelay⟩
  owned := by
    intro hne
    obtain ⟨recovery, secret, howned, key, hkey, hpays⟩ := h.owned hne
    obtain ⟨index, hindex, hsecret, hrecovery⟩ := WalletCoin.owned_eq_some.1 howned
    have hsome : coin.metadata ≠ none := fun hm => hne (h.unfunded.1 hm).2
    obtain ⟨metadata, hmetadata⟩ := Option.ne_none_iff_exists'.1 hsome
    have hlt : index < coin.history.length := by
      rw [List.getElem?_eq_some_iff] at hrecovery
      exact hrecovery.1
    exact ⟨metadata, secret, index, key, recovery, hmetadata, hsecret, hindex, hlt, hkey,
      hrecovery, hpays, fun entry hentry =>
        verifyRecovery_eq_ok.2 (h.recoveries metadata hmetadata entry hentry)⟩
  latest := fun hne hout => h.latest hout hne

theorem wellFormed (h : WalletInv s) : WellFormed s where
  registration := fun secret capability registration hp =>
    ⟨(h.registration secret capability registration hp).1,
      (h.registration secret capability registration hp).2.1⟩
  incoming := by
    intro hsome
    obtain ⟨incoming, hi⟩ := Option.isSome_iff_exists.1 hsome
    exact (h.incoming incoming hi).1
  recovery := by
    intro pending hp
    obtain ⟨coin, hcoin, _⟩ := h.recovery pending hp
    rw [hcoin]
    rfl
  transferred := fun _ hcoin hout => h.transferred_idle hcoin hout
  coin := fun coin hcoin => coinWellFormed (h.coin coin hcoin)

end WalletInv

namespace WalletState

/-- After any run the wallet is well formed, and the recovery that it owns is, with its secret, the
one it owns ever after. -/
theorem run_wellFormed (hsecret : P.SecretCodec) (ops : List (Operation P)) :
    WellFormed (empty.run ops) ∧
    ∀ later coin recovery secret, (empty.run ops).coin = some coin →
      coin.owned = some (recovery, secret) →
      ∃ coin', (empty.run (ops ++ later)).coin = some coin' ∧
        coin'.owned = some (recovery, secret) := by
  have hinv := WalletInv.reachable hsecret ops
  refine ⟨hinv.wellFormed, fun later coin recovery secret hcoin howned => ?_⟩
  obtain ⟨coin', hcoin', hevolves⟩ := (hinv.run hsecret later).2 coin hcoin
  rw [run_append]
  exact ⟨coin', hcoin', hevolves.owned _ howned⟩

end WalletState

/-! ## A coin that is registered and funded -/

section Funded

open Symbolic

def registrationDraws : RegistrationDraws platform := ⟨bytes 2, bytes 3, bytes 1⟩

/-- The status of the coin after `count` signatures. -/
def liveStatus (capability handoff : Bytes32) (count : Nat) : CoinStatus platform :=
  ⟨bytes 1, (bytes 9).toList, authorization (bytes 1) (capabilityHash capability) handoff, count⟩

/-- A deposit of the key 7. -/
def deposit : SourceUtxo platform where
  outpoint := ⟨(40 : Nat), 0⟩
  output := { value := 2000, scriptPubkey := 0x51 :: 2 :: (bytes 7).toList }
  confirmations := 1
  coinbase := false

def registering : List (Operation platform) :=
  [.beginRegistration registrationDraws,
    .completeRegistration (liveStatus (bytes 3) initialHandoff 0)]

def preparing : List (Operation platform) :=
  registering ++ [.beginFunding ⟨bytes 4, bytes 5⟩ .regtest (bytes 7) deposit
    (liveStatus (bytes 3) initialHandoff 0) 1000 100 1 500 10]

def fundedMetadata : CoinMetadata platform :=
  (⟨1, bytes 1, (bytes 2).toList, (bytes 9).toList⟩ : CoinKeys platform).metadata .regtest
    ⟨(18 : Nat), 0⟩ 1000

/-- The request that `preparing` leaves in the journal. -/
def fundingRequest : SignRequest platform :=
  recoveryRequest fundedMetadata (bytes 3) initialHandoff (capabilityHash (bytes 4))
    ((recoveryDigest fundedMetadata (bytes 5).toList 100).toOption.getD [])

/-- The enclave's answer to it. -/
def fundingResponse : SignResponse platform where
  signature := signature (bytes 9).toList fundingRequest.sighash
  nextHandoff := bytes 11

def funding : List (Operation platform) :=
  preparing ++ [.recordSignResponse fundingResponse,
    .completeFundingRecovery (liveStatus (bytes 4) (bytes 11) 1)]

theorem run_wellFormed_funding :
    (WalletState.empty.run funding).coin.isSome = true ∧
    (WellFormed (WalletState.empty.run funding) ∧
    ∀ later coin recovery secret, (WalletState.empty.run funding).coin = some coin →
      coin.owned = some (recovery, secret) →
      ∃ coin', (WalletState.empty.run (funding ++ later)).coin = some coin' ∧
        coin'.owned = some (recovery, secret)) :=
  ⟨by decide +kernel, run_wellFormed secretCodec funding⟩

end Funded

end Tinylayer
