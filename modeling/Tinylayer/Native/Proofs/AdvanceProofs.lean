import Tinylayer.Native.Contract
import Tinylayer.Wallet.Proofs.FundingProofs

/-!
# Changes of the wallet part

What each operation on the wallet part of the saved state contributes to the contract of the
commands. The funding that Bitcoin Core prepares is not an operation of the wallet, so what it keeps
is proved here.
-/

namespace Tinylayer

variable {P : Platform}

/-- The metadata of the coin belong to the network, which is a supported one, and to the saved
funding. -/
def CoinChecked (config : Config) (coin : WalletCoin P) : Prop :=
  ∀ metadata ∈ coin.metadata, (metadata.network = config.network ∧ config.Supported) ∧
    ∀ funding ∈ coin.funding, metadata.outpoint.txid = P.computeTxid funding.transaction

theorem CoinChecked.of_metadata_none {config : Config} {coin : WalletCoin P}
    (h : coin.metadata = none) : CoinChecked config coin := by
  intro metadata hmetadata
  rw [h] at hmetadata
  cases hmetadata

/-- What a change of the wallet part keeps; `fresh` holds of a funding that it journals. -/
structure WalletAdvance (config : Config) (fresh : FundingJournal P → Prop)
    (s wallet : WalletState P) : Prop where
  inv : WalletInv wallet
  evolves : Evolves s wallet
  funding : FundingStep s.funding wallet.funding
  fresh : s.funding = none → ∀ funding ∈ wallet.funding, fresh funding
  checked : ∀ coin ∈ wallet.coin, (∀ old ∈ s.coin, old.metadata = none) → CoinChecked config coin
  journaled : config.chain.isExplorer = true → wallet.fundingStage = some .prepared →
    wallet.pending.isSome = true

/-- No funding is journaled. -/
def NoFunding (_ : FundingJournal P) : Prop := False

namespace WalletState

@[simp] theorem funding_of_coin {s : WalletState P} {coin : WalletCoin P} (h : s.coin = some coin) :
    s.funding = coin.funding := by
  simp [funding, h]

@[simp] theorem funding_of_none {s : WalletState P} (h : s.coin = none) : s.funding = none := by
  simp [funding, h]

theorem fundingStage_eq (s : WalletState P) : s.fundingStage = s.funding.map FundingJournal.stage :=
  rfl

theorem funding_congr {s s' : WalletState P} (h : s'.coin = s.coin) : s'.funding = s.funding := by
  rw [funding, funding, h]

end WalletState

/-! ## Funding through Bitcoin Core -/

/-- What an attempt that `fund_coin` journals has passed. -/
theorem coreAttempt_ok {draws : WalletState.FundingDraws P} {coin : WalletCoin P}
    {metadata : CoinMetadata P} {status : CoinStatus P} {delayBlocks : Nat}
    {pending : PendingRecovery P}
    (hok : coreAttempt draws coin metadata status delayBlocks = .ok pending) :
    ∃ capability handoff request prepared, verifyStatus coin.keys status = .ok () ∧
      status.signatureCount = 0 ∧ coin.currentCapability = some capability ∧
      coin.currentHandoff = some handoff ∧
      status.authorization = authorization coin.keys.coinId (capabilityHash capability) handoff ∧
      prepareRecovery metadata status coin.clientSecret capability handoff
        (capabilityHash draws.nextCapability) (secretXonly draws.withdrawal) delayBlocks 0 =
          .ok (request, prepared) ∧
      pending = ⟨.fund draws.nextCapability (P.secretBytes draws.withdrawal),
        .prepared ⟨status.signatureCount, delayBlocks, request, prepared⟩⟩ := by
  simp only [coreAttempt, Except.bind_eq_ok, Client.lift_eq_ok, Except.ensure_eq_ok,
    exists_unit, Except.context_eq_ok, Except.pure_eq_ok, Prod.exists] at hok
  obtain ⟨hstatus, hcount, capability, hcapability, handoff, hhandoff, hauth, request, prepared,
    hprepare, rfl⟩ := hok
  exact ⟨capability, handoff, request, prepared, hstatus, hcount, hcapability, hhandoff, hauth,
    hprepare, rfl⟩

namespace WalletInv

open WalletState

variable {s : WalletState P} {coin : WalletCoin P}

theorem coreFunding (h : WalletInv s) (hcoin : s.coin = some coin) (hpending : s.pending = none)
    (hmetadata : coin.metadata = none) (hfunding : coin.funding = none)
    (hhistory : coin.history = []) (network : NetworkId) (prepared : PreparedSourceFunding P)
    (amountSat delayBlocks feeRateSatVb maxFeeSat : Nat) {s' : WalletState P}
    (hs' : s' = { s with coin := some { coin with
      metadata := some (coin.keys.metadata network prepared.outpoint amountSat)
      funding := some (Tinylayer.coreFunding prepared delayBlocks feeRateSatVb maxFeeSat) } }) :
    WalletInv s' ∧ Evolves s s' := by
  have hinv := h.coin coin hcoin
  subst hs'
  refine ⟨{ version := h.version, registration := ?_, incoming := ?_, recovery := ?_,
            coin := ?_ }, .of_coin hcoin rfl ?_⟩
  · intro _ _ _ heq
    rw [hpending] at heq
    cases heq
  · intro incoming hincoming
    rw [(h.incoming incoming hincoming).1] at hcoin
    cases hcoin
  · intro pending heq
    rw [hpending] at heq
    cases heq
  · intro coin' heq
    obtain rfl := Option.some.inj heq
    exact hinv.prepareFunding hhistory network prepared amountSat delayBlocks feeRateSatVb maxFeeSat
  · refine { keys := rfl, clientSecret := rfl, metadata := ?_, funding := ?_, received := ?_,
             owned := fun _ howned => howned, outgoing := fun _ hout => hout }
    · simp [hmetadata]
    · simp [hfunding]
    · simp [hmetadata]

theorem coreAttempt (h : WalletInv s) (hsecret : P.SecretCodec) {draws : FundingDraws P}
    {metadata : CoinMetadata P} {funding : FundingJournal P} {status : CoinStatus P}
    {delayBlocks : Nat} {pending : PendingRecovery P} (hcoin : s.coin = some coin)
    (hmetadata : coin.metadata = some metadata) (hfunding : coin.funding = some funding)
    (hstage : funding.stage = .prepared) (hdelay : funding.delayBlocks = delayBlocks)
    (hok : Tinylayer.coreAttempt draws coin metadata status delayBlocks = .ok pending) :
    WalletInv { s with pending := some (.recovery pending) } := by
  have hinv := h.coin coin hcoin
  have hhistory := hinv.prepared funding hfunding hstage
  have hkeys := hinv.metadata_keys metadata hmetadata
  obtain ⟨capability, handoff, request, prepared, _, hcount, hcapability, hhandoff, _, hprepare,
    rfl⟩ := coreAttempt_ok hok
  obtain ⟨_, _, hnext, _, _, hterms, sighash, hsighash, rfl, rfl⟩ := prepareRecovery_eq_ok.1 hprepare
  refine { version := h.version, registration := ?_, incoming := ?_, recovery := ?_,
           coin := h.coin }
  · intro _ _ _ heq
    cases heq
  · intro incoming hincoming
    rw [(h.incoming incoming hincoming).1] at hcoin
    cases hcoin
  · intro pending heq
    cases heq
    refine ⟨coin, hcoin, metadata, ⟨hmetadata, ?_, hcapability, hhandoff, hnext, ?_, rfl, hterms,
      hsighash⟩, ⟨funding, hfunding, hstage, hdelay.symm⟩, rfl, draws.withdrawal, hsecret _, rfl⟩
    · simp only [RecoveryStage.attempt, recoveryRequest, hkeys]
    · simp only [RecoveryStage.attempt, hcount, hhistory, List.length_nil]

end WalletInv

namespace WalletAdvance

open WalletState

variable {config : Config} {s s' : WalletState P}

/-- A change that leaves the coin alone. -/
theorem of_coin_eq (h : WalletInv s') (hcoin : s'.coin = s.coin)
    (hchecked : ∀ coin ∈ s.coin, CoinChecked config coin)
    (hjournaled : s'.fundingStage = some .prepared → s'.pending.isSome = true) :
    WalletAdvance config NoFunding s s' where
  inv := h
  evolves := .of_coin_eq hcoin
  funding := by rw [funding_congr hcoin]; exact .same _
  fresh := fun hnone funding hmem => by
    rw [funding_congr hcoin, hnone] at hmem
    cases hmem
  checked := fun coin hmem _ => hchecked coin (hcoin ▸ hmem)
  journaled := fun _ => hjournaled

theorem refl (h : WalletInv s) (hchecked : ∀ coin ∈ s.coin, CoinChecked config coin)
    (hjournaled : config.chain.isExplorer = true → s.fundingStage = some .prepared →
      s.pending.isSome = true) : WalletAdvance config NoFunding s s where
  inv := h
  evolves := .refl s
  funding := .same _
  fresh := fun hnone funding hmem => by
    rw [hnone] at hmem
    cases hmem
  checked := fun coin hmem _ => hchecked coin hmem
  journaled := hjournaled

theorem beginRegistration (h : WalletInv s) {draws : RegistrationDraws P}
    {request : RegisterRequest P}
    (hok : WalletState.beginRegistration draws s = .ok request s') :
    WalletAdvance config NoFunding s s' := by
  have hinv := (h.beginRegistration hok).1
  obtain ⟨hcoin, _, hcase⟩ := beginRegistration_ok hok
  have hcoin' : s'.coin = s.coin := by
    rcases hcase with ⟨_, _, _, _, rfl, _⟩ | ⟨_, rfl, _⟩
    · rfl
    · rfl
  refine of_coin_eq hinv hcoin' ?_ fun hstage => ?_
  · rw [hcoin]
    simp
  · rw [fundingStage_eq, funding_of_none (hcoin'.trans hcoin)] at hstage
    cases hstage

theorem completeRegistration (h : WalletInv s) {status : CoinStatus P} {u : Unit}
    (hok : WalletState.completeRegistration status s = .ok u s') :
    WalletAdvance config NoFunding s s' := by
  obtain ⟨hinv, hevolves⟩ := h.completeRegistration hok
  obtain ⟨hcoin, secret, capability, registration, keys, _, _, rfl⟩ := completeRegistration_ok hok
  refine { inv := hinv, evolves := hevolves, funding := ?_, fresh := ?_, checked := ?_,
           journaled := ?_ }
  · rw [funding_of_none hcoin, funding_of_coin rfl]
    exact .same _
  · intro _ funding hmem
    rw [funding_of_coin rfl] at hmem
    cases hmem
  · intro coin hmem _
    obtain rfl := Option.some.inj hmem
    exact .of_metadata_none rfl
  · intro _ hstage
    rw [fundingStage_eq, funding_of_coin rfl] at hstage
    cases hstage

theorem beginFunding (h : WalletInv s) (hsecret : P.SecretCodec) (hsupported : config.Supported)
    {draws : FundingDraws P}
    {sourceSecret : P.SecretKey} {source : SourceUtxo P} {status : CoinStatus P}
    {amountSat delayBlocks feeRateSatVb maxFeeSat minimumReactionBlocks : Nat}
    {request : SignRequest P}
    (hok : WalletState.beginFunding draws config.network sourceSecret source status amountSat
      delayBlocks feeRateSatVb maxFeeSat minimumReactionBlocks s = .ok request s') :
    WalletAdvance config (fun funding => spentOutputs funding.transaction = [source.outpoint])
      s s' := by
  obtain ⟨hinv, hevolves⟩ := h.beginFunding hsecret hok
  obtain ⟨_, coin, capability, funding, prepared, hcoin, ⟨_, hfunding, _⟩, _, _, hbuild, _, rfl⟩ :=
    beginFunding_ok hok
  obtain ⟨_, _, houtpoint, witness, change, _, htransaction⟩ := buildSourceFunding_ok hbuild
  refine { inv := hinv, evolves := hevolves, funding := ?_, fresh := ?_, checked := ?_,
           journaled := fun _ _ => rfl }
  · rw [funding_of_coin hcoin, funding_of_coin rfl, hfunding]
    exact .prepared rfl
  · intro _ journal hjournal
    rw [funding_of_coin rfl] at hjournal
    obtain rfl := Option.some.inj hjournal
    rw [htransaction]
    rfl
  · intro coin' hmem _ metadata hmetadata
    obtain rfl := Option.some.inj hmem
    obtain rfl := Option.some.inj hmetadata
    refine ⟨⟨rfl, hsupported⟩, fun journal hjournal => ?_⟩
    obtain rfl := Option.some.inj hjournal
    rw [CoinKeys.metadata, houtpoint]

theorem recordSignResponse (h : WalletInv s)
    (hchecked : ∀ coin ∈ s.coin, CoinChecked config coin) {response : SignResponse P} {u : Unit}
    (hok : WalletState.recordSignResponse response s = .ok u s') :
    WalletAdvance config NoFunding s s' := by
  have hinv := (h.recordSignResponse hok).1
  obtain ⟨purpose, attempt, ⟨_, rfl⟩ | ⟨hpending, rfl⟩⟩ := recordSignResponse_ok.1 hok
  · exact of_coin_eq hinv rfl hchecked fun _ => rfl
  · exact refl h hchecked fun _ _ => by simp [hpending]

theorem completeFundingRecovery (h : WalletInv s)
    (hchecked : ∀ coin ∈ s.coin, CoinChecked config coin) {status : CoinStatus P} {u : Unit}
    (hok : WalletState.completeFundingRecovery status s = .ok u s') :
    WalletAdvance config NoFunding s s' := by
  obtain ⟨hinv, hevolves⟩ := h.completeFundingRecovery hok
  obtain ⟨nextCapability, withdrawalSecret, attempt, response, coin, recovery, funding, _, _,
    hcoin, _, _, _, _, hfunding, hstage, rfl⟩ := completeFundingRecovery_ok.1 hok
  refine { inv := hinv, evolves := hevolves, funding := ?_, fresh := ?_, checked := ?_,
           journaled := ?_ }
  · rw [funding_of_coin hcoin, funding_of_coin rfl, hfunding]
    exact .secured hstage
  · intro hnone
    rw [funding_of_coin hcoin, hfunding] at hnone
    cases hnone
  · intro coin' hmem _ metadata hmetadata
    obtain rfl := Option.some.inj hmem
    obtain ⟨hnetwork, hfunded⟩ := hchecked coin hcoin metadata hmetadata
    refine ⟨hnetwork, fun journal hjournal => ?_⟩
    obtain rfl := Option.some.inj hjournal
    exact hfunded funding hfunding
  · intro _ hsecured
    rw [fundingStage_eq, funding_of_coin rfl] at hsecured
    cases hsecured

/-- The stage of a secured funding is set to the last one. -/
theorem broadcastCoin (h : WalletInv s) (hchecked : ∀ coin ∈ s.coin, CoinChecked config coin)
    {coin : WalletCoin P} {funding : FundingJournal P} (hcoin : s.coin = some coin)
    (hfunding : coin.funding = some funding) (hstage : funding.stage ≠ .prepared) :
    WalletAdvance config NoFunding s { s with coin := s.coin.map WalletState.broadcastCoin } := by
  obtain ⟨hinv, hevolves⟩ := h.broadcastCoin hcoin hfunding hstage
  have hcoin' : s.coin.map WalletState.broadcastCoin = some (WalletState.broadcastCoin coin) := by
    rw [hcoin]
    rfl
  have hfunding' : (WalletState.broadcastCoin coin).funding =
      some { funding with stage := .broadcast } := by
    simp [WalletState.broadcastCoin, hfunding]
  refine { inv := hinv, evolves := hevolves, funding := ?_, fresh := ?_, checked := ?_,
           journaled := ?_ }
  · rw [funding_of_coin hcoin, funding_of_coin hcoin', hfunding, hfunding']
    cases hsaved : funding.stage with
    | prepared => exact absurd hsaved hstage
    | recoverySecured => exact .broadcast hsaved
    | broadcast =>
      rw [← hsaved]
      exact .same _
  · intro hnone
    rw [funding_of_coin hcoin, hfunding] at hnone
    cases hnone
  · intro coin' hmem _ metadata hmetadata
    obtain rfl := Option.some.inj (hcoin'.symm.trans hmem)
    obtain ⟨hnetwork, hfunded⟩ := hchecked coin hcoin metadata hmetadata
    refine ⟨hnetwork, fun journal hjournal => ?_⟩
    obtain rfl := Option.some.inj (hfunding'.symm.trans hjournal)
    exact hfunded funding hfunding
  · intro _ hprepared
    rw [fundingStage_eq, funding_of_coin hcoin', hfunding'] at hprepared
    cases hprepared

theorem markFundingBroadcast (h : WalletInv s)
    (hchecked : ∀ coin ∈ s.coin, CoinChecked config coin) {txid : P.Txid} {u : Unit}
    (hok : WalletState.markFundingBroadcast txid s = .ok u s') :
    WalletAdvance config NoFunding s s' := by
  obtain ⟨transaction, htx, _, rfl⟩ := markFundingBroadcast_ok.1 hok
  obtain ⟨coin, metadata, funding, recovery, hcoin, _, hfunding, hstage, _⟩ :=
    fundingTransaction_eq_ok.1 htx
  refine broadcastCoin h hchecked hcoin hfunding ?_
  rcases hstage with hs | hs <;> simp [hs]

theorem beginTransferRequest (h : WalletInv s) {draws : RequestDraws P} {network : NetworkId}
    {coinId : CoinId} {outpoint : OutPoint P.Txid} {amountSat minimumReactionBlocks : Nat}
    {request : TransferRequest}
    (hok : WalletState.beginTransferRequest draws network coinId outpoint amountSat
      minimumReactionBlocks s = .ok request s') : WalletAdvance config NoFunding s s' := by
  have hinv := (h.beginTransferRequest hok).1
  obtain ⟨hcoin, _, _, _, hcase⟩ := beginTransferRequest_ok hok
  have hcoin' : s'.coin = s.coin := by
    rcases hcase with ⟨_, _, _, rfl⟩ | ⟨_, _, _, rfl⟩
    · rfl
    · rfl
  refine of_coin_eq hinv hcoin' ?_ fun hstage => ?_
  · rw [hcoin]
    simp
  · rw [fundingStage_eq, funding_of_none (hcoin'.trans hcoin)] at hstage
    cases hstage

theorem beginTransfer (h : WalletInv s) (hchecked : ∀ coin ∈ s.coin, CoinChecked config coin)
    {network : NetworkId} {request : TransferRequest} {status : CoinStatus P}
    {observed : ObservedFunding P} {minimumConfirmations minimumReactionBlocks : Nat}
    {signRequest : SignRequest P}
    (hok : WalletState.beginTransfer network request status observed minimumConfirmations
      minimumReactionBlocks s = .ok signRequest s') : WalletAdvance config NoFunding s s' := by
  have hinv := (h.beginTransfer hok).1
  obtain ⟨_, _, coin, _, _, _, _, _, _, _, _, _, hcoin, _, _, _, _, _, _, _, rfl⟩ :=
    beginTransfer_ok.1 hok
  exact of_coin_eq hinv rfl hchecked fun _ => rfl

theorem completeTransfer (h : WalletInv s) (hchecked : ∀ coin ∈ s.coin, CoinChecked config coin)
    {draws : EnvelopeDraws P} {status : CoinStatus P} {envelope : TransferEnvelope}
    (hok : WalletState.completeTransfer draws status s = .ok envelope s') :
    WalletAdvance config NoFunding s s' := by
  obtain ⟨hinv, hevolves⟩ := h.completeTransfer hok
  obtain ⟨request, attempt, response, coin, metadata, recovery, index, retained, requestId, _,
    hcoin, _, _, _, _, _, _, _, _, hretained, _, _, rfl⟩ := completeTransfer_ok.1 hok
  refine { inv := hinv, evolves := hevolves, funding := ?_, fresh := ?_, checked := ?_,
           journaled := ?_ }
  · rw [funding_of_coin hcoin, funding_of_coin rfl]
    exact .same _
  · intro hnone funding hmem
    rw [funding_of_coin hcoin] at hnone
    rw [funding_of_coin rfl, transferredCoin, hnone] at hmem
    cases hmem
  · intro coin' hmem _
    obtain rfl := Option.some.inj hmem
    exact hchecked coin hcoin
  · -- a coin with a recovery is not in the first stage of its funding
    intro _ hprepared
    rw [fundingStage_eq, funding_of_coin rfl] at hprepared
    obtain ⟨funding, hfunding, hstage⟩ := Option.map_eq_some_iff.1 hprepared
    rw [(h.coin coin hcoin).prepared funding hfunding hstage] at hretained
    cases hretained

theorem acceptTransfer (h : WalletInv s) (hsupported : config.Supported)
    {reader : PayloadReader P} {request : TransferRequest} {envelope : TransferEnvelope}
    {status : CoinStatus P} {observed : ObservedFunding P}
    {minimumConfirmations minimumReactionBlocks : Nat}
    (hok : WalletState.acceptTransfer reader config.network request envelope status observed
      minimumConfirmations minimumReactionBlocks s = .ok true s') :
    WalletAdvance config NoFunding s s' := by
  obtain ⟨hinv, hevolves⟩ := h.acceptTransfer hok
  obtain ⟨_, _, hcase⟩ := acceptTransfer_ok.1 hok
  rcases hcase with ⟨_, _, _, _, hfalse, _⟩ | ⟨hcoin, coin, haccept, _, rfl⟩
  · cases hfalse
  obtain ⟨_, incoming, payload, _, _, _, hacceptable, rfl⟩ := acceptCoin_eq_ok.1 haccept
  refine { inv := hinv, evolves := hevolves, funding := ?_, fresh := ?_, checked := ?_,
           journaled := ?_ }
  · rw [funding_of_none hcoin, funding_of_coin rfl]
    exact .same _
  · intro _ funding hmem
    rw [funding_of_coin rfl] at hmem
    cases hmem
  · intro coin' hmem _ metadata hmetadata
    obtain rfl := Option.some.inj hmem
    obtain rfl := Option.some.inj hmetadata
    exact ⟨⟨hacceptable.network.1, hsupported⟩, fun _ hnone => by cases hnone⟩
  · intro _ hprepared
    rw [fundingStage_eq, funding_of_coin rfl] at hprepared
    cases hprepared

theorem coreFunding (h : WalletInv s) (hsupported : config.Supported) {coin : WalletCoin P}
    (hcoin : s.coin = some coin)
    (hpending : s.pending = none) (hmetadata : coin.metadata = none)
    (hfunding : coin.funding = none) (hhistory : coin.history = [])
    (hchain : config.chain.isExplorer = false) {prepared : PreparedSourceFunding P}
    (hprepared : prepared.outpoint.txid = P.computeTxid prepared.transaction)
    (amountSat delayBlocks feeRateSatVb maxFeeSat : Nat) :
    WalletAdvance config (fun _ => config.chain.isExplorer = false) s { s with
      coin := some { coin with
        metadata := some (coin.keys.metadata config.network prepared.outpoint amountSat)
        funding := some (Tinylayer.coreFunding prepared delayBlocks feeRateSatVb maxFeeSat) } } := by
  obtain ⟨hinv, hevolves⟩ := h.coreFunding hcoin hpending hmetadata hfunding hhistory config.network
    prepared amountSat delayBlocks feeRateSatVb maxFeeSat rfl
  refine { inv := hinv, evolves := hevolves, funding := ?_, fresh := fun _ _ _ => hchain,
           checked := ?_, journaled := ?_ }
  · rw [funding_of_coin hcoin, funding_of_coin rfl, hfunding]
    exact .prepared rfl
  · intro coin' hmem _ metadata hmem'
    obtain rfl := Option.some.inj hmem
    obtain rfl := Option.some.inj hmem'
    refine ⟨⟨rfl, hsupported⟩, fun funding hmem'' => ?_⟩
    obtain rfl := Option.some.inj hmem''
    exact hprepared
  · intro hexplorer
    rw [hchain] at hexplorer
    cases hexplorer

theorem coreAttempt (h : WalletInv s) (hsecret : P.SecretCodec)
    (hchecked : ∀ coin ∈ s.coin, CoinChecked config coin) {draws : FundingDraws P}
    {coin : WalletCoin P} {metadata : CoinMetadata P} {funding : FundingJournal P}
    {status : CoinStatus P} {delayBlocks : Nat} {pending : PendingRecovery P}
    (hcoin : s.coin = some coin) (hmetadata : coin.metadata = some metadata)
    (hfunding : coin.funding = some funding) (hstage : funding.stage = .prepared)
    (hdelay : funding.delayBlocks = delayBlocks)
    (hok : Tinylayer.coreAttempt draws coin metadata status delayBlocks = .ok pending) :
    WalletAdvance config NoFunding s { s with pending := some (.recovery pending) } :=
  of_coin_eq (h.coreAttempt hsecret hcoin hmetadata hfunding hstage hdelay hok) rfl hchecked
    fun _ => rfl

end WalletAdvance

end Tinylayer
