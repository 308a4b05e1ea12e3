import Tinylayer.Client.Proofs.RecoveryProofs
import Tinylayer.Wallet.Proofs.HistoryProofs
import Tinylayer.Wallet.State

/-!
# Proofs: the operations of the wallet

What each operation of the wallet state does when it succeeds, and that an operation that fails
leaves the state as it was.
-/

namespace Tinylayer

variable {P : Platform}

@[simp] theorem WalletCoin.verifyLiveStatus_eq_ok {coin : WalletCoin P} {status : CoinStatus P}
    {u : Unit} :
    coin.verifyLiveStatus status = .ok u ↔
      (coin.keys.Valid ∧ status.coinId = coin.keys.coinId ∧
        status.signingPubkey = coin.keys.enclavePubkey) ∧
      status.signatureCount = coin.history.length ∧
      ∀ capability ∈ coin.currentCapability, ∀ handoff ∈ coin.currentHandoff,
        status.authorization =
          authorization coin.keys.coinId (capabilityHash capability) handoff := by
  unfold WalletCoin.verifyLiveStatus
  cases coin.currentCapability <;> cases coin.currentHandoff <;> simp

namespace WalletState

theorem validateVersion_eq_ok {s : WalletState P} {u : Unit} :
    s.validateVersion = .ok u ↔ s.formatVersion = fileFormatVersion ∧
      ∀ coin, s.coin = some coin →
        coin.acceptedRequest.isSome = coin.acceptedEnvelopeFingerprint.isSome := by
  unfold validateVersion
  cases s.coin <;> simp

theorem beginRegistration_eq_ok {draws : RegistrationDraws P} {s s' : WalletState P}
    {request : RegisterRequest P} :
    beginRegistration draws s = .ok request s' ↔
      s.validateVersion = .ok () ∧ s.coin = none ∧ s.incoming = none ∧
      ((∃ secret capability registration,
          s.pending = some (.registration secret capability registration) ∧ s' = s ∧
          registration.request = request) ∨
        (s.pending = none ∧
          s' = { s with
            pending := some (.registration draws.clientSecret draws.initialCapability
              (prepareRegistration draws.coinId draws.clientSecret
                (capabilityHash draws.initialCapability))) } ∧
          request = ⟨draws.coinId, capabilityHash draws.initialCapability⟩)) := by
  simp only [beginRegistration, EStateM.bind_eq_ok, EStateM.get_eq_ok, EStateM.of_eq_ok,
    Except.bind_eq_ok, Except.ensure_eq_ok, exists_unit, Option.isNone_iff_eq_none]
  constructor
  · rintro ⟨_, _, ⟨rfl, rfl⟩, _, ⟨⟨hversion, hcoin, hincoming⟩, rfl⟩, h⟩
    refine ⟨hversion, hcoin, hincoming, ?_⟩
    cases hp : s.pending with
    | none =>
      simp only [hp, EStateM.bind_eq_ok, EStateM.set_eq_ok, EStateM.pure_eq_ok] at h
      obtain ⟨_, _, rfl, rfl, rfl⟩ := h
      exact Or.inr ⟨rfl, rfl, rfl⟩
    | some pending =>
      cases pending with
      | registration secret capability registration =>
        simp only [hp, EStateM.pure_eq_ok] at h
        exact Or.inl ⟨secret, capability, registration, rfl, h.2.symm, h.1⟩
      | recovery pending => simp [hp] at h
  · rintro ⟨hversion, hcoin, hincoming, h⟩
    refine ⟨s, s, ⟨rfl, rfl⟩, s, ⟨⟨hversion, hcoin, hincoming⟩, rfl⟩, ?_⟩
    rcases h with ⟨secret, capability, registration, hp, rfl, rfl⟩ | ⟨hp, rfl, rfl⟩
    · rw [hp]
      rfl
    · rw [hp]
      rfl

theorem beginRegistration_ok {draws : RegistrationDraws P} {s s' : WalletState P}
    {request : RegisterRequest P} (h : beginRegistration draws s = .ok request s') :
    s.coin = none ∧ s.incoming = none ∧
      ((∃ secret capability registration,
          s.pending = some (.registration secret capability registration) ∧ s' = s ∧
          registration.request = request) ∨
        (s.pending = none ∧
          s' = { s with
            pending := some (.registration draws.clientSecret draws.initialCapability
              (prepareRegistration draws.coinId draws.clientSecret
                (capabilityHash draws.initialCapability))) } ∧
          request = ⟨draws.coinId, capabilityHash draws.initialCapability⟩)) :=
  (beginRegistration_eq_ok.1 h).2

theorem beginRegistration_atomic (draws : RegistrationDraws P) (s : WalletState P) :
    (beginRegistration draws).Atomic s := by
  unfold beginRegistration
  refine .get_bind (.of_bind fun _ _ => ?_)
  dsimp only
  split
  · exact .pure
  · exact .throw
  · exact .set_pure

theorem completeRegistration_ok {status : CoinStatus P} {s s' : WalletState P} {u : Unit}
    (h : completeRegistration status s = .ok u s') :
    s.coin = none ∧ ∃ secret capability registration keys,
      s.pending = some (.registration secret capability registration) ∧
      Tinylayer.completeRegistration registration status = .ok keys ∧
      s' = { s with coin := some (registeredCoin secret capability keys), pending := none } := by
  simp only [completeRegistration, EStateM.bind_eq_ok, EStateM.get_eq_ok, EStateM.of_eq_ok,
    Except.bind_eq_ok, Except.ensure_eq_ok, exists_unit, Option.isNone_iff_eq_none,
    EStateM.set_eq_ok] at h
  obtain ⟨_, _, ⟨rfl, rfl⟩, coin, _, ⟨⟨_, hcoin, h⟩, rfl⟩, rfl⟩ := h
  refine ⟨hcoin, ?_⟩
  split at h
  · simp at h
  · simp at h
  · rename_i secret capability registration hp
    simp only [Except.bind_eq_ok, Client.lift_eq_ok, Except.pure_eq_ok] at h
    obtain ⟨keys, hkeys, rfl⟩ := h
    exact ⟨secret, capability, registration, keys, hp, hkeys, rfl⟩

theorem completeRegistration_atomic (status : CoinStatus P) (s : WalletState P) :
    (completeRegistration status).Atomic s :=
  .get_bind (.of_bind fun _ _ => .set)

/-- The coin after `begin_funding`. -/
def preparedCoin (coin : WalletCoin P) (network : NetworkId) (funding : PreparedSourceFunding P)
    (amountSat delayBlocks feeRateSatVb maxFeeSat : Nat) : WalletCoin P :=
  { coin with
    metadata := some (coin.keys.metadata network funding.outpoint amountSat)
    funding := some {
      transaction := funding.transaction
      delayBlocks
      feeRateSatVb
      maxFeeSat
      feeSat := funding.feeSat
      stage := .prepared } }

/-- The journal of a signing request that was not answered yet. -/
def preparedRecovery (purpose : RecoveryPurpose) (expectedSignatureCount delayBlocks : Nat)
    (request : SignRequest P) (prepared : PreparedRecovery P) : PendingOperation P :=
  .recovery ⟨purpose, .prepared ⟨expectedSignatureCount, delayBlocks, request, prepared⟩⟩

theorem beginFunding_ok {draws : FundingDraws P} {network : NetworkId} {sourceSecret : P.SecretKey}
    {source : SourceUtxo P} {status : CoinStatus P}
    {amountSat delayBlocks feeRateSatVb maxFeeSat minimumReactionBlocks : Nat}
    {s s' : WalletState P} {request : SignRequest P}
    (h : beginFunding draws network sourceSecret source status amountSat delayBlocks feeRateSatVb
      maxFeeSat minimumReactionBlocks s = .ok request s') :
    s.pending = none ∧ ∃ coin capability funding prepared, s.coin = some coin ∧
      (coin.metadata = none ∧ coin.funding = none ∧ coin.history = [] ∧
        coin.currentHandoff = some initialHandoff ∧ coin.currentCapability = some capability) ∧
      coin.verifyLiveStatus status = .ok () ∧ status.signatureCount = 0 ∧
      buildSourceFunding coin.keys network sourceSecret source amountSat feeRateSatVb maxFeeSat =
        .ok funding ∧
      prepareRecovery (coin.keys.metadata network funding.outpoint amountSat) status
        coin.clientSecret capability initialHandoff (capabilityHash draws.nextCapability)
        (P.xOnlyPublicKey draws.withdrawal) delayBlocks 0 = .ok (request, prepared) ∧
      s' = { s with
        coin := some (preparedCoin coin network funding amountSat delayBlocks feeRateSatVb maxFeeSat)
        pending := some (preparedRecovery
          (.fund draws.nextCapability (P.secretBytes draws.withdrawal)) 0 delayBlocks request
          prepared) } := by
  simp only [beginFunding, EStateM.bind_eq_ok, EStateM.get_eq_ok, EStateM.of_eq_ok,
    Except.bind_eq_ok, Except.ensure_eq_ok, exists_unit, Option.isNone_iff_eq_none,
    EStateM.set_eq_ok, EStateM.pure_eq_ok, Except.context_eq_ok, Client.lift_eq_ok,
    Except.pure_eq_ok, requireReactionMargin_eq_ok] at h
  obtain ⟨_, _, ⟨rfl, rfl⟩, ⟨_, _, _⟩, _, ⟨⟨_, hpending, _, coin, hcoin,
    ⟨hmetadata, hfunding, hhistory, hhandoff⟩, hlive, hcount, capability, hcapability, handoff,
    hhandoff', funding, hsource, ⟨_, prepared⟩, hprepare, heq⟩, rfl⟩, _, rfl, rfl, rfl⟩ := h
  obtain rfl : handoff = initialHandoff := by
    rw [hhandoff] at hhandoff'
    exact (Option.some.inj hhandoff').symm
  cases heq
  refine ⟨hpending, coin, capability, funding, prepared, hcoin,
    ⟨hmetadata, hfunding, hhistory, hhandoff, hcapability⟩, hlive, hcount, hsource, hprepare, ?_⟩
  simp only [preparedCoin, preparedRecovery, hcount]

theorem beginFunding_atomic (draws : FundingDraws P) (network : NetworkId)
    (sourceSecret : P.SecretKey) (source : SourceUtxo P) (status : CoinStatus P)
    (amountSat delayBlocks feeRateSatVb maxFeeSat minimumReactionBlocks : Nat)
    (s : WalletState P) :
    (beginFunding draws network sourceSecret source status amountSat delayBlocks feeRateSatVb
      maxFeeSat minimumReactionBlocks).Atomic s :=
  .get_bind (.of_bind fun _ _ => .set_pure)

theorem recordSignResponse_ok {response : SignResponse P} {s s' : WalletState P} {u : Unit} :
    recordSignResponse response s = .ok u s' ↔
      ∃ purpose attempt,
        (s.pending = some (.recovery ⟨purpose, .prepared attempt⟩) ∧
          s' = { s with pending := some (.recovery ⟨purpose, .responded attempt response⟩) }) ∨
        (s.pending = some (.recovery ⟨purpose, .responded attempt response⟩) ∧ s' = s) := by
  simp only [recordSignResponse, EStateM.bind_eq_ok, EStateM.get_eq_ok, EStateM.of_eq_ok,
    Except.context_eq_ok, EStateM.set_eq_ok]
  constructor
  · rintro ⟨_, _, ⟨rfl, rfl⟩, pending, _, ⟨hp, rfl⟩, _, _, rfl, h⟩
    split at h
    · simp at h
    · rename_i purpose attempt
      exact ⟨purpose, attempt, Or.inl ⟨hp, (EStateM.set_eq_ok.1 h).symm⟩⟩
    · rename_i purpose attempt saved
      simp only [EStateM.bind_eq_ok, EStateM.set_eq_ok, EStateM.of_eq_ok, Except.ensure_eq_ok] at h
      obtain ⟨_, _, rfl, rfl, rfl⟩ := h
      refine ⟨purpose, attempt, Or.inr ⟨hp, ?_⟩⟩
      rw [← hp]
  · rintro ⟨purpose, attempt, ⟨hp, rfl⟩ | ⟨hp, rfl⟩⟩
    · exact ⟨s, s, ⟨rfl, rfl⟩, _, _, ⟨hp, rfl⟩, (), _, rfl, by simp⟩
    · refine ⟨s', s', ⟨rfl, rfl⟩, _, _, ⟨hp, rfl⟩, (), _, rfl, ?_⟩
      simp only [EStateM.bind_eq_ok, EStateM.set_eq_ok, EStateM.of_eq_ok, Except.ensure_eq_ok]
      exact ⟨(), _, rfl, trivial, by rw [← hp]⟩

theorem recordSignResponse_atomic (response : SignResponse P) (s : WalletState P) :
    (recordSignResponse response).Atomic s := by
  intro e s' h
  simp only [recordSignResponse, EStateM.bind_eq_error, EStateM.get_ne_error, EStateM.get_eq_ok,
    EStateM.of_eq_error, EStateM.of_eq_ok, EStateM.set_ne_error, EStateM.set_eq_ok, false_or,
    Except.context_eq_ok] at h
  obtain ⟨_, _, ⟨rfl, rfl⟩, ⟨_, rfl⟩ | ⟨pending, _, ⟨hp, rfl⟩, _, _, rfl, h⟩⟩ := h
  · rfl
  · split at h
    · simp only [EStateM.bind_eq_error, EStateM.set_ne_error, EStateM.set_eq_ok, false_or,
        EStateM.throw_eq_error] at h
      obtain ⟨_, _, rfl, _, rfl⟩ := h
      rw [← hp]
    · simp at h
    · simp only [EStateM.bind_eq_error, EStateM.set_ne_error, EStateM.set_eq_ok, false_or,
        EStateM.of_eq_error] at h
      obtain ⟨_, _, rfl, _, rfl⟩ := h
      rw [← hp]

/-- The coin after `complete_funding_recovery`. -/
def securedCoin (coin : WalletCoin P) (funding : FundingJournal P) (recovery : SignedRecovery P)
    (nextCapability : Capability) (nextHandoff : HandoffToken) (withdrawalSecret : Bytes32) :
    WalletCoin P :=
  { coin with
    history := coin.history ++ [recovery]
    funding := some { funding with stage := .recoverySecured }
    currentCapability := some nextCapability
    currentHandoff := some nextHandoff
    withdrawalSecret := some withdrawalSecret
    withdrawalRecoveryIndex := some coin.history.length }

theorem completeFundingRecovery_ok {status : CoinStatus P} {s s' : WalletState P} {u : Unit} :
    completeFundingRecovery status s = .ok u s' ↔
      ∃ nextCapability withdrawalSecret attempt response coin recovery funding,
        s.pending = some (.recovery
          ⟨.fund nextCapability withdrawalSecret, .responded attempt response⟩) ∧
        attempt.expectedSignatureCount = 0 ∧ s.coin = some coin ∧
        verifyStatus coin.keys status = .ok () ∧
        verifySignResponse attempt.request 0 status response = .ok () ∧
        completeRecovery attempt.request response attempt.prepared coin.clientSecret =
          .ok recovery ∧
        recovery.delayBlocks = attempt.delayBlocks ∧
        coin.funding = some funding ∧ funding.stage = .prepared ∧
        s' = { s with
          coin := some (securedCoin coin funding recovery nextCapability response.nextHandoff
            withdrawalSecret)
          pending := none } := by
  simp only [completeFundingRecovery, EStateM.bind_eq_ok, EStateM.get_eq_ok, EStateM.of_eq_ok,
    EStateM.set_eq_ok]
  constructor
  · rintro ⟨_, _, ⟨rfl, rfl⟩, result, _, ⟨h, rfl⟩, rfl⟩
    split at h
    · simp at h
    · simp at h
    · simp at h
    · simp at h
    · rename_i nextCapability withdrawalSecret attempt response hp
      simp only [Except.bind_eq_ok, Except.ensure_eq_ok, exists_unit, Except.context_eq_ok,
        Client.lift_eq_ok, Except.pure_eq_ok] at h
      obtain ⟨hcount, coin, hcoin, hstatus, hresponse, recovery, hrecovery, hdelay, funding,
        hfunding, hstage, rfl⟩ := h
      rw [hcount] at hresponse
      exact ⟨nextCapability, withdrawalSecret, attempt, response, coin, recovery, funding, hp,
        hcount, hcoin, hstatus, hresponse, hrecovery, hdelay, hfunding, hstage, rfl⟩
  · rintro ⟨nextCapability, withdrawalSecret, attempt, response, coin, recovery, funding, hp,
      hcount, hcoin, hstatus, hresponse, hrecovery, hdelay, hfunding, hstage, rfl⟩
    refine ⟨s, s, ⟨rfl, rfl⟩, securedCoin coin funding recovery nextCapability
      response.nextHandoff withdrawalSecret, s, ⟨?_, rfl⟩, rfl⟩
    rw [← hcount] at hresponse
    simp only [hp, Except.bind_eq_ok, Except.ensure_eq_ok, exists_unit, Except.context_eq_ok,
      Client.lift_eq_ok, Except.pure_eq_ok]
    exact ⟨hcount, coin, hcoin, hstatus, hresponse, recovery, hrecovery, hdelay, funding,
      hfunding, hstage, rfl⟩

theorem completeFundingRecovery_atomic (status : CoinStatus P) (s : WalletState P) :
    (completeFundingRecovery status).Atomic s :=
  .get_bind (.of_bind fun _ _ => .set)

theorem fundingTransaction_eq_ok {s : WalletState P} {transaction : P.Tx} :
    s.fundingTransaction = .ok transaction ↔
      ∃ coin metadata funding recovery, s.coin = some coin ∧ coin.metadata = some metadata ∧
        coin.funding = some funding ∧
        (funding.stage = .recoverySecured ∨ funding.stage = .broadcast) ∧
        validateFinalizedFunding metadata funding.transaction = .ok () ∧
        coin.history.head? = some recovery ∧ recovery.delayBlocks = funding.delayBlocks ∧
        VerifiedRecovery metadata recovery ∧ funding.transaction = transaction := by
  simp only [fundingTransaction, Except.bind_eq_ok, Except.context_eq_ok, Except.ensure_eq_ok,
    exists_unit, Client.lift_eq_ok, verifyRecovery_eq_ok, Except.pure_eq_ok]
  constructor
  · rintro ⟨coin, hc, metadata, hm, funding, hf, hstage, hval, recovery, hr, hd, hv, rfl⟩
    exact ⟨coin, metadata, funding, recovery, hc, hm, hf, hstage, hval, hr, hd, hv, rfl⟩
  · rintro ⟨coin, metadata, funding, recovery, hc, hm, hf, hstage, hval, hr, hd, hv, rfl⟩
    exact ⟨coin, hc, metadata, hm, funding, hf, hstage, hval, recovery, hr, hd, hv, rfl⟩

theorem markFundingBroadcast_ok {txid : P.Txid} {s s' : WalletState P} {u : Unit} :
    markFundingBroadcast txid s = .ok u s' ↔
      ∃ transaction, s.fundingTransaction = .ok transaction ∧ P.computeTxid transaction = txid ∧
        s' = { s with coin := s.coin.map broadcastCoin } := by
  simp only [markFundingBroadcast, EStateM.bind_eq_ok, EStateM.get_eq_ok, EStateM.of_eq_ok,
    EStateM.set_eq_ok, Except.bind_eq_ok, Except.ensure_eq_ok]
  constructor
  · rintro ⟨_, _, ⟨rfl, rfl⟩, _, _, ⟨⟨transaction, htx, htxid⟩, rfl⟩, rfl⟩
    exact ⟨transaction, htx, htxid, rfl⟩
  · rintro ⟨transaction, htx, htxid, rfl⟩
    exact ⟨s, s, ⟨rfl, rfl⟩, (), s, ⟨⟨transaction, htx, htxid⟩, rfl⟩, rfl⟩

theorem markFundingBroadcast_atomic (txid : P.Txid) (s : WalletState P) :
    (markFundingBroadcast txid).Atomic s :=
  .get_bind (.of_bind fun _ _ => .set)

/-- The request that `begin_transfer_request` creates. -/
def incomingTransfer (draws : RequestDraws P) (network : NetworkId) (coinId : CoinId)
    (outpoint : OutPoint P.Txid) (expectedAmountSat minimumReactionBlocks : Nat) :
    IncomingTransfer where
  request := TransferRequest.new draws.requestId coinId network outpoint expectedAmountSat
    (secretXonly draws.withdrawal) (capabilityHash draws.capability)
    (P.publicKeyOf draws.transport) minimumReactionBlocks
  capability := draws.capability
  withdrawalSecret := P.secretBytes draws.withdrawal
  transportSecret := P.secretBytes draws.transport

/-- The saved request asks for this coin. -/
structure AsksFor (request : TransferRequest) (network : NetworkId) (coinId : CoinId)
    (outpoint : OutPoint P.Txid) (expectedAmountSat minimumReactionBlocks : Nat) : Prop where
  coinId : request.parseCoinId = .ok coinId
  outpoint : request.parseOutpoint P = .ok outpoint
  network : request.network = network
  amount : request.expectedAmountSat = expectedAmountSat
  margin : request.minReactionBlocks = minimumReactionBlocks

theorem beginTransferRequest_eq_ok {draws : RequestDraws P} {network : NetworkId}
    {coinId : CoinId} {outpoint : OutPoint P.Txid}
    {expectedAmountSat minimumReactionBlocks : Nat} {s s' : WalletState P}
    {request : TransferRequest} :
    beginTransferRequest draws network coinId outpoint expectedAmountSat minimumReactionBlocks s =
        .ok request s' ↔
      s.validateVersion = .ok () ∧ s.coin = none ∧ s.pending = none ∧
      P.isNull outpoint = false ∧ delayStep ≤ minimumReactionBlocks ∧
      ((∃ incoming, s.incoming = some incoming ∧ incoming.request = request ∧ s' = s ∧
          AsksFor request network coinId outpoint expectedAmountSat minimumReactionBlocks) ∨
        (s.incoming = none ∧
          request.validate P = .ok () ∧
          request = (incomingTransfer draws network coinId outpoint expectedAmountSat
            minimumReactionBlocks).request ∧
          s' = { s with
            incoming := some (incomingTransfer draws network coinId outpoint expectedAmountSat
              minimumReactionBlocks) })) := by
  simp only [beginTransferRequest, EStateM.bind_eq_ok, EStateM.get_eq_ok, EStateM.of_eq_ok,
    Except.bind_eq_ok, Except.ensure_eq_ok, exists_unit, Option.isNone_iff_eq_none]
  constructor
  · rintro ⟨_, _, ⟨rfl, rfl⟩, _, ⟨⟨hversion, hcoin, hpending, hnull, hmin⟩, rfl⟩, h⟩
    refine ⟨hversion, hcoin, hpending, hnull, hmin, ?_⟩
    cases hi : s.incoming with
    | none =>
      simp only [hi, EStateM.bind_eq_ok, EStateM.of_eq_ok, EStateM.set_eq_ok,
        EStateM.pure_eq_ok] at h
      obtain ⟨_, _, ⟨hvalid, rfl⟩, _, _, rfl, rfl, rfl⟩ := h
      exact Or.inr ⟨rfl, hvalid, rfl, rfl⟩
    | some incoming =>
      simp only [hi, EStateM.bind_eq_ok, EStateM.of_eq_ok, EStateM.pure_eq_ok, Except.bind_eq_ok,
        Except.ensure_eq_ok] at h
      obtain ⟨_, _, ⟨⟨_, hid, _, hout, rfl, rfl, hnetwork, hamount, hmargin⟩, rfl⟩, rfl, rfl⟩ := h
      exact Or.inl ⟨incoming, rfl, rfl, rfl, hid, hout, hnetwork, hamount, hmargin⟩
  · rintro ⟨hversion, hcoin, hpending, hnull, hmin, h⟩
    refine ⟨s, s, ⟨rfl, rfl⟩, s, ⟨⟨hversion, hcoin, hpending, hnull, hmin⟩, rfl⟩, ?_⟩
    rcases h with ⟨incoming, hi, rfl, rfl, hasks⟩ | ⟨hi, hvalid, rfl, rfl⟩
    · simp only [hi, EStateM.bind_eq_ok, EStateM.of_eq_ok, EStateM.pure_eq_ok, Except.bind_eq_ok,
        Except.ensure_eq_ok]
      exact ⟨(), _, ⟨⟨coinId, hasks.coinId, outpoint, hasks.outpoint, rfl, rfl, hasks.network,
        hasks.amount, hasks.margin⟩, rfl⟩, trivial, rfl⟩
    · simp only [hi, EStateM.bind_eq_ok, EStateM.of_eq_ok, EStateM.set_eq_ok, EStateM.pure_eq_ok]
      exact ⟨(), _, ⟨hvalid, rfl⟩, (), _, rfl, rfl, rfl⟩

theorem beginTransferRequest_ok {draws : RequestDraws P} {network : NetworkId} {coinId : CoinId}
    {outpoint : OutPoint P.Txid} {expectedAmountSat minimumReactionBlocks : Nat}
    {s s' : WalletState P} {request : TransferRequest}
    (h : beginTransferRequest draws network coinId outpoint expectedAmountSat
      minimumReactionBlocks s = .ok request s') :
    s.coin = none ∧ s.pending = none ∧ P.isNull outpoint = false ∧
      delayStep ≤ minimumReactionBlocks ∧
      ((∃ incoming, s.incoming = some incoming ∧ incoming.request = request ∧ s' = s) ∨
        (s.incoming = none ∧
          request.validate P = .ok () ∧
          request = (incomingTransfer draws network coinId outpoint expectedAmountSat
            minimumReactionBlocks).request ∧
          s' = { s with
            incoming := some (incomingTransfer draws network coinId outpoint expectedAmountSat
              minimumReactionBlocks) })) := by
  obtain ⟨_, hcoin, hpending, hnull, hmin, h⟩ := beginTransferRequest_eq_ok.1 h
  refine ⟨hcoin, hpending, hnull, hmin, h.imp_left ?_⟩
  rintro ⟨incoming, hi, hrequest, hs, _⟩
  exact ⟨incoming, hi, hrequest, hs⟩

theorem beginTransferRequest_atomic (draws : RequestDraws P) (network : NetworkId)
    (coinId : CoinId) (outpoint : OutPoint P.Txid) (expectedAmountSat minimumReactionBlocks : Nat)
    (s : WalletState P) :
    (beginTransferRequest draws network coinId outpoint expectedAmountSat
      minimumReactionBlocks).Atomic s := by
  unfold beginTransferRequest
  refine .get_bind (.of_bind fun _ _ => ?_)
  dsimp only
  split
  · exact .of_bind fun _ _ => .pure
  · exact .of_bind fun _ _ => .set_pure

/-- A transfer request that fits the coin. -/
structure FitsCoin (request : TransferRequest) (network : NetworkId) (coin : WalletCoin P)
    (metadata : CoinMetadata P) : Prop where
  validate : request.validate P = .ok ()
  metadata_eq : coin.metadata = some metadata
  history_ne : coin.history ≠ []
  broadcast : ∀ funding ∈ coin.funding, funding.stage = .broadcast
  coinId : request.parseCoinId = .ok coin.keys.coinId
  request_network : request.network = network
  metadata_network : metadata.network = network
  outpoint : request.parseOutpoint P = .ok metadata.outpoint
  amount : request.expectedAmountSat = metadata.amountSat

theorem validateOutgoingTransferRequest_eq_ok {s : WalletState P} {network : NetworkId}
    {request : TransferRequest} {u : Unit} :
    s.validateOutgoingTransferRequest network request = .ok u ↔
      s.validateVersion = .ok () ∧ ∃ coin metadata, s.coin = some coin ∧
        FitsCoin request network coin metadata := by
  simp only [validateOutgoingTransferRequest, Except.bind_eq_ok, Except.context_eq_ok,
    Except.ensure_eq_ok, exists_unit]
  refine and_congr_right fun _ => ?_
  constructor
  · rintro ⟨hval, coin, hcoin, metadata, hm, hne, hb, coinId, hid, rfl, hn, hmn, outpoint, hout,
      rfl, ham⟩
    exact ⟨coin, metadata, hcoin, ⟨hval, hm, hne, hb, hid, hn, hmn, hout, ham⟩⟩
  · rintro ⟨coin, metadata, hcoin, ⟨hval, hm, hne, hb, hid, hn, hmn, hout, ham⟩⟩
    exact ⟨hval, coin, hcoin, metadata, hm, hne, hb, _, hid, rfl, hn, hmn, _, hout, rfl, ham⟩

theorem ownedWithdrawalKey_eq_ok {coin : WalletCoin P} {key : P.SecretKey} :
    ownedWithdrawalKey coin = .ok key ↔
      ∃ secret, coin.withdrawalSecret = some secret ∧ P.secretKeyFromSlice secret = some key := by
  simp [ownedWithdrawalKey]

theorem nextDelay_eq_ok {history : List (SignedRecovery P)} {delay : Nat} :
    nextDelay history = .ok delay ↔
      ∃ latest, history.getLast? = some latest ∧ latest.delayBlocks = delay + delayStep := by
  simp only [nextDelay, Except.bind_eq_ok, Except.context_eq_ok, checkedSub_eq_some]
  refine exists_congr fun latest => and_congr_right fun _ => ?_
  omega

/-- What `begin_transfer` checks of the coin before it asks for a signature. -/
structure Sendable (coin : WalletCoin P) (metadata : CoinMetadata P) (request : TransferRequest)
    (status : CoinStatus P) (observed : ObservedFunding P)
    (minimumConfirmations minimumReactionBlocks : Nat) (capability : Capability)
    (handoff : HandoffToken) (withdrawal : P.SecretKey) (delayBlocks : Nat) : Prop where
  outgoing : coin.outgoing = none
  funding : verifyObservedFunding metadata observed minimumConfirmations = .ok ()
  capability_eq : coin.currentCapability = some capability
  handoff_eq : coin.currentHandoff = some handoff
  withdrawal_eq : ownedWithdrawalKey coin = .ok withdrawal
  history : verifyHistory metadata status coin.clientSecret capability handoff
    (secretXonly withdrawal) observed.confirmations coin.history = .ok ()
  delay : nextDelay coin.history = .ok delayBlocks
  margin : requireReactionMargin observed.confirmations delayBlocks
    (max minimumReactionBlocks request.minReactionBlocks) = .ok ()

theorem beginTransfer_ok {network : NetworkId} {request : TransferRequest} {status : CoinStatus P}
    {observed : ObservedFunding P} {minimumConfirmations minimumReactionBlocks : Nat}
    {s s' : WalletState P} {signRequest : SignRequest P} :
    beginTransfer network request status observed minimumConfirmations minimumReactionBlocks s =
        .ok signRequest s' ↔
      s.pending = none ∧ s.validateVersion = .ok () ∧
      ∃ coin metadata capability handoff withdrawal delayBlocks nextCapabilityHash withdrawalKey
          prepared template,
        s.coin = some coin ∧ FitsCoin request network coin metadata ∧
        Sendable coin metadata request status observed minimumConfirmations minimumReactionBlocks
          capability handoff withdrawal delayBlocks ∧
        request.parseNextCapabilityHash P = .ok nextCapabilityHash ∧
        request.withdrawalKey P = .ok withdrawalKey ∧
        prepareRecovery metadata status coin.clientSecret capability handoff nextCapabilityHash
          withdrawalKey delayBlocks observed.confirmations = .ok (signRequest, prepared) ∧
        prepared.recoverySerializationTemplate = .ok template ∧
        validateTransferPayloadSize (transferPayload coin metadata Bytes32.max Bytes32.max
          (coin.history ++ [template])) = .ok () ∧
        s' = { s with
          pending := some (preparedRecovery (.transfer request) status.signatureCount delayBlocks
            signRequest prepared) } := by
  simp only [beginTransfer, EStateM.bind_eq_ok, EStateM.get_eq_ok, EStateM.of_eq_ok,
    Except.bind_eq_ok, Except.ensure_eq_ok, exists_unit, Option.isNone_iff_eq_none,
    EStateM.set_eq_ok, EStateM.pure_eq_ok, Except.context_eq_ok, Client.lift_eq_ok,
    Except.pure_eq_ok, validateOutgoingTransferRequest_eq_ok]
  constructor
  · rintro ⟨_, _, ⟨rfl, rfl⟩, ⟨_, _⟩, _, ⟨⟨hpending, ⟨hversion, coin, metadata, hcoin, hfits⟩,
      coin', hcoin', houtgoing, metadata', hmetadata', hobserved, capability, hcapability, handoff,
      hhandoff, withdrawal, hwithdrawal, hhistory, delay, hdelay, hmargin, hash, hhash, key, hkey,
      ⟨_, prepared⟩, hprepare, template, htemplate, hsize, heq⟩, rfl⟩, _, rfl, rfl, rfl⟩
    cases heq
    obtain rfl := Option.some.inj (hcoin.symm.trans hcoin')
    obtain rfl := Option.some.inj (hfits.metadata_eq.symm.trans hmetadata')
    exact ⟨hpending, hversion, coin, metadata, capability, handoff, withdrawal, delay, hash, key,
      prepared, template, hcoin, hfits, ⟨houtgoing, hobserved, hcapability, hhandoff, hwithdrawal,
      hhistory, hdelay, hmargin⟩, hhash, hkey, hprepare, htemplate, hsize, rfl⟩
  · rintro ⟨hpending, hversion, coin, metadata, capability, handoff, withdrawal, delay, hash, key,
      prepared, template, hcoin, hfits, ⟨houtgoing, hobserved, hcapability, hhandoff, hwithdrawal,
      hhistory, hdelay, hmargin⟩, hhash, hkey, hprepare, htemplate, hsize, rfl⟩
    exact ⟨s, s, ⟨rfl, rfl⟩, ⟨signRequest, _⟩, s, ⟨⟨hpending, ⟨hversion, coin, metadata, hcoin,
      hfits⟩, coin, hcoin, houtgoing, metadata, hfits.metadata_eq, hobserved, capability,
      hcapability, handoff, hhandoff, withdrawal, hwithdrawal, hhistory, delay, hdelay, hmargin,
      hash, hhash, key, hkey, (signRequest, prepared), hprepare, template, htemplate, hsize, rfl⟩,
      rfl⟩, _, rfl, rfl, rfl⟩

theorem beginTransfer_atomic (network : NetworkId) (request : TransferRequest)
    (status : CoinStatus P) (observed : ObservedFunding P)
    (minimumConfirmations minimumReactionBlocks : Nat) (s : WalletState P) :
    (beginTransfer network request status observed minimumConfirmations
      minimumReactionBlocks).Atomic s :=
  .get_bind (.of_bind fun _ _ => .set_pure)

theorem completeTransfer_ok {draws : EnvelopeDraws P} {status : CoinStatus P}
    {s s' : WalletState P} {envelope : TransferEnvelope} :
    completeTransfer draws status s = .ok envelope s' ↔
      ∃ request attempt response coin metadata recovery index retained requestId,
        s.pending = some (.recovery ⟨.transfer request, .responded attempt response⟩) ∧
        s.coin = some coin ∧ coin.metadata = some metadata ∧
        request.validate P = .ok () ∧
        (request.parseCoinId = .ok coin.keys.coinId ∧ request.network = metadata.network ∧
          request.parseOutpoint P = .ok metadata.outpoint ∧
          request.expectedAmountSat = metadata.amountSat) ∧
        verifyStatus coin.keys status = .ok () ∧
        verifySignResponse attempt.request attempt.expectedSignatureCount status response =
          .ok () ∧
        completeRecovery attempt.request response attempt.prepared coin.clientSecret =
          .ok recovery ∧
        recovery.delayBlocks = attempt.delayBlocks ∧
        coin.withdrawalRecoveryIndex = some index ∧ coin.history[index]? = some retained ∧
        request.id = .ok requestId ∧
        encryptTransfer draws request (transferPayload coin metadata requestId
          response.nextHandoff (coin.history ++ [recovery])) = .ok envelope ∧
        s' = { s with
          coin := some (transferredCoin coin retained request envelope)
          pending := none } := by
  simp only [completeTransfer, EStateM.bind_eq_ok, EStateM.get_eq_ok, EStateM.of_eq_ok,
    EStateM.set_eq_ok, EStateM.pure_eq_ok]
  constructor
  · rintro ⟨_, _, ⟨rfl, rfl⟩, ⟨_, _⟩, _, ⟨h, rfl⟩, _, _, rfl, rfl, rfl⟩
    split at h
    · simp at h
    · simp at h
    · simp at h
    · simp at h
    · rename_i request attempt response hp
      simp only [Except.bind_eq_ok, Except.ensure_eq_ok, exists_unit, Except.context_eq_ok,
        Client.lift_eq_ok, Except.pure_eq_ok] at h
      obtain ⟨hvalid, coin, hcoin, metadata, hm, _, hid, _, hout, ⟨rfl, hn, rfl, ham⟩, hstatus,
        hresponse, recovery, hrecovery, hdelay, index, hindex, retained, hretained, requestId,
        hrid, envelope, hsealed, heq⟩ := h
      cases heq
      exact ⟨request, attempt, response, coin, metadata, recovery, index, retained, requestId, hp,
        hcoin, hm, hvalid, ⟨hid, hn, hout, ham⟩, hstatus, hresponse, hrecovery, hdelay, hindex,
        hretained, hrid, hsealed, rfl⟩
  · rintro ⟨request, attempt, response, coin, metadata, recovery, index, retained, requestId, hp,
      hcoin, hm, hvalid, ⟨hid, hn, hout, ham⟩, hstatus, hresponse, hrecovery, hdelay, hindex,
      hretained, hrid, hsealed, rfl⟩
    refine ⟨s, s, ⟨rfl, rfl⟩, (transferredCoin coin retained request envelope, envelope), s,
      ⟨?_, rfl⟩, (), _, rfl, rfl, rfl⟩
    simp only [hp, Except.bind_eq_ok, Except.ensure_eq_ok, exists_unit, Except.context_eq_ok,
      Client.lift_eq_ok, Except.pure_eq_ok]
    exact ⟨hvalid, coin, hcoin, metadata, hm, _, hid, _, hout, ⟨rfl, hn, rfl, ham⟩, hstatus,
      hresponse, recovery, hrecovery, hdelay, index, hindex, retained, hretained, requestId, hrid,
      envelope, hsealed, rfl⟩

theorem completeTransfer_atomic (draws : EnvelopeDraws P) (status : CoinStatus P)
    (s : WalletState P) : (completeTransfer draws status).Atomic s :=
  .get_bind (.of_bind fun _ _ => .set_pure)

/-- What `accept_transfer` checks of the payload. -/
structure Acceptable (payload : TransferPayload P) (network : NetworkId)
    (request : TransferRequest) (incoming : IncomingTransfer) (status : CoinStatus P)
    (observed : ObservedFunding P) (minimumConfirmations minimumReactionBlocks : Nat) : Prop where
  network : payload.metadata.network = network ∧ request.network = network
  coinId : request.parseCoinId = .ok payload.metadata.keys.coinId
  outpoint : request.parseOutpoint P = .ok payload.metadata.outpoint
  amount : payload.metadata.amountSat = request.expectedAmountSat
  secret : secretXonly payload.clientSecret = payload.metadata.keys.clientPubkey
  capability : request.parseNextCapabilityHash P = .ok (capabilityHash incoming.capability)
  funding : verifyObservedFunding payload.metadata observed minimumConfirmations = .ok ()
  withdrawal : ∃ latest withdrawal, payload.history.getLast? = some latest ∧
    request.withdrawalKey P = .ok latest.withdrawalXonlyPubkey ∧
    P.secretKeyFromSlice incoming.withdrawalSecret = some withdrawal ∧
    verifyHistory payload.metadata status payload.clientSecret incoming.capability
      payload.currentHandoff (secretXonly withdrawal) observed.confirmations payload.history =
        .ok () ∧
    requireReactionMargin observed.confirmations latest.delayBlocks
      (max minimumReactionBlocks request.minReactionBlocks) = .ok ()

theorem acceptCoin_eq_ok {reader : PayloadReader P} {s : WalletState P} {network : NetworkId}
    {request : TransferRequest} {envelope : TransferEnvelope} {status : CoinStatus P}
    {observed : ObservedFunding P} {minimumConfirmations minimumReactionBlocks : Nat}
    {coin : WalletCoin P} :
    acceptCoin reader s network request envelope status observed minimumConfirmations
        minimumReactionBlocks = .ok coin ↔
      s.pending = none ∧ ∃ incoming payload, s.incoming = some incoming ∧
        incoming.request = request ∧
        decryptTransfer reader request incoming.transportSecret envelope = .ok payload ∧
        Acceptable payload network request incoming status observed minimumConfirmations
          minimumReactionBlocks ∧
        acceptedCoin payload incoming.capability incoming.withdrawalSecret request envelope =
          coin := by
  simp only [acceptCoin, Except.bind_eq_ok, Except.ensure_eq_ok, exists_unit, Except.context_eq_ok,
    Client.lift_eq_ok, Except.pure_eq_ok, Option.isNone_iff_eq_none,
    TransferPayload.validateExpectedAmount]
  refine and_congr_right fun _ => ?_
  constructor
  · rintro ⟨incoming, hi, hreq, payload, hdec, hnet, _, hid, rfl, _, hout, rfl, ham, hsec, latest,
      hlatest, _, hkey, rfl, _, hcap, rfl, hobs, withdrawal, hw, hver, hmargin, rfl⟩
    exact ⟨incoming, payload, hi, hreq, hdec, ⟨hnet, hid, hout, ham, hsec, hcap, hobs, latest,
      withdrawal, hlatest, hkey, hw, hver, hmargin⟩, rfl⟩
  · rintro ⟨incoming, payload, hi, hreq, hdec, ⟨hnet, hid, hout, ham, hsec, hcap, hobs, latest,
      withdrawal, hlatest, hkey, hw, hver, hmargin⟩, rfl⟩
    exact ⟨incoming, hi, hreq, payload, hdec, hnet, _, hid, rfl, _, hout, rfl, ham, hsec, latest,
      hlatest, _, hkey, rfl, _, hcap, rfl, hobs, withdrawal, hw, hver, hmargin, rfl⟩

theorem acceptTransfer_ok {reader : PayloadReader P} {s s' : WalletState P} {network : NetworkId}
    {request : TransferRequest} {envelope : TransferEnvelope} {status : CoinStatus P}
    {observed : ObservedFunding P} {minimumConfirmations minimumReactionBlocks : Nat}
    {accepted : Bool} :
    acceptTransfer reader network request envelope status observed minimumConfirmations
        minimumReactionBlocks s = .ok accepted s' ↔
      s.validateVersion = .ok () ∧ request.validate P = .ok () ∧
        ((∃ coin, s.coin = some coin ∧ coin.acceptedRequest = some request ∧
            coin.acceptedEnvelopeFingerprint = some envelope.fingerprint ∧ accepted = false ∧
            s' = s) ∨
          (s.coin = none ∧ ∃ coin, acceptCoin reader s network request envelope status observed
              minimumConfirmations minimumReactionBlocks = .ok coin ∧ accepted = true ∧
            s' = { s with coin := some coin, incoming := none })) := by
  simp only [acceptTransfer, EStateM.bind_eq_ok, EStateM.get_eq_ok, EStateM.of_eq_ok,
    Except.bind_eq_ok, exists_unit]
  cases hcoin : s.coin with
  | some coin =>
    constructor
    · rintro ⟨_, _, ⟨rfl, rfl⟩, _, ⟨⟨hv, hr⟩, rfl⟩, h⟩
      simp only [hcoin, EStateM.bind_eq_ok, EStateM.of_eq_ok, Except.ensure_eq_ok,
        EStateM.pure_eq_ok] at h
      obtain ⟨_, _, ⟨⟨ha, hf⟩, rfl⟩, rfl, rfl⟩ := h
      exact ⟨hv, hr, Or.inl ⟨coin, rfl, ha, hf, rfl, rfl⟩⟩
    · rintro ⟨hv, hr, ⟨_, hc, ha, hf, rfl, rfl⟩ | ⟨hc, _⟩⟩
      · obtain rfl := Option.some.inj hc
        refine ⟨_, _, ⟨rfl, rfl⟩, _, ⟨⟨hv, hr⟩, rfl⟩, ?_⟩
        simp [hcoin, ha, hf]
      · cases hc
  | none =>
    constructor
    · rintro ⟨_, _, ⟨rfl, rfl⟩, _, ⟨⟨hv, hr⟩, rfl⟩, h⟩
      simp only [hcoin, EStateM.bind_eq_ok, EStateM.of_eq_ok, EStateM.set_eq_ok,
        EStateM.pure_eq_ok] at h
      obtain ⟨coin, _, ⟨hok, rfl⟩, _, _, rfl, rfl, rfl⟩ := h
      exact ⟨hv, hr, Or.inr ⟨rfl, coin, hok, rfl, rfl⟩⟩
    · rintro ⟨hv, hr, ⟨_, hc, _⟩ | ⟨_, coin, hok, rfl, rfl⟩⟩
      · cases hc
      · refine ⟨_, _, ⟨rfl, rfl⟩, _, ⟨⟨hv, hr⟩, rfl⟩, ?_⟩
        simp [hcoin, hok]

theorem acceptTransfer_atomic (reader : PayloadReader P) (network : NetworkId)
    (request : TransferRequest) (envelope : TransferEnvelope) (status : CoinStatus P)
    (observed : ObservedFunding P) (minimumConfirmations minimumReactionBlocks : Nat)
    (s : WalletState P) :
    (acceptTransfer reader network request envelope status observed minimumConfirmations
      minimumReactionBlocks).Atomic s := by
  unfold acceptTransfer
  refine .get_bind (.of_bind fun _ _ => ?_)
  split
  · exact .of_bind fun _ _ => .pure
  · exact .of_bind fun _ _ => .set_pure

end WalletState

end Tinylayer
