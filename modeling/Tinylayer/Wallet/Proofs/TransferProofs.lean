import Tinylayer.Wallet.Proofs.FundingProofs
import Tinylayer.Wallet.Proofs.PayloadProofs

/-!
# Proofs: handing on a coin

What an honest sender completes, the receiver accepts: the checks of `begin_transfer` and
`complete_transfer`, with the journal in between, imply those of `accept_transfer`.
-/

namespace Tinylayer

variable {P : Platform}

open WalletState

/-! ## The request -/

/-- A wallet without a coin can ask for any coin with a possible funding output. -/
theorem beginTransferRequest_fresh (htext : P.TextCodec) {s : WalletState P}
    (hversion : s.validateVersion = .ok ()) (hcoin : s.coin = none) (hpending : s.pending = none)
    (hincoming : s.incoming = none) (draws : RequestDraws P) (network : NetworkId)
    (coinId : CoinId) {outpoint : OutPoint P.Txid} {expectedAmountSat minimumReactionBlocks : Nat}
    (houtpoint : P.isNull outpoint = false) (hamount : expectedAmountSat ≤ maxMoney)
    (hmargin : delayStep ≤ minimumReactionBlocks) :
    beginTransferRequest draws network coinId outpoint expectedAmountSat minimumReactionBlocks s =
      .ok (incomingTransfer draws network coinId outpoint expectedAmountSat
        minimumReactionBlocks).request
      { s with incoming := some (incomingTransfer draws network coinId outpoint expectedAmountSat
        minimumReactionBlocks) } := by
  have hvalid := TransferRequest.validate_new htext draws.requestId coinId network outpoint
    expectedAmountSat (secretXonly draws.withdrawal) (capabilityHash draws.capability)
    (P.publicKeyOf draws.transport) minimumReactionBlocks houtpoint hamount
  simp only [beginTransferRequest, EStateM.bind_eq_ok, EStateM.get_eq_ok, EStateM.of_eq_ok,
    Except.bind_eq_ok, Except.ensure_eq_ok, exists_unit]
  refine ⟨s, s, ⟨rfl, rfl⟩, s, ⟨⟨hversion, by rw [hcoin]; rfl, by rw [hpending]; rfl, houtpoint,
    hmargin⟩, rfl⟩, ?_⟩
  rw [hincoming]
  simp only [EStateM.bind_eq_ok, EStateM.of_eq_ok, EStateM.set_eq_ok, EStateM.pure_eq_ok]
  exact ⟨(), s, ⟨hvalid, rfl⟩, (), _, rfl, rfl, rfl⟩

/-! ## The history that is handed on -/

/-- The next recovery continues the history that the sender verified, for any observation of the
funding output that leaves the next recovery in the future. -/
theorem VerifiedHistory.concat {metadata : CoinMetadata P} {history : List (SignedRecovery P)}
    (hladder : Ladder history)
    (hrecoveries : ∀ recovery ∈ history, VerifiedRecovery metadata recovery)
    {recovery : SignedRecovery P} (hrecovery : VerifiedRecovery metadata recovery)
    (hdelay : nextDelay history = .ok recovery.delayBlocks) {confirmations : Nat}
    (hfuture : confirmations < recovery.delayBlocks) :
    VerifiedHistory metadata confirmations (history ++ [recovery]) := by
  obtain ⟨latest, hlatest, hstep⟩ := nextDelay_eq_ok.1 hdelay
  have hladder' : Ladder (history ++ [recovery]) := by
    refine hladder.concat fun l hl => ?_
    obtain rfl := Option.some.inj (hlatest.symm.trans hl)
    exact hstep
  refine ⟨fun r hr => ?_, hladder', hladder'.immature List.getLast?_concat hfuture⟩
  rcases List.mem_append.1 hr with hr | hr
  · exact hrecoveries r hr
  · rw [List.mem_singleton.1 hr]
    exact hrecovery

/-- A later observation of the funding output that satisfies the receiver's own rules. -/
structure SameFunding (observed later : ObservedFunding P) (minimumConfirmations : Nat) : Prop where
  outpoint : later.outpoint = observed.outpoint
  output : later.output = observed.output
  unspent : later.unspent = true
  confirmed : minimumConfirmations ≤ later.confirmations
  mature : later.coinbase = false ∨ 100 ≤ later.confirmations

theorem SameFunding.verify {metadata : CoinMetadata P} {observed later : ObservedFunding P}
    {minimumConfirmations minimumConfirmations' : Nat}
    (h : SameFunding observed later minimumConfirmations')
    (hok : verifyObservedFunding metadata observed minimumConfirmations = .ok ()) :
    verifyObservedFunding metadata later minimumConfirmations' = .ok () := by
  simp only [verifyObservedFunding, verifyObservedFundingOutput, Except.bind_eq_ok,
    Except.ensure_eq_ok, exists_unit, Client.lift_eq_ok] at hok ⊢
  rw [h.outpoint, h.output]
  exact ⟨⟨hok.1.1, hok.1.2.1, h.confirmed, h.mature⟩, h.unspent⟩

/-! ## Sender and receiver -/

/-- The coin that the receiver of a completed transfer gets. -/
def receivedCoin (coin : WalletCoin P) (metadata : CoinMetadata P) (requestId : Bytes32)
    (recovery : SignedRecovery P) (response : SignResponse P) (incoming : IncomingTransfer)
    (envelope : TransferEnvelope) : WalletCoin P :=
  acceptedCoin (transferPayload coin metadata requestId response.nextHandoff
    (coin.history ++ [recovery])) incoming.capability incoming.withdrawalSecret incoming.request
    envelope

section Complete

variable (htext : P.TextCodec) (hsecret : P.SecretCodec) (hecdh : P.EcdhSymmetric)
  (haead : P.AeadCorrect) {reader : PayloadReader P} (hreader : reader.RoundTrip)
include htext hsecret hecdh haead hreader

omit htext hsecret hecdh haead hreader in
/-- A journaled transfer is completed with any answer that the enclave's status confirms. -/
theorem WalletInv.completeTransfer_of_answer (hschnorr : P.SchnorrCorrect)
    (hcodec : P.SignatureCodec) (htaproot : P.TaprootLaws) (htotal : P.CipherTotal)
    {s : WalletState P} (h : WalletInv s) {request : TransferRequest} {attempt : RecoveryAttempt P}
    {response : SignResponse P}
    (hpending : s.pending = some (.recovery ⟨.transfer request, .responded attempt response⟩))
    {coin : WalletCoin P} (hcoin : s.coin = some coin) {status : CoinStatus P}
    (hstatus : verifyStatus coin.keys status = .ok ())
    (hresponse : verifySignResponse attempt.request attempt.expectedSignatureCount status response =
      .ok ()) (draws : EnvelopeDraws P) :
    ∃ envelope s', WalletState.completeTransfer draws status s = .ok envelope s' := by
  have hinv := h.coin coin hcoin
  obtain ⟨coin', hcoin', metadata, hattempt, hfits, _, _, _, hsize⟩ := h.recovery _ hpending
  cases hcoin.symm.trans hcoin'
  have hverify := (verifySignResponse_eq_ok.1 hresponse).2.2
  rw [(verifyStatus_eq_ok.1 hstatus).2.2] at hverify
  have hcomplete := hattempt.completeRecovery hschnorr hcodec htaproot hinv hverify
  obtain ⟨owned, secret, howned, _⟩ := hinv.owned hfits.history_ne
  obtain ⟨index, hindex, _, hretained⟩ := WalletCoin.owned_eq_some.1 howned
  obtain ⟨_, _, id, hid, _⟩ := TransferRequest.validate_eq_ok.1 hfits.validate
  have hle := length_transferPayload_le hcodec coin metadata id response.nextHandoff
    attempt.prepared.withdrawalXonlyPubkey attempt.delayBlocks response.signature coin.clientSecret
    attempt.request.sighash
  have hsize' := Except.ensure_eq_ok.1 hsize
  obtain ⟨envelope, hsealed⟩ := encryptTransfer_isOk htotal draws
    (transferPayload coin metadata id response.nextHandoff (coin.history ++ [_])) hfits.validate
    (by simp [TransferPayload.validate, transferPayload]) hid
    (Except.ensure_eq_ok.2 (Nat.le_trans (Nat.add_le_add_right hle 16) hsize'))
  exact ⟨envelope, _, completeTransfer_ok.2 ⟨request, attempt, response, coin, metadata, _, index,
    owned, id, hpending, hcoin, hattempt.metadata_eq, hfits.validate,
    ⟨hfits.coinId, hfits.request_network, hfits.outpoint, hfits.amount⟩, hstatus, hresponse,
    hcomplete, rfl, hindex, hretained, hid, hsealed, rfl⟩⟩

omit htext hsecret hecdh haead hreader in
/-- The same from the request that was not answered yet. -/
theorem WalletInv.completeTransfer_of_prepared (hschnorr : P.SchnorrCorrect)
    (hcodec : P.SignatureCodec) (htaproot : P.TaprootLaws) (htotal : P.CipherTotal)
    {s : WalletState P} (h : WalletInv s) {request : TransferRequest} {attempt : RecoveryAttempt P}
    (hpending : s.pending = some (.recovery ⟨.transfer request, .prepared attempt⟩))
    {coin : WalletCoin P} (hcoin : s.coin = some coin) {status : CoinStatus P}
    {response : SignResponse P} (hstatus : verifyStatus coin.keys status = .ok ())
    (hresponse : verifySignResponse attempt.request attempt.expectedSignatureCount status response =
      .ok ()) (draws : EnvelopeDraws P) :
    ∃ s₂ envelope s₃, WalletState.recordSignResponse response s = .ok () s₂ ∧
      WalletState.completeTransfer draws status s₂ = .ok envelope s₃ := by
  obtain ⟨s₂, hs₂⟩ : ∃ s₂ : WalletState P, s₂ = { s with
      pending := some (.recovery ⟨.transfer request, .responded attempt response⟩) } := ⟨_, rfl⟩
  have hrecord : WalletState.recordSignResponse response s = .ok () s₂ :=
    recordSignResponse_ok.2 ⟨_, _, Or.inl ⟨hpending, hs₂⟩⟩
  have hcoin₂ : s₂.coin = some coin := by
    rw [hs₂]
    exact hcoin
  obtain ⟨envelope, s₃, hcomplete⟩ := (h.recordSignResponse hrecord).1.completeTransfer_of_answer
    hschnorr hcodec htaproot htotal (by rw [hs₂]) hcoin₂ hstatus hresponse draws
  exact ⟨s₂, envelope, s₃, hrecord, hcomplete⟩

/-- An envelope that `complete_transfer` returned makes the receiver's `accept_transfer` succeed,
with the status that the sender checked and any observation that satisfies the receiver's rules. -/
theorem WalletInv.acceptTransfer_of_complete {s s' r : WalletState P} (hs : WalletInv s)
    (hr : WalletInv r) {incoming : IncomingTransfer} (hincoming : r.incoming = some incoming)
    {attempt : RecoveryAttempt P} {response : SignResponse P}
    (hpending : s.pending =
      some (.recovery ⟨.transfer incoming.request, .responded attempt response⟩))
    {draws : EnvelopeDraws P} {status : CoinStatus P} {envelope : TransferEnvelope}
    (hcomplete : WalletState.completeTransfer draws status s = .ok envelope s')
    {coin : WalletCoin P} {metadata : CoinMetadata P} (hcoin : s.coin = some coin)
    (hmetadata : coin.metadata = some metadata) {later : ObservedFunding P}
    {minimumConfirmations minimumReactionBlocks : Nat}
    (hfunding : verifyObservedFunding metadata later minimumConfirmations = .ok ())
    (hmargin : later.confirmations + max minimumReactionBlocks incoming.request.minReactionBlocks <
      attempt.delayBlocks) :
    ∃ requestId recovery,
      completeRecovery attempt.request response attempt.prepared coin.clientSecret = .ok recovery ∧
      VerifiedRecovery metadata recovery ∧ nextDelay coin.history = .ok recovery.delayBlocks ∧
      (receivedCoin coin metadata requestId recovery response incoming envelope).verifyLiveStatus
        status = .ok () ∧
      WalletState.acceptTransfer reader metadata.network incoming.request envelope status later
        minimumConfirmations minimumReactionBlocks r = .ok true { r with
          coin := some (receivedCoin coin metadata requestId recovery response incoming envelope)
          incoming := none } := by
  have hinv := hs.coin coin hcoin
  have hkeys := hinv.metadata_keys metadata hmetadata
  have hvalidKeys : metadata.keys.Valid := hkeys ▸ hinv.keys
  obtain ⟨hnocoin, hidle, hinc⟩ := hr.incoming incoming hincoming
  obtain ⟨transport, withdrawal, hread⟩ := hinc.readable htext hsecret
  obtain ⟨request, attempt', response', coin₁, metadata₁, recovery, _, _, requestId, hp, hc, hm,
    hvalid, ⟨hid, hnetwork, hout, hamount⟩, hstatus, hresponse, hrecovery, hdelay, _, _, _, hsealed,
    _⟩ := completeTransfer_ok.1 hcomplete
  cases hpending.symm.trans hp
  cases hcoin.symm.trans hc
  cases hmetadata.symm.trans hm
  obtain ⟨coin₂, hc₂, metadata₂, hattempt, hfits, hhash, hwithdrawal, hnext, _⟩ :=
    hs.recovery _ hpending
  cases hcoin.symm.trans hc₂
  cases hmetadata.symm.trans hattempt.metadata_eq
  change nextDelay coin.history = .ok attempt.delayBlocks at hnext
  -- what the sender completed
  obtain ⟨hver, hpays, _⟩ := VerifiedRecovery.of_complete hrecovery
  have hprepared : attempt.prepared.metadata = metadata := congrArg (·.metadata) hattempt.prepared
  rw [hprepared] at hver
  rw [← hdelay] at hnext hmargin
  have hlatest : recovery.withdrawalXonlyPubkey = secretXonly withdrawal :=
    hpays.trans (Except.ok.inj (hwithdrawal.symm.trans hread.withdrawalKey))
  have hcapability : attempt.request.nextCapabilityHash = capabilityHash incoming.capability :=
    Except.ok.inj (hhash.symm.trans hread.capability)
  obtain ⟨_, ⟨_, hcount, hauth⟩, _⟩ := verifySignResponse_eq_ok.1 hresponse
  obtain ⟨_, hstatusId, hstatusKey⟩ := verifyStatus_eq_ok.1 hstatus
  have hcount' : status.signatureCount = (coin.history ++ [recovery]).length := by
    rw [hcount, show attempt.expectedSignatureCount = coin.history.length from hattempt.count]
    simp
  have hauth' : status.authorization = authorization metadata.keys.coinId
      (capabilityHash incoming.capability) response.nextHandoff := by
    rw [hauth, hcapability, show attempt.request.coinId = coin.keys.coinId from hattempt.coinId,
      hkeys]
  have hstatus' : verifyStatus metadata.keys status = .ok () := by rw [hkeys]; exact hstatus
  -- what the receiver checks
  have hfuture : later.confirmations < recovery.delayBlocks := by omega
  have hhistory := VerifiedHistory.concat hinv.ladder (hinv.recoveries metadata hmetadata) hver
    hnext hfuture
  have haccept : Acceptable (transferPayload coin metadata requestId response.nextHandoff
      (coin.history ++ [recovery])) metadata.network incoming.request incoming status later
      minimumConfirmations minimumReactionBlocks := by
    refine { network := ⟨rfl, hnetwork⟩, coinId := ?_, outpoint := hout, amount := hamount.symm,
             secret := ?_, capability := hread.capability, funding := hfunding,
             withdrawal := ⟨recovery, withdrawal, List.getLast?_concat, ?_,
               hread.withdrawalSecret, ?_, ?_⟩ }
    · rw [hid, transferPayload, hkeys]
    · exact hinv.secret.trans (congrArg (·.clientPubkey) hkeys.symm)
    · rw [hlatest, hread.withdrawalKey]
    · refine verifyHistory_eq_ok.2 ⟨verifyStatus_eq_ok.1 hstatus', ?_, ⟨hauth', hcount', ?_⟩,
        hhistory, by simp [transferPayload]⟩
      · exact hinv.secret.trans (congrArg (·.clientPubkey) hkeys.symm)
      · simp [transferPayload, hlatest]
    · have hdelay_lt := hver.terms.delay_lt
      refine requireReactionMargin_eq_ok.2 ⟨?_, hmargin⟩
      simp only [u32Max]
      omega
  have hopen : decryptTransfer reader incoming.request incoming.transportSecret envelope =
      .ok (transferPayload coin metadata requestId response.nextHandoff
        (coin.history ++ [recovery])) := by
    rw [hread.transportSecret]
    exact decryptTransfer_encryptTransfer htext hsecret hecdh haead hreader hread.transportKey
      hvalidKeys hsealed
  refine ⟨requestId, recovery, hrecovery, hver, hnext, ?_, ?_⟩
  · refine WalletCoin.verifyLiveStatus_eq_ok.2 ⟨verifyStatus_eq_ok.1 hstatus', hcount', ?_⟩
    rintro _ ⟨⟩ _ ⟨⟩
    exact hauth'
  · exact acceptTransfer_ok.2 ⟨hr.validateVersion, hvalid, Or.inr ⟨hnocoin, _,
      acceptCoin_eq_ok.2 ⟨hidle, incoming, _, hincoming, rfl, hopen, haccept, rfl⟩, rfl, rfl⟩⟩

end Complete

/-! ## The next transfer -/

/-- What a next transfer of an owned coin still depends on: the receiver's request, what is seen of
the funding output, and the next recovery. -/
structure NextTransfer (coin : WalletCoin P) (metadata : CoinMetadata P) (capability : Capability)
    (handoff : HandoffToken) (request : TransferRequest) (observed : ObservedFunding P)
    (minimumConfirmations minimumReactionBlocks : Nat) : Prop where
  fits : FitsCoin request metadata.network coin metadata
  funding : verifyObservedFunding metadata observed minimumConfirmations = .ok ()
  next : ∃ delayBlocks nextCapabilityHash withdrawalKey sighash template,
    nextDelay coin.history = .ok delayBlocks ∧
    observed.confirmations + max minimumReactionBlocks request.minReactionBlocks < delayBlocks ∧
    request.parseNextCapabilityHash P = .ok nextCapabilityHash ∧
    nextCapabilityHash ≠ capabilityHash capability ∧
    request.withdrawalKey P = .ok withdrawalKey ∧
    RecoveryTerms metadata.outpoint metadata.amountSat withdrawalKey delayBlocks ∧
    recoveryDigest metadata withdrawalKey delayBlocks = .ok sighash ∧
    (unsignedRecovery metadata
      (recoveryRequest metadata capability handoff nextCapabilityHash sighash) withdrawalKey
      delayBlocks).recoverySerializationTemplate = .ok template ∧
    validateTransferPayloadSize (transferPayload coin metadata Bytes32.max Bytes32.max
      (coin.history ++ [template])) = .ok ()

/-- An owned coin can be sent to every receiver for which there is a next recovery. -/
theorem WalletInv.canSend {s : WalletState P} (h : WalletInv s) {coin : WalletCoin P}
    {metadata : CoinMetadata P} {capability : Capability} {handoff : HandoffToken}
    (hcoin : s.coin = some coin) (hmetadata : coin.metadata = some metadata)
    (hcapability : coin.currentCapability = some capability)
    (hhandoff : coin.currentHandoff = some handoff) (hpending : s.pending = none)
    {status : CoinStatus P} (hlive : coin.verifyLiveStatus status = .ok ())
    {request : TransferRequest} {observed : ObservedFunding P}
    {minimumConfirmations minimumReactionBlocks : Nat}
    (hnext : NextTransfer coin metadata capability handoff request observed minimumConfirmations
      minimumReactionBlocks) :
    ∃ signRequest s', WalletState.beginTransfer metadata.network request status observed
      minimumConfirmations minimumReactionBlocks s = .ok signRequest s' := by
  have hinv := h.coin coin hcoin
  have hkeys := hinv.metadata_keys metadata hmetadata
  have hsecret : P.xOnlyPublicKey coin.clientSecret = metadata.keys.clientPubkey :=
    hinv.secret.trans (congrArg (·.clientPubkey) hkeys.symm)
  obtain ⟨hstatus, hcount, hauth⟩ := WalletCoin.verifyLiveStatus_eq_ok.1 hlive
  rw [← hkeys] at hstatus hauth
  have hauth' := hauth capability hcapability handoff hhandoff
  have hne := hnext.fits.history_ne
  have hout : coin.outgoing = none := by
    cases hout : coin.outgoing with
    | none => rfl
    | some outgoing =>
      have := hinv.capability.2 (by rw [hout]; rfl)
      rw [hcapability] at this
      cases this
  -- the latest recovery is the one that the wallet owns
  obtain ⟨latest, secret, howned, key, hkey, hpays⟩ := hinv.owned hne
  obtain ⟨index, hindex, hsecretEq, hlatest⟩ := WalletCoin.owned_eq_some.1 howned
  cases hindex.symm.trans (hinv.latest hout hne)
  rw [← List.getLast?_eq_getElem?] at hlatest
  obtain ⟨delay, nextHash, withdrawal, sighash, template, hdelay, hmargin, hhash, hchanged, hwith,
    hterms, hsighash, htemplate, hsize⟩ := hnext.next
  obtain ⟨latest', hlatest', hstep⟩ := nextDelay_eq_ok.1 hdelay
  cases hlatest.symm.trans hlatest'
  have hdelay_lt := hterms.delay_lt
  have hhistory : verifyHistory metadata status coin.clientSecret capability handoff
      (secretXonly key) observed.confirmations coin.history = .ok () := by
    refine verifyHistory_eq_ok.2 ⟨hstatus, hsecret, ⟨hauth', hcount, ?_⟩,
      ⟨hinv.recoveries metadata hmetadata, hinv.ladder, ?_⟩, hne⟩
    · rw [hlatest, Option.map_some, hpays]
    · exact hinv.ladder.immature hlatest (by omega)
  exact ⟨_, _, beginTransfer_ok.2 ⟨hpending, h.validateVersion, coin, metadata, capability, handoff,
    key, delay, nextHash, withdrawal, _, template, hcoin, hnext.fits,
    ⟨hout, hnext.funding, hcapability, hhandoff, ownedWithdrawalKey_eq_ok.2 ⟨secret, hsecretEq, hkey⟩,
      hhistory, hdelay, requireReactionMargin_eq_ok.2 ⟨by simp only [u32Max]; omega, hmargin⟩⟩,
    hhash, hwith, prepareRecovery_eq_ok.2 ⟨hstatus, hauth', hchanged, by omega, hsecret, hterms,
      sighash, hsighash, rfl, rfl⟩, htemplate, hsize, rfl⟩⟩

section Accepted

variable (htext : P.TextCodec) (hsecret : P.SecretCodec) (hecdh : P.EcdhSymmetric)
  (haead : P.AeadCorrect) {reader : PayloadReader P} (hreader : reader.RoundTrip)
include htext hsecret hecdh haead hreader

/-- What an honest sender completes, the receiver accepts. `live` is the status of the enclave after
its answer. The receiver is then the next honest sender: its state is reachable, so the same holds
of it, and `begin_transfer` does not fail for want of anything that the coin has to provide. -/
theorem transfer_accepted (senderOps receiverOps : List (Operation P))
    (incoming : IncomingTransfer) (hincoming : (empty.run receiverOps).incoming = some incoming)
    (network : NetworkId) (status : CoinStatus P) (observed : ObservedFunding P)
    (minimumConfirmations minimumReactionBlocks : Nat) (signRequest : SignRequest P)
    (s₁ s₂ s₃ : WalletState P)
    (hbegin : beginTransfer network incoming.request status observed minimumConfirmations
      minimumReactionBlocks (empty.run senderOps) = .ok signRequest s₁)
    (response : SignResponse P) (hrecord : recordSignResponse response s₁ = .ok () s₂)
    (draws : EnvelopeDraws P) (live : CoinStatus P) (envelope : TransferEnvelope)
    (hcomplete : completeTransfer draws live s₂ = .ok envelope s₃)
    (coin : WalletCoin P) (hcoin : (empty.run senderOps).coin = some coin)
    (delayBlocks : Nat) (hdelay : nextDelay coin.history = .ok delayBlocks)
    (later : ObservedFunding P) (receiverConfirmations receiverReactionBlocks : Nat)
    (hlater : SameFunding observed later receiverConfirmations)
    (hmargin : later.confirmations + max receiverReactionBlocks incoming.request.minReactionBlocks <
      delayBlocks) :
    ∃ r coin' metadata,
      WalletState.acceptTransfer reader network incoming.request envelope live later receiverConfirmations
        receiverReactionBlocks (empty.run receiverOps) = .ok true r ∧
      r = empty.run (receiverOps ++ [.acceptTransfer reader network incoming.request envelope live
        later receiverConfirmations receiverReactionBlocks]) ∧
      r.coin = some coin' ∧ coin'.verifyLiveStatus live = .ok () ∧
      coin'.history.length = coin.history.length + 1 ∧
      coin'.history.IsChain (fun older newer =>
        older.delayBlocks = newer.delayBlocks + delayStep) ∧
      coin'.metadata = some metadata ∧
      ∀ request observed' minimumConfirmations' minimumReactionBlocks',
        NextTransfer coin' metadata incoming.capability response.nextHandoff request observed'
          minimumConfirmations' minimumReactionBlocks' →
        ∃ signRequest' s', beginTransfer metadata.network request live observed'
          minimumConfirmations' minimumReactionBlocks' r = .ok signRequest' s' := by
  have hs := WalletInv.reachable hsecret senderOps
  have hr := WalletInv.reachable hsecret receiverOps
  have hs₁ := (hs.beginTransfer hbegin).1
  have hs₂ := (hs₁.recordSignResponse hrecord).1
  obtain ⟨_, _, coin₁, metadata, _, _, _, delay, _, _, prepared, _, hcoin₁, hfits, hsend, _, _,
    hprepare, _, _, hs₁eq⟩ := beginTransfer_ok.1 hbegin
  cases hcoin.symm.trans hcoin₁
  cases hdelay.symm.trans hsend.delay
  obtain ⟨_, attempt, ⟨hp, hs₂eq⟩ | ⟨hp, _⟩⟩ := recordSignResponse_ok.1 hrecord
  · rw [hs₁eq] at hp
    cases hp
    obtain ⟨requestId, recovery, _, _, hstep, hlive, haccept⟩ :=
      hs₂.acceptTransfer_of_complete htext hsecret hecdh haead hreader hr hincoming
        (by rw [hs₂eq]) hcomplete (by rw [hs₂eq, hs₁eq]; exact hcoin) hfits.metadata_eq
        (hlater.verify hsend.funding) hmargin
    rw [hfits.metadata_network] at haccept
    have hr' := (hr.acceptTransfer haccept).1
    have hladder := (hr'.coin _ rfl).ladder
    refine ⟨_, _, metadata, haccept, ?_, rfl, hlive, by simp [receivedCoin, acceptedCoin,
      transferPayload], hladder, rfl, ?_⟩
    · rw [run_concat, WalletState.after, Update.stateAfter, haccept]
    · intro request observed' _ _ hnext
      exact hr'.canSend rfl rfl rfl rfl (hr.incoming incoming hincoming).2.1 hlive hnext
  · rw [hs₁eq] at hp
    cases hp

end Accepted

section Second

open Symbolic

/-- Reads back what was written. -/
noncomputable def writtenReader : PayloadReader platform := ⟨Function.partialInv TransferPayload.toVec⟩

theorem writtenReader_roundTrip : writtenReader.RoundTrip := by
  have hhex : PlainText (fun sk : Bytes32 => Hex.encode sk.toList) :=
    ⟨Hex.encode_injective.comp List.Vector.toList_injective, fun _ => plainText_hex.no_quote _⟩
  have houtpoint : PlainText outPointText :=
    ⟨fun a b h => Option.some.inj (by rw [← outPointOfText_text, h, outPointOfText_text]),
      fun _ => plainText_hex.no_quote _⟩
  exact fun payload _ => Function.partialInv_left
    (TransferPayload.toVec_injective houtpoint plainText_hex hhex) payload

def broadcasting : List (Operation platform) := funding ++ [.markFundingBroadcast (18 : Nat)]

def requestDraws : RequestDraws platform := ⟨bytes 20, bytes 21, bytes 22, bytes 23⟩

/-- The receiver asks for the coin. -/
def receiving : List (Operation platform) :=
  [.beginTransferRequest requestDraws .regtest (bytes 1) fundedMetadata.outpoint 1000 10]

def received : IncomingTransfer :=
  incomingTransfer requestDraws .regtest (bytes 1) fundedMetadata.outpoint 1000 10

/-- The funding output with `confirmations` confirmations. -/
def seen (confirmations : Nat) : ObservedFunding platform :=
  ⟨fundedMetadata.outpoint, ⟨1000, fundingScript fundedMetadata.keys⟩, confirmations, true, false⟩

theorem incoming_receiving : (empty.run receiving).incoming = some received := by
  have houtpoint : platform.isNull fundedMetadata.outpoint = false := by decide
  have hamount : 1000 ≤ maxMoney := by decide
  have hmargin : delayStep ≤ 10 := by decide
  have hok := beginTransferRequest_fresh textCodec (s := empty) (by decide) rfl rfl rfl requestDraws
    .regtest (bytes 1) houtpoint hamount hmargin
  show ((beginTransferRequest requestDraws .regtest (bytes 1) fundedMetadata.outpoint 1000
    10).stateAfter empty).incoming = _
  rw [Update.stateAfter, hok]
  rfl

/-- The recovery of the funded wallet. -/
def firstRecovery : SignedRecovery platform :=
  signedRecovery fundedMetadata (bytes 5).toList 100 fundingResponse.signature (bytes 2)
    fundingRequest.sighash

/-- What `begin_transfer` finds in the funded wallet. -/
theorem coin_broadcasting : (empty.run broadcasting).pending = none ∧
    ∃ coin ∈ (empty.run broadcasting).coin,
      coin.metadata = some fundedMetadata ∧ coin.currentCapability = some (bytes 4) ∧
      coin.currentHandoff = some (bytes 11) ∧ coin.keys = fundedMetadata.keys ∧
      (∀ funding ∈ coin.funding, funding.stage = .broadcast) ∧
      coin.history = [firstRecovery] ∧ nextDelay coin.history = .ok 90 ∧
      coin.verifyLiveStatus (liveStatus (bytes 4) (bytes 11) 1) = .ok () ∧
      validateTransferPayloadSize (transferPayload coin fundedMetadata Bytes32.max Bytes32.max
        (coin.history ++ [templateRecovery fundedMetadata (bytes 21).toList 90])) = .ok () := by
  decide +kernel

/-- The sender's request for the next recovery. -/
def transferRequest : SignRequest platform :=
  recoveryRequest fundedMetadata (bytes 4) (bytes 11) (capabilityHash (bytes 20))
    ((recoveryDigest fundedMetadata (bytes 21).toList 90).toOption.getD [])

/-- The enclave's answer to it. -/
def transferResponse : SignResponse platform where
  signature := platform.signSchnorr (bytes 9) transferRequest.sighash
  nextHandoff := bytes 12

/-- The recovery that the sender completes. -/
def secondRecovery : SignedRecovery platform :=
  signedRecovery fundedMetadata (bytes 21).toList 90 transferResponse.signature (bytes 2)
    transferRequest.sighash

/-- What the sender of the funded coin has in its journal after its request. -/
structure Begun (coin : WalletCoin platform) (s₁ : WalletState platform) : Prop where
  coin_eq : (empty.run broadcasting).coin = some coin
  metadata : coin.metadata = some fundedMetadata
  keys : coin.keys = fundedMetadata.keys
  clientSecret : coin.clientSecret = bytes 2
  history : coin.history = [firstRecovery]
  delay : nextDelay coin.history = .ok 90
  begun : beginTransfer .regtest received.request (liveStatus (bytes 4) (bytes 11) 1) (seen 3) 1 10
    (empty.run broadcasting) = .ok transferRequest s₁
  kept : s₁.coin = some coin
  pending : s₁.pending = some (preparedRecovery (.transfer received.request) 1 90 transferRequest
    (unsignedRecovery fundedMetadata transferRequest (bytes 21).toList 90))

/-- The sender can ask for the signature of the next recovery. -/
theorem beginTransfer_broadcasting : ∃ coin s₁, Begun coin s₁ := by
  have hs := WalletInv.reachable secretCodec broadcasting
  obtain ⟨hpending, coin, hcoin, hmetadata, hcapability, hhandoff, hkeys, hbroadcast, hhistory,
    hdelay, hlive, hsize⟩ := coin_broadcasting
  have hclient : coin.clientSecret = bytes 2 := List.Vector.toList_injective
    ((hs.coin coin hcoin).secret.trans (congrArg (·.clientPubkey) hkeys))
  have hparsed := TransferRequest.parsed_new textCodec requestDraws.requestId (bytes 1) .regtest
    fundedMetadata.outpoint 1000 (secretXonly (P := platform) requestDraws.withdrawal)
    (capabilityHash requestDraws.capability) (platform.publicKeyOf requestDraws.transport) 10
  have hvalid := TransferRequest.validate_new textCodec requestDraws.requestId (bytes 1) .regtest
    fundedMetadata.outpoint 1000 (secretXonly (P := platform) requestDraws.withdrawal)
    (capabilityHash requestDraws.capability) (platform.publicKeyOf requestDraws.transport) 10
    (by decide) (by decide)
  have hnext : NextTransfer coin fundedMetadata (bytes 4) (bytes 11) received.request (seen 3) 1 10 := by
    refine ⟨⟨hvalid, hmetadata, ?_, hbroadcast, hparsed.coinId.trans (by rw [hkeys]; rfl), rfl, rfl,
      hparsed.outpoint, rfl⟩, by decide +kernel, 90, _, _, _, _, hdelay, by decide,
      hparsed.nextCapabilityHash, by decide +kernel, hparsed.withdrawalKey,
      ⟨by decide, by decide, by decide, by decide, by decide⟩, rfl, rfl, hsize⟩
    rw [hhistory]
    exact List.cons_ne_nil _ _
  obtain ⟨signRequest, s₁, hbegin⟩ := hs.canSend hcoin hmetadata hcapability hhandoff hpending hlive
    hnext
  obtain ⟨_, _, coin₁, metadata, capability, handoff, _, delay, hash, key, prepared, _, hcoin₁, hfits,
    hsend, hhash, hkey, hprepare, _, _, hs₁⟩ := beginTransfer_ok.1 hbegin
  cases hcoin.symm.trans hcoin₁
  cases hmetadata.symm.trans hfits.metadata_eq
  cases hdelay.symm.trans hsend.delay
  cases hcapability.symm.trans hsend.capability_eq
  cases hhandoff.symm.trans hsend.handoff_eq
  cases hparsed.nextCapabilityHash.symm.trans hhash
  cases hparsed.withdrawalKey.symm.trans hkey
  obtain ⟨_, _, _, _, _, _, sighash, hsighash, hrequest, rfl⟩ := prepareRecovery_eq_ok.1 hprepare
  have hsign : signRequest = transferRequest := by
    rw [hrequest, transferRequest, show recoveryDigest fundedMetadata (bytes 21).toList 90 =
      .ok sighash from hsighash]
    rfl
  rw [hsign] at hbegin hs₁
  have hkept : s₁.coin = some coin := by
    rw [hs₁]
    exact hcoin
  exact ⟨coin, s₁, hcoin, hmetadata, hkeys, hclient, hhistory, hdelay, hbegin, hkept,
    congrArg WalletState.pending hs₁⟩

/-- The enclave answers, and the sender completes the transfer. -/
theorem completeTransfer_broadcasting : ∃ coin s₁ s₂ envelope s₃, Begun coin s₁ ∧
    recordSignResponse transferResponse s₁ = .ok () s₂ ∧
    completeTransfer ⟨bytes 24, List.Vector.replicate 24 0⟩ (liveStatus (bytes 20) (bytes 12) 2)
      s₂ = .ok envelope s₃ := by
  have hs := WalletInv.reachable secretCodec broadcasting
  obtain ⟨coin, s₁, hbegun⟩ := beginTransfer_broadcasting
  have hstatus : verifyStatus coin.keys (liveStatus (bytes 20) (bytes 12) 2) = .ok () :=
    verifyStatus_eq_ok.2 ⟨(hs.coin coin hbegun.coin_eq).keys, by rw [hbegun.keys]; rfl,
      by rw [hbegun.keys]; rfl⟩
  have hresponse : verifySignResponse transferRequest 1 (liveStatus (bytes 20) (bytes 12) 2)
      transferResponse = .ok () :=
    verifySignResponse_eq_ok.2 ⟨by decide, ⟨rfl, rfl, rfl⟩,
      schnorrCorrect (bytes 9) transferRequest.sighash⟩
  obtain ⟨s₂, envelope, s₃, hrecord, hcomplete⟩ :=
    (hs.beginTransfer hbegun.begun).1.completeTransfer_of_prepared schnorrCorrect signatureCodec
      taprootLaws cipherTotal hbegun.pending hbegun.kept hstatus hresponse
      ⟨bytes 24, List.Vector.replicate 24 0⟩
  exact ⟨coin, s₁, s₂, envelope, s₃, hbegun, hrecord, hcomplete⟩

/-- The receiver accepts what the sender has completed. -/
theorem acceptTransfer_broadcasting {coin : WalletCoin platform} {s₁ s₂ s₃ : WalletState platform}
    {envelope : TransferEnvelope} (hbegun : Begun coin s₁)
    (hrecord : recordSignResponse transferResponse s₁ = .ok () s₂)
    (hcomplete : completeTransfer ⟨bytes 24, List.Vector.replicate 24 0⟩
      (liveStatus (bytes 20) (bytes 12) 2) s₂ = .ok envelope s₃) {minimumReactionBlocks : Nat}
    (hmargin : 5 + max minimumReactionBlocks 10 < 90) :
    ∃ requestId, WalletState.acceptTransfer writtenReader .regtest received.request envelope
      (liveStatus (bytes 20) (bytes 12) 2) (seen 5) 1 minimumReactionBlocks (empty.run receiving) =
        .ok true { empty.run receiving with
          coin := some (receivedCoin coin fundedMetadata requestId secondRecovery transferResponse
            received envelope)
          incoming := none } := by
  have hs := WalletInv.reachable secretCodec broadcasting
  have hr := WalletInv.reachable secretCodec receiving
  have hfunding : verifyObservedFunding fundedMetadata (seen 5) 1 = .ok () := by decide +kernel
  have hs₂ := ((hs.beginTransfer hbegun.begun).1.recordSignResponse hrecord).1
  obtain ⟨_, attempt, ⟨hp, hs₂eq⟩ | ⟨hp, _⟩⟩ := recordSignResponse_ok.1 hrecord
  · cases hbegun.pending.symm.trans hp
    obtain ⟨requestId, recovery, hrecovery, _, _, _, haccept⟩ :=
      hs₂.acceptTransfer_of_complete textCodec secretCodec ecdhSymmetric aeadCorrect
        writtenReader_roundTrip hr incoming_receiving (by rw [hs₂eq]) hcomplete
        (by rw [hs₂eq]; exact hbegun.kept) hbegun.metadata hfunding hmargin
    obtain ⟨_, _, _, _, _, _, hsigned, _⟩ := completeRecovery_eq_ok.1 hrecovery
    rw [hbegun.clientSecret] at hsigned
    obtain rfl : recovery = secondRecovery := hsigned
    exact ⟨requestId, haccept⟩
  · cases hbegun.pending.symm.trans hp

theorem transfer_accepted_second : ∃ envelope live r coin',
    WalletState.acceptTransfer writtenReader .regtest received.request envelope live (seen 5) 1 10
      (empty.run receiving) = .ok true r ∧
    r.coin = some coin' ∧ coin'.history.length = 2 := by
  obtain ⟨coin, s₁, s₂, envelope, s₃, hbegun, hrecord, hcomplete⟩ := completeTransfer_broadcasting
  obtain ⟨r, coin', _, haccept, _, hr', _, hlength', _⟩ :=
    transfer_accepted textCodec secretCodec ecdhSymmetric aeadCorrect writtenReader_roundTrip
      broadcasting receiving received incoming_receiving .regtest _ (seen 3) 1 10 _ s₁ s₂ s₃
      hbegun.begun _ hrecord _ _ envelope hcomplete coin hbegun.coin_eq 90 hbegun.delay (seen 5) 1 10
      ⟨rfl, rfl, rfl, by decide, Or.inl rfl⟩ (by decide)
  rw [hbegun.history] at hlength'
  exact ⟨envelope, _, r, coin', haccept, hr', hlength'⟩

end Second

end Tinylayer
