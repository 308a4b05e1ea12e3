import Tinylayer.Native.Artifact
import Tinylayer.Wallet.Proofs.TransferProofs

/-!
# Proofs: what was begun can be handed on

The size check that `begin_transfer` makes before the enclave is asked is about a projected payload.
The payload that is sealed after the enclave has answered is no longer, and every limit that the
envelope still has to pass is above the one that was checked.
-/

namespace Tinylayer

open WalletState

variable {P : Platform}

/-- An artifact that is written with a newline within the limit is read back. -/
theorem readLimited_writeJsonDestination {json : List UInt8} (h : json.length < maxFileSize) :
    writeJsonDestination json = .ok (json ++ [10]) ∧
      readLimited (json ++ [10]) = .ok (json ++ [10]) := by
  have hlength : (json ++ [10]).length ≤ maxFileSize := by
    rw [List.length_append, List.length_singleton]
    omega
  have htake : (json ++ [10]).take (maxFileSize + 1) = json ++ [10] :=
    List.take_of_length_le (by omega)
  constructor
  · simp only [writeJsonDestination, Except.bind_eq_ok, Except.ensure_eq_ok, Except.pure_eq_ok]
    exact ⟨(), hlength, trivial⟩
  · simp only [readLimited, htake, Except.bind_eq_ok, Except.ensure_eq_ok, Except.pure_eq_ok]
    exact ⟨(), hlength, trivial⟩

/-- The written size of an envelope: its texts, and what stands around them. -/
theorem TransferEnvelope.length_toVecPretty (envelope : TransferEnvelope) :
    envelope.toVecPretty.length = (Json.number envelope.formatVersion).length +
      envelope.requestId.utf8ByteSize + envelope.ephemeralPublicKey.utf8ByteSize +
      envelope.nonce.utf8ByteSize + envelope.ciphertext.utf8ByteSize + 109 := by
  have hversion : (Json.text "format_version").length = 16 := by decide
  have hrequest : (Json.text "request_id").length = 12 := by decide
  have hkey : (Json.text "ephemeral_public_key").length = 22 := by decide
  have hnonce : (Json.text "nonce").length = 7 := by decide
  have hciphertext : (Json.text "ciphertext").length = 12 := by decide
  simp only [toVecPretty, Json.prettyObject, Json.prettyField, List.flatMap_cons, List.flatMap_nil,
    List.length_cons, List.length_append, List.length_nil, Json.length_text] at *
  omega

/-- Every later limit has room for the envelope. -/
structure EnvelopeFits (envelope : TransferEnvelope) : Prop where
  written : writeJsonDestination envelope.toVecPretty = .ok (envelope.toVecPretty ++ [10])
  read : readLimited (envelope.toVecPretty ++ [10]) = .ok (envelope.toVecPretty ++ [10])
  opened : envelope.ciphertext.utf8ByteSize ≤ maxTransferCiphertextSize * 2

/-- A sealed envelope is within every limit, as its plaintext was. -/
theorem EnvelopeFits.of_encryptTransfer (hwidth : P.PublicKeyWidth) (haead : P.AeadCorrect)
    {draws : EnvelopeDraws P} {request : TransferRequest} {payload : TransferPayload P}
    {envelope : TransferEnvelope} (h : encryptTransfer draws request payload = .ok envelope) :
    EnvelopeFits envelope := by
  simp only [encryptTransfer, Except.bind_eq_ok, exists_unit, Except.ensure_eq_ok,
    Except.context_eq_ok, Except.pure_eq_ok, validateTransferPlaintextSize] at h
  obtain ⟨hrequest, _, _, _, _, _, _, _, _, hsize, _, _, ciphertext, hsealed, rfl⟩ := h
  obtain ⟨_, _, id, _, _, _, ⟨hid, _⟩, _⟩ := TransferRequest.validate_eq_ok.1 hrequest
  have hciphertext := haead.length_encrypt _ _ _ _ _ hsealed
  have hopened : (Hex.encode ciphertext).utf8ByteSize ≤ maxTransferCiphertextSize * 2 := by
    rw [Hex.utf8ByteSize_encode]
    omega
  have hversion : (Json.number fileFormatVersion).length = 1 := by decide
  have hrequestId : request.requestId.utf8ByteSize = 64 := by
    rw [hid, Hex.utf8ByteSize_encode, List.Vector.toList_length]
  have hnonce : (Hex.encode draws.nonce.toList).utf8ByteSize = 48 := by
    rw [Hex.utf8ByteSize_encode, List.Vector.toList_length]
  have hkey := hwidth draws.ephemeral
  have hlength : (TransferEnvelope.toVecPretty ⟨fileFormatVersion, request.requestId,
      P.publicKeyToString (P.publicKeyOf draws.ephemeral), Hex.encode draws.nonce.toList,
      Hex.encode ciphertext⟩).length < maxFileSize := by
    rw [TransferEnvelope.length_toVecPretty]
    simp only [maxTransferCiphertextSize, maxFileSize] at *
    omega
  obtain ⟨hwritten, hread⟩ := readLimited_writeJsonDestination hlength
  exact ⟨hwritten, hread, hopened⟩

/-- The payload that `complete_transfer` has sealed, once the attempt has its response. -/
def Seals (coin : WalletCoin P) (metadata : CoinMetadata P) (request : TransferRequest)
    (attempt : RecoveryAttempt P) (response : SignResponse P) (payload : TransferPayload P) : Prop :=
  ∃ recovery requestId, completeRecovery attempt.request response attempt.prepared
      coin.clientSecret = .ok recovery ∧ request.id = .ok requestId ∧
    payload = transferPayload coin metadata requestId response.nextHandoff
      (coin.history ++ [recovery])

theorem Seals.validate {coin : WalletCoin P} {metadata : CoinMetadata P} {request : TransferRequest}
    {attempt : RecoveryAttempt P} {response : SignResponse P} {payload : TransferPayload P}
    (h : Seals coin metadata request attempt response payload) : payload.validate = .ok () := by
  obtain ⟨recovery, requestId, _, _, rfl⟩ := h
  simp [TransferPayload.validate, transferPayload]

/-- The sealed payload is no longer than the one that was projected for the attempt. -/
theorem Seals.length_le (hcodec : P.SignatureCodec) {coin : WalletCoin P}
    {metadata : CoinMetadata P} {request : TransferRequest} {attempt : RecoveryAttempt P}
    {response : SignResponse P} {payload : TransferPayload P}
    (hmetadata : attempt.prepared.metadata = metadata)
    (h : Seals coin metadata request attempt response payload) :
    payload.toVec.length ≤ (transferPayload coin metadata Bytes32.max Bytes32.max
      (coin.history ++ [templateRecovery metadata attempt.prepared.withdrawalXonlyPubkey
        attempt.prepared.delayBlocks])).toVec.length := by
  obtain ⟨recovery, requestId, hcomplete, _, rfl⟩ := h
  obtain ⟨_, _, _, _, _, _, rfl, _⟩ := completeRecovery_eq_ok.1 hcomplete
  rw [hmetadata]
  exact length_transferPayload_le hcodec coin metadata requestId response.nextHandoff _ _
    response.signature coin.clientSecret attempt.request.sighash

/-- No check of the client fails with the size error. -/
theorem Client.lift_ne_tooLarge {α : Type} (x : Except Client.Error α) :
    Client.lift x ≠ .error "transfer package exceeds 8 MiB ciphertext limit" := by
  cases x with
  | ok a => exact Except.ne_error_of_ok rfl
  | error e => cases e <;> exact fun h => absurd (Except.error.inj h) (by decide)

/-- If sealing its payload does not fail with the size error, then neither does a transfer. -/
theorem completeTransfer_ne_tooLarge {s : WalletState P} {request : TransferRequest}
    {attempt : RecoveryAttempt P} {response : SignResponse P} {coin : WalletCoin P}
    {metadata : CoinMetadata P} (draws : EnvelopeDraws P) (live : CoinStatus P)
    (hpending : s.pending = some (.recovery ⟨.transfer request, .responded attempt response⟩))
    (hcoin : s.coin = some coin) (hmetadata : coin.metadata = some metadata)
    (hvalid : request.validate P = .ok ())
    (hsealed : ∀ payload, Seals coin metadata request attempt response payload →
      encryptTransfer draws request payload ≠
        .error "transfer package exceeds 8 MiB ciphertext limit") (s' : WalletState P) :
    completeTransfer draws live s ≠
      .error "transfer package exceeds 8 MiB ciphertext limit" s' := by
  obtain ⟨_, _, id, hid, coinId, hcoinId, _, outpoint, houtpoint, _⟩ :=
    TransferRequest.validate_eq_ok.1 hvalid
  unfold completeTransfer
  simp only [ne_eq, EStateM.bind_eq_error, EStateM.get_ne_error, EStateM.get_eq_ok,
    EStateM.of_eq_error, EStateM.set_ne_error, EStateM.pure_ne_error, and_false, exists_false,
    or_false, false_or]
  rintro ⟨_, _, ⟨rfl, rfl⟩, hfailed, _⟩
  refine absurd hfailed ?_
  rw [hpending, hcoin]
  refine Except.bind_ne_error (Except.ne_error_of_ok hvalid) fun _ _ => ?_
  refine Except.bind_ne_error (Except.context_ne_error (by decide)) fun _ hsame => ?_
  obtain rfl := Option.some.inj (Except.context_eq_ok.1 hsame)
  refine Except.bind_ne_error (Except.context_ne_error (by decide)) fun _ hsame => ?_
  obtain rfl := Option.some.inj (hmetadata.symm.trans (Except.context_eq_ok.1 hsame))
  refine Except.bind_ne_error (Except.ne_error_of_ok hcoinId) fun _ _ => ?_
  refine Except.bind_ne_error (Except.ne_error_of_ok houtpoint) fun _ _ => ?_
  refine Except.bind_ne_error (Except.ensure_ne_error (by decide)) fun _ _ => ?_
  refine Except.bind_ne_error (Client.lift_ne_tooLarge _) fun _ _ => ?_
  refine Except.bind_ne_error (Client.lift_ne_tooLarge _) fun _ _ => ?_
  refine Except.bind_ne_error (Client.lift_ne_tooLarge _) fun recovery hrecovery => ?_
  refine Except.bind_ne_error (Except.ensure_ne_error (by decide)) fun _ _ => ?_
  refine Except.bind_ne_error (Except.context_ne_error (by decide)) fun _ _ => ?_
  refine Except.bind_ne_error (Except.context_ne_error (by decide)) fun _ _ => ?_
  refine Except.bind_ne_error (Except.ne_error_of_ok hid) fun requestId hrequestId => ?_
  refine Except.bind_ne_error (hsealed _ ?_) fun _ _ => ?_
  · exact ⟨recovery, requestId, Client.lift_eq_ok.1 hrecovery, hrequestId, rfl⟩
  · simp [pure, Except.pure]

/-- An attempt that was begun and has its response: its projected payload passed the size check. -/
theorem recorded_of_begun {s s₁ s₂ : WalletState P} {network : NetworkId}
    {request : TransferRequest} {status : CoinStatus P} {observed : ObservedFunding P}
    {minimumConfirmations minimumReactionBlocks : Nat} {signRequest : SignRequest P}
    (hbegin : beginTransfer network request status observed minimumConfirmations
      minimumReactionBlocks s = .ok signRequest s₁)
    {response : SignResponse P} (hrecord : recordSignResponse response s₁ = .ok () s₂) :
    ∃ coin metadata attempt, s₂.coin = some coin ∧ FitsCoin request network coin metadata ∧
      s₂.pending = some (.recovery ⟨.transfer request, .responded attempt response⟩) ∧
      attempt.request = signRequest ∧ attempt.prepared.metadata = metadata ∧
      attempt.prepared.recoverySerializationTemplate = .ok (templateRecovery metadata
        attempt.prepared.withdrawalXonlyPubkey attempt.prepared.delayBlocks) ∧
      validateTransferPayloadSize (transferPayload coin metadata Bytes32.max Bytes32.max
        (coin.history ++ [templateRecovery metadata attempt.prepared.withdrawalXonlyPubkey
          attempt.prepared.delayBlocks])) = .ok () := by
  obtain ⟨_, _, coin, metadata, _, _, _, delay, _, key, prepared, template, hcoin, hfits, _, _, _,
    hprepare, htemplate, hsize, rfl⟩ := beginTransfer_ok.1 hbegin
  obtain ⟨_, _, _, _, _, _, sighash, _, rfl, rfl⟩ := prepareRecovery_eq_ok.1 hprepare
  cases recoverySerializationTemplate_unsignedRecovery.symm.trans htemplate
  obtain ⟨purpose, attempt, ⟨hpending, rfl⟩ | ⟨hpending, _⟩⟩ := recordSignResponse_ok.1 hrecord
  · cases hpending
    exact ⟨coin, metadata, _, hcoin, hfits, rfl, rfl, rfl, htemplate, hsize⟩
  · cases hpending

/-- What the size check of `begin_transfer` promises: whatever the enclave answers, the payload that
`complete_transfer` seals is not longer than the projected one, it never fails for its size, and its
envelope fits everywhere. -/
theorem begun_transfer_fits (hcodec : P.SignatureCodec) (hwidth : P.PublicKeyWidth)
    (haead : P.AeadCorrect) {s s₁ s₂ : WalletState P} {network : NetworkId}
    {request : TransferRequest} {status : CoinStatus P} {observed : ObservedFunding P}
    {minimumConfirmations minimumReactionBlocks : Nat} {signRequest : SignRequest P}
    (hbegin : beginTransfer network request status observed minimumConfirmations
      minimumReactionBlocks s = .ok signRequest s₁)
    {response : SignResponse P} (hrecord : recordSignResponse response s₁ = .ok () s₂) :
    ∃ coin metadata attempt template, s₂.coin = some coin ∧ coin.metadata = some metadata ∧
      s₂.pending = some (.recovery ⟨.transfer request, .responded attempt response⟩) ∧
      attempt.request = signRequest ∧
      attempt.prepared.recoverySerializationTemplate = .ok template ∧
      (∀ payload, Seals coin metadata request attempt response payload →
        payload.toVec.length ≤ (transferPayload coin metadata Bytes32.max Bytes32.max
          (coin.history ++ [template])).toVec.length ∧
        ∀ draws, encryptTransfer draws request payload ≠
          .error "transfer package exceeds 8 MiB ciphertext limit") ∧
      (∀ draws live s₃, completeTransfer draws live s₂ ≠
        .error "transfer package exceeds 8 MiB ciphertext limit" s₃) ∧
      ∀ draws live envelope s₃, completeTransfer draws live s₂ = .ok envelope s₃ →
        EnvelopeFits envelope ∧ ∃ payload, Seals coin metadata request attempt response payload ∧
          encryptTransfer draws request payload = .ok envelope := by
  obtain ⟨coin, metadata, attempt, hcoin, hfits, hpending, hrequest, hmetadata, htemplate, hsize⟩ :=
    recorded_of_begun hbegin hrecord
  have hsealed : ∀ payload, Seals coin metadata request attempt response payload →
      payload.toVec.length ≤ (transferPayload coin metadata Bytes32.max Bytes32.max
        (coin.history ++ [templateRecovery metadata attempt.prepared.withdrawalXonlyPubkey
          attempt.prepared.delayBlocks])).toVec.length ∧
      ∀ draws, encryptTransfer draws request payload ≠
        .error "transfer package exceeds 8 MiB ciphertext limit" := by
    intro payload hpayload
    have hle := hpayload.length_le hcodec hmetadata
    have hprojected := Except.ensure_eq_ok.1 hsize
    exact ⟨hle, fun draws => encryptTransfer_ne_tooLarge draws hfits.validate hpayload.validate
      (Except.ensure_eq_ok.2 (Nat.le_trans (Nat.add_le_add_right hle 16) hprojected))⟩
  refine ⟨coin, metadata, attempt, _, hcoin, hfits.metadata_eq, hpending, hrequest, htemplate,
    hsealed, ?_, ?_⟩
  · intro draws live s₃
    exact completeTransfer_ne_tooLarge draws live hpending hcoin hfits.metadata_eq hfits.validate
      (fun payload hpayload => (hsealed payload hpayload).2 draws) s₃
  · intro draws live envelope s₃ hcomplete
    obtain ⟨_, _, _, _, _, recovery, _, _, requestId, hpending', hcoin', hmetadata', _, _, _, _,
      hrecovery, _, _, _, hid, hencrypted, _⟩ := completeTransfer_ok.1 hcomplete
    cases hpending.symm.trans hpending'
    obtain rfl := Option.some.inj (hcoin.symm.trans hcoin')
    obtain rfl := Option.some.inj (hfits.metadata_eq.symm.trans hmetadata')
    exact ⟨.of_encryptTransfer hwidth haead hencrypted, _,
      ⟨recovery, requestId, hrecovery, hid, rfl⟩, hencrypted⟩

section Demo

open Symbolic

/-- A coin that is sent on. -/
theorem begun_transfer_fits_second : ∃ s₁ s₂ s₃ envelope,
    beginTransfer .regtest received.request (liveStatus (bytes 4) (bytes 11) 1) (seen 3) 1 10
      (empty.run broadcasting) = .ok transferRequest s₁ ∧
    recordSignResponse ⟨platform.signSchnorr (bytes 9) transferRequest.sighash, bytes 12⟩ s₁ =
      .ok () s₂ ∧
    completeTransfer ⟨bytes 24, List.Vector.replicate 24 0⟩ (liveStatus (bytes 20) (bytes 12) 2)
      s₂ = .ok envelope s₃ ∧ EnvelopeFits envelope := by
  obtain ⟨_, s₁, s₂, envelope, s₃, hbegun, hrecord, hcomplete⟩ := completeTransfer_broadcasting
  obtain ⟨_, _, _, _, _, _, _, _, _, _, _, hfits⟩ :=
    begun_transfer_fits signatureCodec publicKeyWidth aeadCorrect hbegun.begun hrecord
  exact ⟨s₁, s₂, s₃, envelope, hbegun.begun, hrecord, hcomplete, (hfits _ _ _ _ hcomplete).1⟩

end Demo

end Tinylayer
