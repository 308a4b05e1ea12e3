import Tinylayer.Wire

/-!
# Proofs: a transfer package opens for its own request

The receiver that was asked for opens the package, and a package opens for no other request.
-/

namespace Tinylayer

variable {P : Platform}

/-- The ciphertext of the envelope opens only with what it was sealed with. -/
def TransferEnvelope.Binding (P : Platform) (envelope : TransferEnvelope) : Prop :=
  ∀ ciphertext, Hex.decode envelope.ciphertext = some ciphertext → P.AeadBinding ciphertext

/-- What opens was sealed for the request it is opened with. -/
theorem request_eq_of_decryptTransfer (hwire : P.WireCodec) {reader : PayloadReader P}
    {draws : EnvelopeDraws P} {request request' : TransferRequest}
    {payload payload' : TransferPayload P} {envelope : TransferEnvelope} {secret : Bytes32}
    (hbinding : envelope.Binding P) (hrange : request.InRange P) (hrange' : request'.InRange P)
    (h : encryptTransfer draws request payload = .ok envelope)
    (h' : decryptTransfer reader request' secret envelope = .ok payload') : request' = request := by
  simp only [encryptTransfer, Except.bind_eq_ok, exists_unit, Except.context_eq_ok,
    Except.pure_eq_ok] at h
  obtain ⟨_, _, _, _, _, _, _, key, _, _, aad, haad, ciphertext, hsealed, rfl⟩ := h
  simp only [decryptTransfer, Except.bind_eq_ok, exists_unit, Except.context_eq_ok,
    Except.pure_eq_ok, Hex.decode_encode, Option.some.injEq, exists_eq_left'] at h'
  obtain ⟨_, _, _, _, _, _, _, _, _, key', _, _, _, aad', haad', plaintext, hopened, _⟩ := h'
  obtain ⟨-, -, rfl⟩ :=
    hbinding ciphertext (Hex.decode_encode ciphertext) _ _ _ _ _ _ _ _ hsealed hopened
  exact TransferRequest.aad_injective hwire hrange hrange' haad haad'

/-- A transfer package opens with the transport secret of the request it was made for, to the payload
that was sealed in it, and with whatever secret for no other request. -/
theorem transferPackage_opens_for_request (draws : EnvelopeDraws P) (request : TransferRequest)
    (payload : TransferPayload P) (envelope : TransferEnvelope)
    (h : encryptTransfer draws request payload = .ok envelope) (reader : PayloadReader P) :
    (P.TextCodec → P.SecretCodec → P.EcdhSymmetric → P.AeadCorrect → reader.RoundTrip →
      payload.metadata.keys.Valid → ∀ transport,
      request.transportKey P = .ok (P.publicKeyOf transport) →
      decryptTransfer reader request (P.secretBytes transport) envelope = .ok payload) ∧
    (P.WireCodec → envelope.Binding P → request.InRange P →
      ∀ request' secret payload', request'.InRange P →
      decryptTransfer reader request' secret envelope = .ok payload' → request' = request) := by
  constructor
  · intro htext hsecret hecdh haead hreader hkeys transport htransport
    exact decryptTransfer_encryptTransfer htext hsecret hecdh haead hreader htransport hkeys h
  · intro hwire hbinding hrange request' secret payload' hrange' h'
    exact request_eq_of_decryptTransfer hwire hbinding hrange hrange' h h'

/-! ## A package that opens -/

section Opened

open Wire
open Symbolic (bytes)

def packageOutpoint : OutPoint Wire.Txid := ⟨7, 0⟩

def packageRequest : TransferRequest :=
  TransferRequest.new (P := platform ([], [], [])) (bytes 20) (bytes 1) .regtest packageOutpoint
    1000 (bytes 21) (bytes 22) (2 ::ᵥ bytes 23) 10

def packageDraws (use : CipherUse) : EnvelopeDraws (platform use) :=
  ⟨bytes 24, List.Vector.replicate 24 0⟩

def packagePayload (use : CipherUse) : TransferPayload (platform use) where
  formatVersion := fileFormatVersion
  protocolVersion := Tinylayer.protocolVersion
  requestId := bytes 20
  clientSecret := bytes 2
  currentHandoff := bytes 11
  metadata := ⟨⟨Tinylayer.protocolVersion, bytes 1, bytes 2, bytes 9⟩, .regtest, packageOutpoint, 1000⟩
  history := []

/-- The key, the nonce and the associated data of the package. -/
def packageUse : CipherUse :=
  ((bytes 20).toList ++ (bytes (23 ^^^ 24)).toList ++ transferInfo, List.replicate 24 0,
    (packageRequest.aad (platform ([], [], []))).toOption.getD [])

theorem packageRequest_inRange : packageRequest.InRange (platform packageUse) where
  minReactionBlocks := by decide
  vout outpoint h := by
    have hout := (TransferRequest.parsed_new (textCodec packageUse) (bytes 20) (bytes 1) .regtest
      packageOutpoint 1000 (bytes 21) (bytes 22) (2 ::ᵥ bytes 23) 10).outpoint
    cases hout.symm.trans h
    decide

theorem transferPackage_opens_for_request_once : ∃ envelope,
    encryptTransfer (packageDraws packageUse) packageRequest (packagePayload packageUse) =
      .ok envelope ∧
    decryptTransfer (Wire.writtenReader packageUse) packageRequest (bytes 23) envelope =
      .ok (packagePayload packageUse) ∧
    ∀ request' secret payload', request'.InRange (platform packageUse) →
      decryptTransfer (Wire.writtenReader packageUse) request' secret envelope = .ok payload' →
      request' = packageRequest := by
  have hseal : (encryptTransfer (packageDraws packageUse) packageRequest
      (packagePayload packageUse)).isOk = true := by decide +kernel
  obtain ⟨envelope, henvelope⟩ : ∃ envelope, encryptTransfer (packageDraws packageUse)
      packageRequest (packagePayload packageUse) = .ok envelope := by
    cases h : encryptTransfer (packageDraws packageUse) packageRequest
        (packagePayload packageUse) with
    | error e => rw [h] at hseal; cases hseal
    | ok envelope => exact ⟨envelope, rfl⟩
  have hkeys : (packagePayload packageUse).metadata.keys.Valid := ⟨rfl, by decide⟩
  have hparsed := TransferRequest.parsed_new (textCodec packageUse) (bytes 20) (bytes 1) .regtest
    packageOutpoint 1000 (bytes 21) (bytes 22) (2 ::ᵥ bytes 23) 10
  obtain ⟨hopens, honly⟩ := transferPackage_opens_for_request (packageDraws packageUse)
    packageRequest (packagePayload packageUse) envelope henvelope (Wire.writtenReader packageUse)
  refine ⟨envelope, henvelope, ?_, ?_⟩
  · exact hopens (textCodec packageUse) (secretCodec packageUse) (ecdhSymmetric packageUse)
      (aeadCorrect packageUse) (Wire.writtenReader_roundTrip packageUse) hkeys (bytes 23)
      hparsed.transportKey
  · exact honly (wireCodec packageUse) (fun ciphertext _ => aeadBinding packageUse ciphertext)
      packageRequest_inRange

end Opened

end Tinylayer
