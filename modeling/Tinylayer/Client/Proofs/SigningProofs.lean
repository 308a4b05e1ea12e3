import Tinylayer.Client.Proofs.CanonicalProofs
import Tinylayer.Enclave.Proofs.ChainProofs

/-!
# Proofs: signing a recovery

A recovery that the client prepares against the live status of its coin is signed by the enclave,
confirmed by the enclave's new status, and completes. Whatever completes verifies, also if the
journal of the preparation was changed.
-/

namespace Tinylayer

variable {P : Platform}

namespace Signer

variable {LIMIT : Nat}

/-- A request for a change of the capability that presents the present authorization was not
answered before. -/
theorem Recorded.cached_eq_none (hfree : P.CollisionFree) {σ : Signer P LIMIT} {coinId : CoinId}
    {registration : Option (RegisterRequest P)} {log : List (Issuance P)}
    (h : Recorded σ coinId registration log) {coin : Coin P}
    (hlookup : σ.coins.lookup coinId = some coin) {request : SignRequest P}
    (hauth : presented request = coin.authorization)
    (hnext : request.nextCapabilityHash ≠ capabilityHash request.currentCapability) :
    coin.cached request = none := by
  obtain ⟨first, _, hcoin⟩ := h.of_lookup hlookup
  rw [Option.eq_none_iff_forall_ne_some]
  intro response hcached
  have hlast := cached_eq_some.1 hcached
  rw [hcoin] at hlast hauth
  obtain ⟨log', rfl⟩ := List.getLast?_eq_some_iff.1 hlast
  rw [Coin.summary, Rotation.key_concat, committed] at hauth
  exact hnext (authorization_inj hfree hauth).2.1.symm

/-- The enclave answers a request that presents the live authorization of its coin, and its new
status confirms the answer. -/
theorem sign_live (hfree : P.CollisionFree) (hschnorr : P.SchnorrCorrect) {calls : List (Call P)}
    {status : CoinStatus P} {request : SignRequest P}
    (hlive : ((new : Signer P LIMIT).run calls).status request.coinId = .ok status)
    (hcount : status.signatureCount < u64Max) (hauth : presented request = status.authorization)
    (hnext : request.nextCapabilityHash ≠ capabilityHash request.currentCapability)
    (draws : Draws P) :
    ∃ response σ' status',
      sign draws request ((new : Signer P LIMIT).run calls) = .ok response σ' ∧
      σ'.status request.coinId = .ok status' ∧
      verifySignResponse request status.signatureCount status' response = .ok () ∧
      P.verifySchnorr response.signature request.sighash status.signingPubkey = true := by
  obtain ⟨coin, hlookup, rfl⟩ := status_ok.1 hlive
  have hrecorded := @Signer.recorded_run P LIMIT calls request.coinId
  have hcached := hrecorded.cached_eq_none hfree hlookup hauth hnext
  have hsigned := hschnorr coin.signingKey request.sighash
  refine ⟨coin.respond draws request, _, _, sign_ok.2 ⟨coin, hlookup,
    Or.inr ⟨hcached, hauth, hnext, hcount, rfl, rfl⟩⟩,
    status_ok.2 ⟨_, AList.lookup_insert _, rfl⟩, ?_, hsigned⟩
  exact verifySignResponse_eq_ok.2 ⟨hcount, ⟨rfl, rfl, rfl⟩, hsigned⟩

end Signer

/-- The completed recovery carries the response's signature on the requested digest. -/
theorem completeRecovery_sound {request : SignRequest P} {response : SignResponse P}
    {prepared : PreparedRecovery P} {secret : P.SecretKey} {recovery : SignedRecovery P}
    (h : completeRecovery request response prepared secret = .ok recovery) :
    recoverySighash recovery.transaction prepared.metadata.amountSat prepared.metadata.keys =
        .ok request.sighash ∧
      ∃ input, recovery.transaction.input = [input] ∧
        input.witness.head? = some (P.signatureBytes response.signature) := by
  obtain ⟨_, _, _, _, _, hdigest, rfl, _⟩ := completeRecovery_eq_ok.1 h
  exact ⟨recoverySighash_signedTransaction.trans hdigest, _, rfl, rfl⟩

/-- Preparing, signing and completing a recovery is complete and sound. -/
theorem recovery_signing_complete :
    (P.CollisionFree → P.SchnorrCorrect → P.SignatureCodec → P.TaprootLaws →
      ∀ (LIMIT : Nat) (calls : List (Signer.Call P)) (metadata : CoinMetadata P)
      (status : CoinStatus P) (secret : P.SecretKey) (capability : Capability)
      (handoff : HandoffToken) (nextCapabilityHash : P.Digest) (key : P.XOnlyPublicKey)
      (delay confirmations : Nat) (request : SignRequest P) (prepared : PreparedRecovery P)
      (draws : Signer.Draws P),
      ((Signer.new : Signer P LIMIT).run calls).status status.coinId = .ok status →
      status.signatureCount < u64Max →
      prepareRecovery metadata status secret capability handoff nextCapabilityHash key delay
        confirmations = .ok (request, prepared) →
      ∃ response σ status' recovery,
        Signer.sign draws request ((Signer.new : Signer P LIMIT).run calls) = .ok response σ ∧
        σ.status request.coinId = .ok status' ∧
        verifySignResponse request status.signatureCount status' response = .ok () ∧
        completeRecovery request response prepared secret = .ok recovery ∧
        verifyRecovery metadata recovery = .ok () ∧
        recovery.withdrawalXonlyPubkey = key ∧ recovery.delayBlocks = delay) ∧
    ∀ (prepared : PreparedRecovery P) (request : SignRequest P) (response : SignResponse P)
      (secret : P.SecretKey) (recovery : SignedRecovery P),
      completeRecovery request response prepared secret = .ok recovery →
      verifyRecovery prepared.metadata recovery = .ok () ∧
      recovery.withdrawalXonlyPubkey = prepared.withdrawalXonlyPubkey ∧
      recovery.delayBlocks = prepared.delayBlocks ∧
      recoverySighash recovery.transaction prepared.metadata.amountSat prepared.metadata.keys =
        .ok request.sighash ∧
      ∃ input, recovery.transaction.input = [input] ∧
        input.witness.head? = some (P.signatureBytes response.signature) := by
  refine ⟨?_, fun prepared request response secret recovery hcomplete => ?_⟩
  · intro hfree hschnorr hcodec htaproot LIMIT calls metadata status secret capability handoff
      nextCapabilityHash key delay confirmations request prepared draws hlive hcount hprepare
    obtain ⟨⟨_, hid, hpubkey⟩, hauth, hnext, _, _, _, digest, _, hrequest, hprepared⟩ :=
      prepareRecovery_eq_ok.1 hprepare
    have hcoin : request.coinId = status.coinId := by
      rw [hrequest, hid]
      rfl
    have hpresented : Signer.presented request = status.authorization := by
      rw [hauth, hrequest]
      rfl
    have hfresh : request.nextCapabilityHash ≠ capabilityHash request.currentCapability := by
      rw [hrequest]
      exact hnext
    rw [← hcoin] at hlive
    obtain ⟨response, σ, status', hsign, hstatus, hresponse, hsigned⟩ :=
      Signer.sign_live hfree hschnorr hlive hcount hpresented hfresh draws
    rw [hpubkey] at hsigned
    have hcomplete := completeRecovery_of_prepared hschnorr hcodec htaproot hprepare hsigned
    obtain ⟨hverified, hkey, hdelay⟩ := VerifiedRecovery.of_complete hcomplete
    rw [hprepared] at hverified
    exact ⟨response, σ, status', _, hsign, hstatus, hresponse, hcomplete,
      verifyRecovery_eq_ok.2 hverified, rfl, rfl⟩
  · obtain ⟨hverified, hkey, hdelay⟩ := VerifiedRecovery.of_complete hcomplete
    exact ⟨verifyRecovery_eq_ok.2 hverified, hkey, hdelay, completeRecovery_sound hcomplete⟩

/-! ## A first recovery -/

section Demo

open Symbolic

/-- The enclave with the one coin of `exactMetadata`. -/
def registeredCalls : List (Signer.Call exactPlatform) :=
  [⟨.register ⟨bytes 1, capabilityHash (bytes 3)⟩, ⟨bytes 9, bytes 10⟩⟩]

def registeredStatus : CoinStatus exactPlatform where
  coinId := bytes 1
  signingPubkey := (bytes 9).toList
  authorization := authorization (bytes 1) (capabilityHash (bytes 3)) initialHandoff
  signatureCount := 0

def firstRequest : SignRequest exactPlatform :=
  recoveryRequest exactMetadata (bytes 3) initialHandoff (capabilityHash (bytes 4))
    (exactDigest 5 100)

theorem recovery_signing_complete_first : ∃ response σ recovery,
    Signer.sign ⟨bytes 9, bytes 11⟩ firstRequest
      ((Signer.new : Signer exactPlatform 1).run registeredCalls) = .ok response σ ∧
    completeRecovery firstRequest response
      (unsignedRecovery exactMetadata firstRequest (bytes 5).toList 100) (bytes 2) =
        .ok recovery ∧
    verifyRecovery exactMetadata recovery = .ok () ∧ recovery.delayBlocks = 100 := by
  have hlive : ((Signer.new : Signer exactPlatform 1).run registeredCalls).status
      registeredStatus.coinId = .ok registeredStatus := by decide +kernel
  have hprepare : prepareRecovery exactMetadata registeredStatus (bytes 2) (bytes 3)
      initialHandoff (capabilityHash (bytes 4)) (bytes 5).toList 100 3 =
      .ok (firstRequest, unsignedRecovery exactMetadata firstRequest (bytes 5).toList 100) := by
    decide +kernel
  obtain ⟨response, σ, _, recovery, hsign, _, _, hcomplete, hverify, _, hdelay⟩ :=
    recovery_signing_complete.1 exactCollisionFree exactSchnorrCorrect exactSignatureCodec
      exactTaprootLaws 1 registeredCalls exactMetadata registeredStatus (bytes 2) (bytes 3)
      initialHandoff (capabilityHash (bytes 4)) (bytes 5).toList 100 3 firstRequest _
      ⟨bytes 9, bytes 11⟩ hlive (by decide) hprepare
  exact ⟨response, σ, recovery, hsign, hcomplete, hverify, hdelay⟩

end Demo

end Tinylayer
