import Tinylayer.Enclave.Proofs.ReportProofs
import Tinylayer.Wallet.Proofs.InvariantProofs

/-!
# Proofs: registering among other clients

The signer answers every registration of a coin with the record that the first one left, whoever
sent it. A wallet completes its registration only with an answer that shows its own capability and
no signature.
-/

namespace Tinylayer

variable {P : Platform} {LIMIT : Nat}

namespace Signer.Registered

variable {calls earlier : List (Signer.Call P)} {request : RegisterRequest P}
  {status : CoinStatus P}

/-- An answer to a registration is the status that the signer reports then. -/
theorem status_eq (h : Registered LIMIT calls request earlier status) :
    ((new : Signer P LIMIT).run earlier).status request.coinId = .ok status := by
  obtain ⟨before, draws, _, _, hhandle⟩ := h
  obtain ⟨status', hregister, heq⟩ := EStateM.map_eq_ok.1 hhandle
  cases heq
  rcases register_ok.1 hregister with ⟨coin, hl, hstatus, hsame⟩ | ⟨_, _, hstatus, hafter⟩
  · rw [← hsame]
    exact status_ok.2 ⟨coin, hl, hstatus⟩
  · rw [← hafter]
    exact status_ok.2 ⟨_, AList.lookup_insert _, hstatus⟩

theorem reported (h : Registered LIMIT calls request earlier status)
    (hid : status.coinId = request.coinId) : Reported LIMIT calls status := by
  obtain ⟨_, _, _, hprefix, _⟩ := id h
  exact ⟨earlier, hprefix, by rw [hid, h.status_eq]⟩

/-- The record behind the answer. -/
theorem record (h : Registered LIMIT calls request earlier status) : ∃ first coin,
    registration request.coinId (new : Signer P LIMIT) calls = some first ∧
    ((new : Signer P LIMIT).run earlier).coins.lookup request.coinId = some coin ∧
    coin.status request.coinId = status ∧
    coin = Coin.summary coin.signingKey first
      (issuances request.coinId (new : Signer P LIMIT) earlier) := by
  obtain ⟨coin, hl, hstatus⟩ := status_ok.1 h.status_eq
  obtain ⟨first, hfirst, hcoin⟩ := (@recorded_run P LIMIT earlier request.coinId).of_lookup hl
  obtain ⟨_, _, _, ⟨later, rfl⟩, _⟩ := h
  exact ⟨first, coin, by rw [registration_append, hfirst, Option.some_or], hl, hstatus, hcoin⟩

/-- An answer that shows no signature and the initial authorization of the request: nothing was
signed, and the coin was registered with the capability of the request. -/
theorem untouched (h : Registered LIMIT calls request earlier status) (hcf : P.CollisionFree)
    (hcount : status.signatureCount = 0)
    (hauth : status.authorization = initialAuthorization request) : ∃ first coin,
    registration request.coinId (new : Signer P LIMIT) calls = some first ∧
    first.initialCapabilityHash = request.initialCapabilityHash ∧
    ((new : Signer P LIMIT).run earlier).coins.lookup request.coinId = some coin ∧
    coin.status request.coinId = status ∧
    issuances request.coinId (new : Signer P LIMIT) earlier = [] := by
  obtain ⟨first, coin, hfirst, hl, rfl, hcoin⟩ := h.record
  have hlog : issuances request.coinId (new : Signer P LIMIT) earlier = [] := by
    change coin.signatureCount = 0 at hcount
    rw [hcoin] at hcount
    exact List.length_eq_zero_iff.1 hcount
  refine ⟨first, coin, hfirst, ?_, hl, rfl, hlog⟩
  change coin.authorization = _ at hauth
  rw [hcoin, hlog] at hauth
  exact (authorization_inj hcf hauth).2.1

end Signer.Registered

open WalletState

/-- A wallet that waits for the answer to its registration, and one such answer of the signer. -/
structure Awaiting (LIMIT : Nat) (calls : List (Signer.Call P)) (s : WalletState P)
    (secret : P.SecretKey) (capability : Capability) (registration : Registration P)
    (earlier : List (Signer.Call P)) (status : CoinStatus P) : Prop where
  reachable : ∃ ops, s = empty.run ops
  pending : s.pending = some (.registration secret capability registration)
  answered : Signer.Registered LIMIT calls registration.request earlier status

namespace Awaiting

variable {calls earlier : List (Signer.Call P)} {s : WalletState P} {secret : P.SecretKey}
  {capability : Capability} {registration : Registration P} {status : CoinStatus P}

theorem prepared (h : Awaiting LIMIT calls s secret capability registration earlier status)
    (hsecret : P.SecretCodec) : RegistrationInv secret capability registration := by
  obtain ⟨ops, rfl⟩ := h.reachable
  exact ((WalletInv.reachable hsecret ops).registration secret capability registration h.pending).2.2

/-- What follows from an answer that completes the registration. -/
theorem completed (h : Awaiting LIMIT calls s secret capability registration earlier status)
    (hsecret : P.SecretCodec) (hcf : P.CollisionFree) {s' : WalletState P} {u : Unit}
    (hok : WalletState.completeRegistration status s = .ok u s') : ∃ first coin keys,
    s' = { s with coin := some (registeredCoin secret capability keys), pending := none } ∧
    keys = ⟨protocolVersion, registration.request.coinId, registration.clientPubkey,
      P.xOnlyPublicKey coin.signingKey⟩ ∧
    keys.clientPubkey ≠ keys.enclavePubkey ∧
    Signer.registration registration.request.coinId (Signer.new : Signer P LIMIT) calls = some first ∧
    first.initialCapabilityHash = capabilityHash capability ∧
    ((Signer.new : Signer P LIMIT).run earlier).coins.lookup registration.request.coinId = some coin ∧
    coin.status registration.request.coinId = status ∧
    status.authorization = authorization registration.request.coinId (capabilityHash capability)
      initialHandoff ∧
    status.signatureCount = 0 ∧
    Signer.issuances registration.request.coinId (Signer.new : Signer P LIMIT) earlier = [] := by
  obtain ⟨_, secret', capability', registration', keys, hp, hcomplete, rfl⟩ :=
    completeRegistration_ok hok
  cases h.pending.symm.trans hp
  obtain ⟨_, ⟨_, hcount, hauth⟩, hne, rfl⟩ := completeRegistration_eq_ok.1 hcomplete
  obtain ⟨first, coin, hfirst, hhash, hl, hstatus, hlog⟩ := h.answered.untouched hcf hcount hauth
  have hpubkey : status.signingPubkey = P.xOnlyPublicKey coin.signingKey := by
    rw [← hstatus]
    rfl
  obtain ⟨coinId, rfl⟩ := h.prepared hsecret
  exact ⟨first, coin, _, rfl, by rw [hpubkey], hne, hfirst, hhash, hl, hstatus, hauth, hcount, hlog⟩

end Awaiting

/-- Registering is safe among arbitrary other clients. An answer completes a registration only if,
when it was given, the record of the coin was the wallet's own and nothing had been signed; all such
answers give the same coin; and none of them completes it if another capability was registered
first. -/
theorem registration_safe (hcf : P.CollisionFree) (hsecret : P.SecretCodec)
    (calls : List (Signer.Call P)) (secret : P.SecretKey) (capability : Capability)
    (registration : Registration P) :
    (∀ s earlier status s',
      Awaiting LIMIT calls s secret capability registration earlier status →
      WalletState.completeRegistration status s = .ok () s' →
      ∃ coin wallet,
        ((Signer.new : Signer P LIMIT).run earlier).coins.lookup registration.request.coinId =
          some coin ∧
        coin.signatureCount = 0 ∧
        coin.authorization = authorization registration.request.coinId (capabilityHash capability)
          initialHandoff ∧
        s'.coin = some wallet ∧ wallet.keys.coinId = registration.request.coinId ∧
        wallet.keys.enclavePubkey = P.xOnlyPublicKey coin.signingKey ∧
        wallet.keys.clientPubkey ≠ wallet.keys.enclavePubkey ∧
        Signer.issuances registration.request.coinId (Signer.new : Signer P LIMIT) earlier = []) ∧
    (∀ s₁ s₂ earlier₁ earlier₂ status₁ status₂ s₁' s₂',
      Awaiting LIMIT calls s₁ secret capability registration earlier₁ status₁ →
      Awaiting LIMIT calls s₂ secret capability registration earlier₂ status₂ →
      WalletState.completeRegistration status₁ s₁ = .ok () s₁' →
      WalletState.completeRegistration status₂ s₂ = .ok () s₂' →
      s₁'.coin = s₂'.coin) ∧
    ∀ first, Signer.registration registration.request.coinId (Signer.new : Signer P LIMIT) calls =
        some first → first.initialCapabilityHash ≠ capabilityHash capability →
      ∀ s earlier status, Awaiting LIMIT calls s secret capability registration earlier status →
        ∃ e, WalletState.completeRegistration status s = .error e s := by
  refine ⟨?_, ?_, ?_⟩
  · intro s earlier status s' h hok
    obtain ⟨_, coin, keys, rfl, rfl, hne, _, _, hl, rfl, hauth, hcount, hlog⟩ :=
      h.completed hsecret hcf hok
    exact ⟨coin, _, hl, hcount, hauth, rfl, rfl, rfl, hne, hlog⟩
  · intro s₁ s₂ earlier₁ earlier₂ status₁ status₂ s₁' s₂' h₁ h₂ hok₁ hok₂
    obtain ⟨_, coin₁, _, rfl, rfl, _, _, _, _, hstatus₁, _⟩ := h₁.completed hsecret hcf hok₁
    obtain ⟨_, coin₂, _, rfl, rfl, _, _, _, _, hstatus₂, _⟩ := h₂.completed hsecret hcf hok₂
    -- the signing key of a coin never changes
    have hreported₁ := h₁.answered.reported (by rw [← hstatus₁]; rfl)
    have hreported₂ := h₂.answered.reported (by rw [← hstatus₂]; rfl)
    obtain ⟨_, _, _, coin, _, _, hl, _, hkey₁, _⟩ := hreported₁.spec
    obtain ⟨_, _, _, coin', _, _, hl', _, hkey₂, _⟩ := hreported₂.spec
    rw [← hstatus₁] at hl hkey₁
    rw [← hstatus₂] at hl' hkey₂
    cases hl.symm.trans hl'
    have hkey : P.xOnlyPublicKey coin₁.signingKey = P.xOnlyPublicKey coin₂.signingKey :=
      hkey₁.trans hkey₂.symm
    simp only [hkey]
  · intro first hfirst hne s earlier status h
    cases hresult : WalletState.completeRegistration status s with
    | ok u s' =>
      obtain ⟨first', _, _, _, _, _, hfirst', hhash, _⟩ := h.completed hsecret hcf hresult
      cases hfirst.symm.trans hfirst'
      exact absurd hhash hne
    | error e s' =>
      cases completeRegistration_atomic status s e s' hresult
      exact ⟨e, rfl⟩

section Race

open Symbolic

/-- The wallet registers, and registers again after its answer was lost. -/
def registeringTwice : List (Signer.Call platform) :=
  [⟨.register ⟨bytes 1, capabilityHash (bytes 3)⟩, ⟨bytes 9, bytes 10⟩⟩,
    ⟨.register ⟨bytes 1, capabilityHash (bytes 3)⟩, ⟨bytes 12, bytes 13⟩⟩]

/-- Somebody else registers the coin first. -/
def registeringLate : List (Signer.Call platform) :=
  [⟨.register ⟨bytes 1, capabilityHash (bytes 8)⟩, ⟨bytes 9, bytes 10⟩⟩,
    ⟨.register ⟨bytes 1, capabilityHash (bytes 3)⟩, ⟨bytes 12, bytes 13⟩⟩]

def waiting : WalletState platform := empty.run [.beginRegistration registrationDraws]

theorem registration_safe_race :
    (∃ s', WalletState.completeRegistration (liveStatus (bytes 3) initialHandoff 0) waiting =
        .ok () s' ∧
      ∃ wallet, s'.coin = some wallet ∧ wallet.keys.coinId = bytes 1) ∧
    ∃ e, WalletState.completeRegistration (liveStatus (bytes 8) initialHandoff 0) waiting =
      .error e waiting := by
  have hpending : waiting.pending = some (.registration (bytes 2) (bytes 3)
      (prepareRegistration (bytes 1) (bytes 2) (capabilityHash (bytes 3)))) := by decide +kernel
  have hcompletes : (WalletState.completeRegistration
      (liveStatus (bytes 3) initialHandoff 0)).result? waiting = some () := by decide +kernel
  constructor
  · have hawaiting : Awaiting 1 registeringTwice waiting (bytes 2) (bytes 3)
        (prepareRegistration (bytes 1) (bytes 2) (capabilityHash (bytes 3))) registeringTwice
        (liveStatus (bytes 3) initialHandoff 0) :=
      ⟨⟨_, rfl⟩, hpending, registeringTwice.take 1, ⟨bytes 12, bytes 13⟩, rfl, List.prefix_refl _, rfl⟩
    have hok := Update.result?_eq_some.1 hcompletes
    obtain ⟨_, wallet, _, _, _, hwallet, hid, _⟩ := (registration_safe collisionFree secretCodec
      registeringTwice (bytes 2) (bytes 3) _).1 _ _ _ _ hawaiting hok
    exact ⟨_, hok, wallet, hwallet, hid⟩
  · have hawaiting : Awaiting 1 registeringLate waiting (bytes 2) (bytes 3)
        (prepareRegistration (bytes 1) (bytes 2) (capabilityHash (bytes 3))) registeringLate
        (liveStatus (bytes 8) initialHandoff 0) :=
      ⟨⟨_, rfl⟩, hpending, registeringLate.take 1, ⟨bytes 12, bytes 13⟩, rfl, List.prefix_refl _, rfl⟩
    have hne : capabilityHash (P := platform) (bytes 8) ≠ capabilityHash (bytes 3) := by
      decide +kernel
    exact (registration_safe collisionFree secretCodec registeringLate (bytes 2) (bytes 3) _).2.2
      ⟨bytes 1, capabilityHash (bytes 8)⟩ rfl hne _ _ _ hawaiting

end Race

end Tinylayer
