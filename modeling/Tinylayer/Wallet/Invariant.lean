import Tinylayer.Wallet.Proofs.StateProofs

/-!
# The invariant of the wallet

What holds of every wallet state that the operations can produce, whatever they are given. The part
that users see is about the coin and its history; the journal of a signing request has to agree
with the coin for this part to be preserved.
-/

namespace Tinylayer

variable {P : Platform}

/-- The recovery that belongs to the wallet, with the secret it pays to. -/
def WalletCoin.owned (coin : WalletCoin P) : Option (SignedRecovery P × Bytes32) :=
  match coin.withdrawalRecoveryIndex, coin.withdrawalSecret with
  | some index, some secret => coin.history[index]?.map fun recovery => (recovery, secret)
  | _, _ => none

/-- The recovery pays the key of the saved secret. -/
def PaysSecret (recovery : SignedRecovery P) (secret : Bytes32) : Prop :=
  ∃ key, P.secretKeyFromSlice secret = some key ∧
    recovery.withdrawalXonlyPubkey = secretXonly key

/-- The invariant of a coin. -/
structure CoinInv (coin : WalletCoin P) : Prop where
  keys : coin.keys.Valid
  secret : P.xOnlyPublicKey coin.clientSecret = coin.keys.clientPubkey
  accepted : coin.acceptedRequest.isSome = coin.acceptedEnvelopeFingerprint.isSome
  metadata_keys : ∀ metadata ∈ coin.metadata, metadata.keys = coin.keys
  unfunded : coin.metadata = none ↔ coin.funding = none ∧ coin.history = []
  recoveries : ∀ metadata ∈ coin.metadata, ∀ recovery ∈ coin.history,
    VerifiedRecovery metadata recovery
  ladder : Ladder coin.history
  capability : coin.currentCapability = none ↔ coin.outgoing.isSome = true
  handoff : coin.currentHandoff = none ↔ coin.outgoing.isSome = true
  initial : coin.history = [] → coin.currentHandoff = some initialHandoff
  owned : coin.history ≠ [] → ∃ recovery secret, coin.owned = some (recovery, secret) ∧
    PaysSecret recovery secret
  latest : coin.outgoing = none → coin.history ≠ [] →
    coin.withdrawalRecoveryIndex = some (coin.history.length - 1)
  transferred : coin.outgoing.isSome = true → coin.history.length = 1
  prepared : ∀ funding ∈ coin.funding, funding.stage = .prepared → coin.history = []
  secured : ∀ funding ∈ coin.funding, funding.stage ≠ .prepared →
    ∃ recovery, coin.history = [recovery] ∧ recovery.delayBlocks = funding.delayBlocks

/-- The attempt asks for the next recovery of the coin, with the coin's own authorization. -/
structure AttemptInv (coin : WalletCoin P) (metadata : CoinMetadata P)
    (attempt : RecoveryAttempt P) : Prop where
  metadata_eq : coin.metadata = some metadata
  coinId : attempt.request.coinId = coin.keys.coinId
  capability : coin.currentCapability = some attempt.request.currentCapability
  handoff : coin.currentHandoff = some attempt.request.currentHandoff
  next : attempt.request.nextCapabilityHash ≠ capabilityHash attempt.request.currentCapability
  count : attempt.expectedSignatureCount = coin.history.length
  prepared : attempt.prepared = unsignedRecovery metadata attempt.request
    attempt.prepared.withdrawalXonlyPubkey attempt.delayBlocks
  terms : RecoveryTerms metadata.outpoint metadata.amountSat
    attempt.prepared.withdrawalXonlyPubkey attempt.delayBlocks
  sighash : recoveryDigest metadata attempt.prepared.withdrawalXonlyPubkey attempt.delayBlocks =
    .ok attempt.request.sighash

/-- What the attempt is for agrees with the coin. -/
def PurposeInv (coin : WalletCoin P) (metadata : CoinMetadata P) (attempt : RecoveryAttempt P) :
    RecoveryPurpose → Prop
  | .fund nextCapability withdrawalSecret =>
    (∃ funding, coin.funding = some funding ∧ funding.stage = .prepared ∧
      attempt.delayBlocks = funding.delayBlocks) ∧
    attempt.request.nextCapabilityHash = capabilityHash nextCapability ∧
    ∃ key, P.secretKeyFromSlice withdrawalSecret = some key ∧
      attempt.prepared.withdrawalXonlyPubkey = secretXonly key
  | .transfer request =>
    WalletState.FitsCoin request metadata.network coin metadata ∧
    request.parseNextCapabilityHash P = .ok attempt.request.nextCapabilityHash ∧
    request.withdrawalKey P = .ok attempt.prepared.withdrawalXonlyPubkey ∧
    WalletState.nextDelay coin.history = .ok attempt.delayBlocks ∧
    validateTransferPayloadSize (WalletState.transferPayload coin metadata Bytes32.max Bytes32.max
      (coin.history ++ [templateRecovery metadata attempt.prepared.withdrawalXonlyPubkey
        attempt.delayBlocks])) = .ok ()

/-- The journal of a signing request agrees with the coin. -/
def RecoveryInv (coin : WalletCoin P) (pending : PendingRecovery P) : Prop :=
  ∃ metadata, AttemptInv coin metadata pending.stage.attempt ∧
    PurposeInv coin metadata pending.stage.attempt pending.purpose

/-- The saved request came from `begin_transfer_request`. -/
def IncomingInv (P : Platform) (incoming : IncomingTransfer) : Prop :=
  ∃ (draws : WalletState.RequestDraws P) (network : NetworkId) (coinId : CoinId)
      (outpoint : OutPoint P.Txid) (expectedAmountSat minimumReactionBlocks : Nat),
    incoming = WalletState.incomingTransfer draws network coinId outpoint expectedAmountSat
      minimumReactionBlocks ∧
    delayStep ≤ minimumReactionBlocks ∧ incoming.request.validate P = .ok ()

/-- The saved registration came from `begin_registration`. -/
def RegistrationInv (secret : P.SecretKey) (capability : Capability)
    (registration : Registration P) : Prop :=
  ∃ coinId, registration = prepareRegistration coinId secret (capabilityHash capability)

/-- The invariant of the wallet. -/
structure WalletInv (s : WalletState P) : Prop where
  version : s.formatVersion = fileFormatVersion
  registration : ∀ secret capability registration,
    s.pending = some (.registration secret capability registration) →
    s.coin = none ∧ s.incoming = none ∧ RegistrationInv secret capability registration
  incoming : ∀ incoming, s.incoming = some incoming → s.coin = none ∧ s.pending = none ∧
    IncomingInv P incoming
  recovery : ∀ pending, s.pending = some (.recovery pending) →
    ∃ coin, s.coin = some coin ∧ RecoveryInv coin pending
  coin : ∀ coin, s.coin = some coin → CoinInv coin

/-! ## What never changes -/

/-- The order in which a funding goes through its stages. -/
def FundingStage.rank : FundingStage → Nat
  | prepared => 0
  | recoverySecured => 1
  | broadcast => 2

/-- What a later state keeps of a coin. -/
structure CoinEvolves (coin coin' : WalletCoin P) : Prop where
  keys : coin'.keys = coin.keys
  clientSecret : coin'.clientSecret = coin.clientSecret
  metadata : ∀ metadata, coin.metadata = some metadata → coin'.metadata = some metadata
  funding : ∀ funding, coin.funding = some funding → ∃ stage : FundingStage,
    coin'.funding = some { funding with stage } ∧ funding.stage.rank ≤ stage.rank
  received : coin.metadata ≠ none → coin.funding = none → coin'.funding = none
  owned : ∀ owned, coin.owned = some owned → coin'.owned = some owned
  outgoing : ∀ outgoing, coin.outgoing = some outgoing → coin'.outgoing = some outgoing

/-- What a later state keeps of the wallet. -/
def Evolves (s s' : WalletState P) : Prop :=
  ∀ coin, s.coin = some coin → ∃ coin', s'.coin = some coin' ∧ CoinEvolves coin coin'

theorem CoinEvolves.refl (coin : WalletCoin P) : CoinEvolves coin coin where
  keys := rfl
  clientSecret := rfl
  metadata := fun _ h => h
  funding := fun funding h => ⟨funding.stage, h, Nat.le_refl _⟩
  received := fun _ h => h
  owned := fun _ h => h
  outgoing := fun _ h => h

theorem CoinEvolves.trans {a b c : WalletCoin P} (h : CoinEvolves a b) (h' : CoinEvolves b c) :
    CoinEvolves a c where
  keys := h'.keys.trans h.keys
  clientSecret := h'.clientSecret.trans h.clientSecret
  metadata := fun m hm => h'.metadata m (h.metadata m hm)
  funding := by
    intro funding hf
    obtain ⟨stage, hf', hle⟩ := h.funding funding hf
    obtain ⟨stage', hf'', hle'⟩ := h'.funding _ hf'
    exact ⟨stage', hf'', Nat.le_trans hle hle'⟩
  received := by
    intro hm hf
    refine h'.received ?_ (h.received hm hf)
    obtain ⟨metadata, hmetadata⟩ := Option.ne_none_iff_exists'.1 hm
    rw [h.metadata metadata hmetadata]
    exact Option.some_ne_none _
  owned := fun x hx => h'.owned x (h.owned x hx)
  outgoing := fun x hx => h'.outgoing x (h.outgoing x hx)

theorem Evolves.refl (s : WalletState P) : Evolves s s :=
  fun coin h => ⟨coin, h, .refl coin⟩

theorem Evolves.trans {a b c : WalletState P} (h : Evolves a b) (h' : Evolves b c) :
    Evolves a c := by
  intro coin hcoin
  obtain ⟨coin', hcoin', he⟩ := h coin hcoin
  obtain ⟨coin'', hcoin'', he'⟩ := h' coin' hcoin'
  exact ⟨coin'', hcoin'', he.trans he'⟩

theorem Evolves.of_coin_none {s s' : WalletState P} (h : s.coin = none) : Evolves s s' := by
  intro coin hcoin
  rw [h] at hcoin
  cases hcoin

theorem Evolves.of_coin {s s' : WalletState P} {coin coin' : WalletCoin P}
    (h : s.coin = some coin) (h' : s'.coin = some coin') (he : CoinEvolves coin coin') :
    Evolves s s' := by
  intro c hc
  obtain rfl := Option.some.inj (h.symm.trans hc)
  exact ⟨coin', h', he⟩

theorem Evolves.of_coin_eq {s s' : WalletState P} (h : s'.coin = s.coin) : Evolves s s' :=
  fun coin hcoin => ⟨coin, h.trans hcoin, .refl coin⟩

/-! ## Consequences -/

/-- Nothing is pending for a coin that was handed on. -/
theorem WalletInv.transferred_idle {s : WalletState P} (h : WalletInv s) {coin : WalletCoin P}
    (hcoin : s.coin = some coin) (hout : coin.outgoing.isSome = true) : s.pending = none := by
  have hinv := h.coin coin hcoin
  cases hp : s.pending with
  | none => rfl
  | some pending =>
    cases pending with
    | registration secret capability registration =>
      rw [(h.registration secret capability registration hp).1] at hcoin
      cases hcoin
    | recovery pending =>
      obtain ⟨coin', hcoin', metadata, hattempt, _⟩ := h.recovery pending hp
      obtain rfl := Option.some.inj (hcoin.symm.trans hcoin')
      have := hinv.capability.2 hout
      rw [hattempt.capability] at this
      cases this

theorem WalletInv.validateVersion {s : WalletState P} (h : WalletInv s) :
    s.validateVersion = .ok () :=
  WalletState.validateVersion_eq_ok.2 ⟨h.version, fun coin hcoin => (h.coin coin hcoin).accepted⟩

theorem AttemptInv.outgoing {coin : WalletCoin P} {metadata : CoinMetadata P}
    {attempt : RecoveryAttempt P} (h : AttemptInv coin metadata attempt) (hinv : CoinInv coin) :
    coin.outgoing = none := by
  cases hout : coin.outgoing with
  | none => rfl
  | some outgoing =>
    have := hinv.capability.2 (by rw [hout]; rfl)
    rw [h.capability] at this
    cases this

theorem WalletCoin.owned_eq_some {coin : WalletCoin P} {recovery : SignedRecovery P}
    {secret : Bytes32} :
    coin.owned = some (recovery, secret) ↔
      ∃ index, coin.withdrawalRecoveryIndex = some index ∧
        coin.withdrawalSecret = some secret ∧ coin.history[index]? = some recovery := by
  unfold WalletCoin.owned
  cases coin.withdrawalRecoveryIndex <;> cases coin.withdrawalSecret <;>
    simp [and_comm, eq_comm]

end Tinylayer
