import Tinylayer.Client.Recovery

/-!
# Proofs: the client's checks

What each check of the client accepts, as a conjunction, and that a recovery that was prepared and
then signed by the coin's enclave key completes and verifies.
-/

namespace Tinylayer

variable {P : Platform}

@[simp] theorem verifySignature_eq_ok {signature : P.Signature} {sighash : P.Digest}
    {pubkey : P.XOnlyPublicKey} {error : Client.Error} {u : Unit} :
    verifySignature signature sighash pubkey error = .ok u ↔
      P.verifySchnorr signature sighash pubkey = true := by
  simp [verifySignature]

@[simp] theorem requireFutureDelay_eq_ok {confirmations delay : Nat} {u : Unit} :
    requireFutureDelay confirmations delay = .ok u ↔ confirmations < delay := by
  simp [requireFutureDelay]

@[simp] theorem validateReactionWindow_eq_ok {confirmations older newer : Nat} {u : Unit} :
    validateReactionWindow confirmations older newer = .ok u ↔
      older = newer + delayStep ∧ confirmations < newer := by
  simp only [validateReactionWindow, Except.bind_eq_ok, Except.ensure_eq_ok, checkedSub_eq_some,
    exists_unit, requireFutureDelay_eq_ok]
  omega

@[simp] theorem verifyStatus_eq_ok {keys : CoinKeys P} {status : CoinStatus P} {u : Unit} :
    verifyStatus keys status = .ok u ↔
      keys.Valid ∧ status.coinId = keys.coinId ∧ status.signingPubkey = keys.enclavePubkey := by
  simp [verifyStatus]

@[simp] theorem completeRegistration_eq_ok {registration : Registration P} {status : CoinStatus P}
    {keys : CoinKeys P} :
    completeRegistration registration status = .ok keys ↔
      registration.protocolVersion = protocolVersion ∧
      (status.coinId = registration.request.coinId ∧ status.signatureCount = 0 ∧
        status.authorization = authorization registration.request.coinId
          registration.request.initialCapabilityHash initialHandoff) ∧
      registration.clientPubkey ≠ status.signingPubkey ∧
      (⟨protocolVersion, registration.request.coinId, registration.clientPubkey,
        status.signingPubkey⟩ : CoinKeys P) = keys := by
  simp [completeRegistration, and_assoc]

@[simp] theorem verifySignResponse_eq_ok {request : SignRequest P} {previous : Nat}
    {status : CoinStatus P} {response : SignResponse P} {u : Unit} :
    verifySignResponse request previous status response = .ok u ↔
      previous + 1 ≤ u64Max ∧
      (status.coinId = request.coinId ∧ status.signatureCount = previous + 1 ∧
        status.authorization =
          authorization request.coinId request.nextCapabilityHash response.nextHandoff) ∧
      P.verifySchnorr response.signature request.sighash status.signingPubkey = true := by
  simp only [verifySignResponse, Except.bind_eq_ok, Except.context_eq_ok, checkedAdd_eq_some,
    Except.ensure_eq_ok, exists_unit, verifySignature_eq_ok]
  constructor
  · rintro ⟨_, ⟨hmax, rfl⟩, hstatus, hsig⟩
    exact ⟨hmax, hstatus, hsig⟩
  · rintro ⟨hmax, hstatus, hsig⟩
    exact ⟨_, ⟨hmax, rfl⟩, hstatus, hsig⟩

/-! ## Canonical recoveries -/

/-- The values for which there is a recovery transaction. -/
structure RecoveryTerms (outpoint : OutPoint P.Txid) (amountSat : Nat)
    (withdrawalKey : P.XOnlyPublicKey) (delayBlocks : Nat) : Prop where
  outpoint_notNull : P.isNull outpoint = false
  amount_le : amountSat ≤ maxMoney
  delay_lt : delayBlocks < 2 ^ 16
  delay_ne_zero : delayBlocks ≠ 0
  not_dust : P.minimalNonDust (P.newP2tr withdrawalKey) ≤ amountSat

@[simp] theorem canonicalRecovery_eq_ok {outpoint : OutPoint P.Txid} {amountSat : Nat}
    {key : P.XOnlyPublicKey} {delay : Nat} {tx : P.Tx} :
    canonicalRecovery outpoint amountSat key delay = .ok tx ↔
      RecoveryTerms outpoint amountSat key delay ∧
        recoveryTransaction outpoint amountSat key delay = tx := by
  simp only [canonicalRecovery, Except.bind_eq_ok, Except.ensure_eq_ok, exists_unit,
    Except.pure_eq_ok]
  constructor
  · rintro ⟨h1, h2, h3, h4, h5, rfl⟩
    exact ⟨⟨h1, h2, h3, h4, h5⟩, rfl⟩
  · rintro ⟨⟨h1, h2, h3, h4, h5⟩, rfl⟩
    exact ⟨h1, h2, h3, h4, h5, rfl⟩

@[simp] theorem stripWitness_stripWitness (tx : P.Tx) :
    tx.stripWitness.stripWitness = tx.stripWitness := by
  simp [Transaction.stripWitness]

@[simp] theorem stripWitness_recoveryTransaction {outpoint : OutPoint P.Txid} {amountSat : Nat}
    {key : P.XOnlyPublicKey} {delay : Nat} :
    (recoveryTransaction outpoint amountSat key delay).stripWitness =
      recoveryTransaction outpoint amountSat key delay := rfl

theorem recoverySighash_eq_ok {tx : P.Tx} {amountSat : Nat} {keys : CoinKeys P}
    {digest : P.Digest} :
    recoverySighash tx amountSat keys = .ok digest ↔
      P.scriptSpendSighash tx.stripWitness 0 [⟨amountSat, fundingScript keys⟩]
        (P.tapLeafHash (fundingTapscript keys)) = some digest :=
  Except.context_eq_ok

theorem recoverySighash_stripWitness {tx : P.Tx} {amountSat : Nat} {keys : CoinKeys P} :
    recoverySighash tx.stripWitness amountSat keys = recoverySighash tx amountSat keys := by
  simp [recoverySighash]

/-- Recoveries with different delays are different. -/
theorem recoveryTransaction_delay {o o' : OutPoint P.Txid} {a a' : Nat} {k k' : P.XOnlyPublicKey}
    {d d' : Nat} (h : recoveryTransaction o a k d = recoveryTransaction o' a' k' d') : d = d' := by
  simp only [recoveryTransaction, Transaction.mk.injEq, List.cons.injEq, TxIn.mk.injEq] at h
  exact h.2.2.1.1.2.2.1

/-! ## Signed recoveries -/

/-- The four witness items of a signed recovery. -/
structure Witnesses (keys : CoinKeys P) (sighash : P.Digest) (witness : List (List UInt8)) :
    Prop where
  items : ∃ enclaveBytes clientBytes enclaveSignature clientSignature,
    witness = [enclaveBytes, clientBytes, fundingTapscript keys,
      P.controlBlockSerialize (fundingControlBlock keys)] ∧
    enclaveBytes.length = 64 ∧ clientBytes.length = 64 ∧
    P.signatureFromSlice enclaveBytes = some enclaveSignature ∧
    P.signatureFromSlice clientBytes = some clientSignature ∧
    P.verifySchnorr enclaveSignature sighash keys.enclavePubkey = true ∧
    P.verifySchnorr clientSignature sighash keys.clientPubkey = true
  control : P.controlBlockDecode (P.controlBlockSerialize (fundingControlBlock keys)) =
    some (fundingControlBlock keys)
  commitment : P.verifyTaprootCommitment (fundingControlBlock keys) (fundingOutputKey keys)
    (fundingTapscript keys) = true

theorem verifySignedRecovery_eq_ok {tx : P.Tx} {amountSat : Nat} {keys : CoinKeys P} {u : Unit} :
    verifySignedRecovery tx amountSat keys = .ok u ↔
      keys.Valid ∧ ∃ input sighash, tx.input = [input] ∧
        recoverySighash tx amountSat keys = .ok sighash ∧
        Witnesses keys sighash input.witness := by
  unfold verifySignedRecovery
  simp only [Except.bind_eq_ok, CoinKeys.validate_eq_ok, exists_unit]
  refine and_congr_right fun _ => ?_
  split
  case h_1 input hinput =>
    constructor
    · intro h
      split at h
      · rename_i e c s k hwitness
        simp only [Except.bind_eq_ok, Except.ensure_eq_ok, exists_unit, Except.context_eq_ok,
          verifySignature_eq_ok] at h
        obtain ⟨⟨he, hc⟩, ⟨rfl, rfl⟩, control, hdecode, ⟨rfl, hcommit⟩, es, hes, cs, hcs, sighash,
          hsighash, hve, hvc⟩ := h
        exact ⟨input, sighash, hinput, hsighash,
          ⟨e, c, es, cs, hwitness, he, hc, hes, hcs, hve, hvc⟩, hdecode, hcommit⟩
      · simp at h
    · rintro ⟨input', sighash, hi, hsighash, ⟨e, c, es, cs, hw, he, hc, hes, hcs, hve, hvc⟩,
        hdecode, hcommit⟩
      obtain rfl : input = input' := (List.cons.inj (hinput.symm.trans hi)).1
      simp [hw, he, hc, hes, hcs, hve, hvc, hdecode, hcommit, hsighash]
  case h_2 hne =>
    constructor
    · intro h
      simp at h
    · rintro ⟨input, _, hi, _⟩
      exact absurd hi (hne input)

/-- The signature hash that a recovery of the coin has to be signed for. -/
def recoveryDigest (metadata : CoinMetadata P) (key : P.XOnlyPublicKey) (delay : Nat) :
    Except Client.Error P.Digest :=
  recoverySighash (recoveryTransaction metadata.outpoint metadata.amountSat key delay)
    metadata.amountSat metadata.keys

/-- What `verify_recovery` accepts. -/
structure VerifiedRecovery (metadata : CoinMetadata P) (recovery : SignedRecovery P) : Prop where
  keys : metadata.keys.Valid
  terms : RecoveryTerms metadata.outpoint metadata.amountSat recovery.withdrawalXonlyPubkey
    recovery.delayBlocks
  stripped : recovery.transaction.stripWitness =
    recoveryTransaction metadata.outpoint metadata.amountSat recovery.withdrawalXonlyPubkey
      recovery.delayBlocks
  signed : ∃ input sighash, recovery.transaction.input = [input] ∧
    recoveryDigest metadata recovery.withdrawalXonlyPubkey recovery.delayBlocks = .ok sighash ∧
    Witnesses metadata.keys sighash input.witness

@[simp] theorem verifyRecovery_eq_ok {metadata : CoinMetadata P} {recovery : SignedRecovery P}
    {u : Unit} :
    verifyRecovery metadata recovery = .ok u ↔ VerifiedRecovery metadata recovery := by
  simp only [verifyRecovery, Except.bind_eq_ok, CoinMetadata.validate_eq_ok, exists_unit,
    canonicalRecovery_eq_ok, Except.ensure_eq_ok, verifySignedRecovery_eq_ok]
  constructor
  · rintro ⟨hkeys, _, ⟨hterms, rfl⟩, _, hstrip, _, input, sighash, hinput, hsighash, hwitness⟩
    refine ⟨hkeys, hterms, hstrip, input, sighash, hinput, ?_, hwitness⟩
    rw [recoveryDigest, ← hstrip, recoverySighash_stripWitness, hsighash]
  · rintro ⟨hkeys, hterms, hstrip, input, sighash, hinput, hsighash, hwitness⟩
    refine ⟨hkeys, _, ⟨hterms, rfl⟩, by simp [hinput], hstrip, hkeys, input, sighash, hinput, ?_,
      hwitness⟩
    rw [← recoverySighash_stripWitness, hstrip]
    exact hsighash

/-- The recovery transaction pays its key, and has one input and one output. -/
theorem VerifiedRecovery.output {metadata : CoinMetadata P} {recovery : SignedRecovery P}
    (h : VerifiedRecovery metadata recovery) :
    recovery.transaction.output =
      [{ value := metadata.amountSat
         scriptPubkey := P.newP2tr recovery.withdrawalXonlyPubkey }] :=
  congrArg Transaction.output h.stripped

/-- An enclave signature on the digest of the recovery is among its witness items. -/
theorem VerifiedRecovery.enclaveSignature {metadata : CoinMetadata P} {recovery : SignedRecovery P}
    (h : VerifiedRecovery metadata recovery) :
    ∃ input bytes signature sighash, recovery.transaction.input = [input] ∧
      input.witness.head? = some bytes ∧ P.signatureFromSlice bytes = some signature ∧
      recoveryDigest metadata recovery.withdrawalXonlyPubkey recovery.delayBlocks = .ok sighash ∧
      P.verifySchnorr signature sighash metadata.keys.enclavePubkey = true := by
  obtain ⟨input, sighash, hinput, hsighash, ⟨e, c, es, cs, hw, he, hc, hes, hcs, hve, hvc⟩, _⟩ :=
    h.signed
  exact ⟨input, e, es, sighash, hinput, by rw [hw]; rfl, hes, hsighash, hve⟩

/-! ## Signing a recovery -/

/-- The request for the signature on a recovery. -/
def recoveryRequest (metadata : CoinMetadata P) (capability : Capability) (handoff : HandoffToken)
    (nextCapabilityHash sighash : P.Digest) : SignRequest P where
  coinId := metadata.keys.coinId
  currentCapability := capability
  currentHandoff := handoff
  nextCapabilityHash := nextCapabilityHash
  sighash := sighash

/-- The unsigned recovery with its request. -/
def unsignedRecovery (metadata : CoinMetadata P) (request : SignRequest P)
    (key : P.XOnlyPublicKey) (delay : Nat) : PreparedRecovery P where
  request := request
  metadata := metadata
  transaction := recoveryTransaction metadata.outpoint metadata.amountSat key delay
  withdrawalXonlyPubkey := key
  delayBlocks := delay

theorem prepareRecovery_eq_ok {metadata : CoinMetadata P} {status : CoinStatus P}
    {secret : P.SecretKey} {capability : Capability} {handoff : HandoffToken}
    {nextCapabilityHash : P.Digest} {key : P.XOnlyPublicKey} {delay confirmations : Nat}
    {request : SignRequest P} {prepared : PreparedRecovery P} :
    prepareRecovery metadata status secret capability handoff nextCapabilityHash key delay
        confirmations = .ok (request, prepared) ↔
      (metadata.keys.Valid ∧ status.coinId = metadata.keys.coinId ∧
        status.signingPubkey = metadata.keys.enclavePubkey) ∧
      status.authorization =
        authorization metadata.keys.coinId (capabilityHash capability) handoff ∧
      nextCapabilityHash ≠ capabilityHash capability ∧ confirmations < delay ∧
      P.xOnlyPublicKey secret = metadata.keys.clientPubkey ∧
      RecoveryTerms metadata.outpoint metadata.amountSat key delay ∧
      ∃ sighash, recoveryDigest metadata key delay = .ok sighash ∧
        request = recoveryRequest metadata capability handoff nextCapabilityHash sighash ∧
        prepared = unsignedRecovery metadata request key delay := by
  simp only [prepareRecovery, Except.bind_eq_ok, CoinMetadata.validate_eq_ok, exists_unit,
    verifyStatus_eq_ok, Except.ensure_eq_ok, requireFutureDelay_eq_ok, canonicalRecovery_eq_ok,
    Except.pure_eq_ok, clientXonly]
  constructor
  · rintro ⟨_, hstatus, hauth, hne, hlt, hsecret, _, ⟨hterms, rfl⟩, sighash, hsighash, heq⟩
    cases heq
    exact ⟨hstatus, hauth, hne, hlt, Except.ensure_eq_ok.1 hsecret, hterms, sighash, hsighash, rfl,
      rfl⟩
  · rintro ⟨hstatus, hauth, hne, hlt, hsecret, hterms, sighash, hsighash, rfl, rfl⟩
    exact ⟨hstatus.1, hstatus, hauth, hne, hlt, Except.ensure_eq_ok.2 hsecret, _, ⟨hterms, rfl⟩,
      sighash, hsighash, rfl⟩

/-- The recovery transaction with the four items of its witness. -/
def signedTransaction (metadata : CoinMetadata P) (key : P.XOnlyPublicKey) (delay : Nat)
    (enclaveBytes clientBytes : List UInt8) : P.Tx :=
  { recoveryTransaction metadata.outpoint metadata.amountSat key delay with
    input := [
      { previousOutput := metadata.outpoint
        scriptSig := []
        sequence := delay
        witness := [enclaveBytes, clientBytes, fundingTapscript metadata.keys,
          P.controlBlockSerialize (fundingControlBlock metadata.keys)] }] }

/-- The recovery that is completed with the enclave's signature. -/
def signedRecovery (metadata : CoinMetadata P) (key : P.XOnlyPublicKey) (delay : Nat)
    (signature : P.Signature) (secret : P.SecretKey) (sighash : P.Digest) : SignedRecovery P where
  transaction := signedTransaction metadata key delay (P.signatureBytes signature)
    (P.signatureBytes (P.signSchnorr secret sighash))
  withdrawalXonlyPubkey := key
  delayBlocks := delay

/-- The recovery that stands for the completed one before there are signatures. -/
def templateRecovery (metadata : CoinMetadata P) (key : P.XOnlyPublicKey) (delay : Nat) :
    SignedRecovery P where
  transaction := signedTransaction metadata key delay (List.replicate 64 0xff)
    (List.replicate 64 0xff)
  withdrawalXonlyPubkey := key
  delayBlocks := delay

theorem recoverySerializationTemplate_unsignedRecovery {metadata : CoinMetadata P}
    {request : SignRequest P} {key : P.XOnlyPublicKey} {delay : Nat} :
    (unsignedRecovery metadata request key delay).recoverySerializationTemplate =
      .ok (templateRecovery metadata key delay) := rfl

theorem stripWitness_signedTransaction {metadata : CoinMetadata P} {key : P.XOnlyPublicKey}
    {delay : Nat} {enclaveBytes clientBytes : List UInt8} :
    (signedTransaction metadata key delay enclaveBytes clientBytes).stripWitness =
      recoveryTransaction metadata.outpoint metadata.amountSat key delay := rfl

theorem recoverySighash_signedTransaction {metadata : CoinMetadata P} {key : P.XOnlyPublicKey}
    {delay : Nat} {enclaveBytes clientBytes : List UInt8} :
    recoverySighash (signedTransaction metadata key delay enclaveBytes clientBytes)
      metadata.amountSat metadata.keys = recoveryDigest metadata key delay := by
  rw [← recoverySighash_stripWitness, stripWitness_signedTransaction]
  rfl

/-- What `complete_recovery` checks, and the recovery it returns. -/
theorem completeRecovery_eq_ok {request : SignRequest P} {response : SignResponse P}
    {prepared : PreparedRecovery P} {secret : P.SecretKey} {recovery : SignedRecovery P} :
    completeRecovery request response prepared secret = .ok recovery ↔
      prepared.request = request ∧ request.coinId = prepared.metadata.keys.coinId ∧
      P.xOnlyPublicKey secret = prepared.metadata.keys.clientPubkey ∧
      prepared.transaction = recoveryTransaction prepared.metadata.outpoint
        prepared.metadata.amountSat prepared.withdrawalXonlyPubkey prepared.delayBlocks ∧
      P.verifySchnorr response.signature request.sighash prepared.metadata.keys.enclavePubkey =
        true ∧
      recoveryDigest prepared.metadata prepared.withdrawalXonlyPubkey prepared.delayBlocks =
        .ok request.sighash ∧
      recovery = signedRecovery prepared.metadata prepared.withdrawalXonlyPubkey
        prepared.delayBlocks response.signature secret request.sighash ∧
      VerifiedRecovery prepared.metadata recovery := by
  obtain ⟨prequest, metadata, transaction, key, delay⟩ := prepared
  simp only [completeRecovery, Except.bind_eq_ok, Except.ensure_eq_ok, exists_unit,
    CoinMetadata.validate_eq_ok, canonicalRecovery_eq_ok, verifySignature_eq_ok, clientXonly,
    Except.pure_eq_ok]
  constructor
  · rintro ⟨hreq, hkeys, hid, hsecret, _, ⟨hterms, rfl⟩, rfl, sighash, hsighash, rfl, hverify, tx,
      htx, hsigned, rfl⟩
    obtain rfl : signedTransaction metadata key delay (P.signatureBytes response.signature)
        (P.signatureBytes (P.signSchnorr secret request.sighash)) = tx := Except.ok.inj htx
    obtain ⟨_, input, sighash', hinput, hsighash', hwitness⟩ := verifySignedRecovery_eq_ok.1 hsigned
    rw [recoverySighash_signedTransaction] at hsighash'
    exact ⟨hreq, hid, Except.ensure_eq_ok.1 hsecret, rfl, hverify, hsighash, rfl,
      ⟨hkeys, hterms, rfl, input, sighash', hinput, hsighash', hwitness⟩⟩
  · rintro ⟨hreq, hid, hsecret, rfl, hverify, hsighash, rfl, hver⟩
    obtain ⟨input, sighash', hinput, hsighash', hwitness⟩ := hver.signed
    refine ⟨hreq, hver.keys, hid, Except.ensure_eq_ok.2 hsecret, _, ⟨hver.terms, rfl⟩, rfl, _,
      hsighash, rfl, hverify, _, rfl, ?_, rfl⟩
    exact verifySignedRecovery_eq_ok.2 ⟨hver.keys, input, sighash', hinput,
      recoverySighash_signedTransaction.trans hsighash', hwitness⟩

theorem VerifiedRecovery.of_complete {request : SignRequest P} {response : SignResponse P}
    {prepared : PreparedRecovery P} {secret : P.SecretKey} {recovery : SignedRecovery P}
    (h : completeRecovery request response prepared secret = .ok recovery) :
    VerifiedRecovery prepared.metadata recovery ∧
      recovery.withdrawalXonlyPubkey = prepared.withdrawalXonlyPubkey ∧
      recovery.delayBlocks = prepared.delayBlocks := by
  obtain ⟨_, _, _, _, _, _, rfl, hver⟩ := completeRecovery_eq_ok.1 h
  exact ⟨hver, rfl, rfl⟩

section Complete

variable (hschnorr : P.SchnorrCorrect) (hcodec : P.SignatureCodec) (htaproot : P.TaprootLaws)
include hschnorr hcodec htaproot

/-- A recovery that carries the enclave's signature on its digest verifies. -/
theorem VerifiedRecovery.of_signature {metadata : CoinMetadata P} {key : P.XOnlyPublicKey}
    {delay : Nat} {signature : P.Signature} {secret : P.SecretKey} {sighash : P.Digest}
    (hkeys : metadata.keys.Valid)
    (hterms : RecoveryTerms metadata.outpoint metadata.amountSat key delay)
    (hsecret : P.xOnlyPublicKey secret = metadata.keys.clientPubkey)
    (hsighash : recoveryDigest metadata key delay = .ok sighash)
    (hverify : P.verifySchnorr signature sighash metadata.keys.enclavePubkey = true) :
    VerifiedRecovery metadata (signedRecovery metadata key delay signature secret sighash) := by
  refine ⟨hkeys, hterms, rfl, _, sighash, rfl, hsighash, ?_⟩
  refine ⟨⟨_, _, signature, P.signSchnorr secret sighash, rfl, hcodec.length_eq _,
    hcodec.length_eq _, hcodec.fromSlice_bytes _, hcodec.fromSlice_bytes _, hverify, ?_⟩,
    htaproot.decode_serialize _, htaproot.commitment _ _⟩
  rw [← hsecret]
  exact hschnorr secret sighash

/-- What was prepared for signing completes with a valid signature. -/
theorem completeRecovery_of_prepared {metadata : CoinMetadata P} {status : CoinStatus P}
    {secret : P.SecretKey} {capability : Capability} {handoff : HandoffToken}
    {nextCapabilityHash : P.Digest} {key : P.XOnlyPublicKey} {delay confirmations : Nat}
    {request : SignRequest P} {prepared : PreparedRecovery P}
    (h : prepareRecovery metadata status secret capability handoff nextCapabilityHash key delay
      confirmations = .ok (request, prepared)) {response : SignResponse P}
    (hverify : P.verifySchnorr response.signature request.sighash metadata.keys.enclavePubkey =
      true) :
    completeRecovery request response prepared secret =
      .ok (signedRecovery metadata key delay response.signature secret request.sighash) := by
  obtain ⟨⟨hkeys, _, _⟩, _, _, _, hsecret, hterms, sighash, hsighash, rfl, rfl⟩ :=
    prepareRecovery_eq_ok.1 h
  exact completeRecovery_eq_ok.2 ⟨rfl, rfl, hsecret, rfl, hverify, hsighash, rfl,
    .of_signature hschnorr hcodec htaproot hkeys hterms hsecret hsighash hverify⟩

end Complete

/-! ## Histories -/

/-- Neighbouring recoveries are ten blocks apart, newer ones with the smaller delay. -/
def Ladder (history : List (SignedRecovery P)) : Prop :=
  history.IsChain fun older newer => older.delayBlocks = newer.delayBlocks + delayStep

/-- What `verify_history` and `verify_public_history` both check of the recoveries themselves. -/
structure VerifiedHistory (metadata : CoinMetadata P) (confirmations : Nat)
    (history : List (SignedRecovery P)) : Prop where
  recoveries : ∀ recovery ∈ history, VerifiedRecovery metadata recovery
  ladder : Ladder history
  immature : ∀ recovery ∈ history, confirmations < recovery.delayBlocks

/-- In a ladder whose last delay is in the future all delays are. -/
theorem Ladder.immature {history : List (SignedRecovery P)} (h : Ladder history)
    {confirmations : Nat} {latest : SignedRecovery P} (hlatest : history.getLast? = some latest)
    (hfuture : confirmations < latest.delayBlocks) :
    ∀ recovery ∈ history, confirmations < recovery.delayBlocks := by
  induction history with
  | nil => simp
  | cons a history ih =>
    cases history with
    | nil =>
      obtain rfl : a = latest := by simpa using hlatest
      simpa using hfuture
    | cons b history =>
      have hab := List.isChain_cons_cons.1 h
      have hlast : (b :: history).getLast? = some latest := by
        rw [← hlatest, List.getLast?_cons_cons]
      have hrest := ih hab.2 hlast
      have hb := hrest b (by simp)
      refine List.forall_mem_cons.2 ⟨?_, hrest⟩
      rw [hab.1]
      omega

/-- Later recoveries of a ladder have smaller delays. -/
theorem Ladder.pairwise {history : List (SignedRecovery P)} (h : Ladder history) :
    history.Pairwise fun older newer => newer.delayBlocks < older.delayBlocks := by
  have : Trans (fun a b : SignedRecovery P => b.delayBlocks < a.delayBlocks)
      (fun a b : SignedRecovery P => b.delayBlocks < a.delayBlocks)
      (fun a b : SignedRecovery P => b.delayBlocks < a.delayBlocks) :=
    ⟨fun h1 h2 => Nat.lt_trans h2 h1⟩
  refine List.isChain_iff_pairwise.1 (h.imp fun a b hab => ?_)
  simp only [delayStep] at hab
  omega

/-- One more recovery at the end of a ladder. -/
theorem Ladder.concat {history : List (SignedRecovery P)} (h : Ladder history)
    {recovery : SignedRecovery P}
    (hstep : ∀ latest ∈ history.getLast?,
      latest.delayBlocks = recovery.delayBlocks + delayStep) :
    Ladder (history ++ [recovery]) := by
  refine List.isChain_append.2 ⟨h, List.isChain_singleton _, ?_⟩
  intro x hx y hy
  obtain rfl : recovery = y := by simpa using hy
  exact hstep x hx

theorem verifiedHistory_iff {metadata : CoinMetadata P} {confirmations : Nat}
    {history : List (SignedRecovery P)} :
    ((∀ recovery ∈ history, VerifiedRecovery metadata recovery) ∧
      (∀ pair ∈ windows history, pair.1.delayBlocks = pair.2.delayBlocks + delayStep ∧
        confirmations < pair.2.delayBlocks) ∧
      ∃ latest, history.getLast? = some latest ∧ confirmations < latest.delayBlocks) ↔
    VerifiedHistory metadata confirmations history ∧ history ≠ [] := by
  have hwin := windows_forall (l := history) (R := fun a b : SignedRecovery P =>
    a.delayBlocks = b.delayBlocks + delayStep ∧ confirmations < b.delayBlocks)
  rw [hwin]
  constructor
  · rintro ⟨hrec, hchain, latest, hlatest, hfuture⟩
    have hladder : Ladder history := hchain.imp fun _ _ h => h.1
    refine ⟨⟨hrec, hladder, hladder.immature hlatest hfuture⟩, ?_⟩
    rintro rfl
    simp at hlatest
  · rintro ⟨⟨hrec, hladder, himm⟩, hne⟩
    have hmem : ∀ b ∈ history, confirmations < b.delayBlocks := himm
    refine ⟨hrec, ?_, history.getLast hne, List.getLast?_eq_some_getLast hne,
      himm _ (List.getLast_mem hne)⟩
    refine List.isChain_iff_forall_rel_of_append_cons_cons.2 ?_
    intro a b l₁ l₂ heq
    refine ⟨List.isChain_iff_forall_rel_of_append_cons_cons.1 hladder heq, himm b ?_⟩
    simp [heq]

theorem verifyHistory_eq_ok {metadata : CoinMetadata P} {status : CoinStatus P}
    {clientSecret : P.SecretKey} {capability : Capability} {handoff : HandoffToken}
    {expected : P.XOnlyPublicKey} {confirmations : Nat} {history : List (SignedRecovery P)}
    {u : Unit} :
    verifyHistory metadata status clientSecret capability handoff expected confirmations history =
        .ok u ↔
      (metadata.keys.Valid ∧ status.coinId = metadata.keys.coinId ∧
        status.signingPubkey = metadata.keys.enclavePubkey) ∧
      P.xOnlyPublicKey clientSecret = metadata.keys.clientPubkey ∧
      (status.authorization =
          authorization metadata.keys.coinId (capabilityHash capability) handoff ∧
        status.signatureCount = history.length ∧
        history.getLast?.map (fun recovery => recovery.withdrawalXonlyPubkey) = some expected) ∧
      VerifiedHistory metadata confirmations history ∧ history ≠ [] := by
  rw [← verifiedHistory_iff]
  simp only [verifyHistory, Except.bind_eq_ok, verifyStatus_eq_ok, exists_unit,
    Except.ensure_eq_ok, Except.checkAll_eq_ok, verifyRecovery_eq_ok,
    validateReactionWindow_eq_ok, Option.mem_def]
  exact Iff.rfl

end Tinylayer
