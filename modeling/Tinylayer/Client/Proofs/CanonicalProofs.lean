import Tinylayer.Client.Proofs.RecoveryProofs
import Tinylayer.Symbolic

/-!
# Proofs: the canonical recovery

A recovery that the client accepts is the canonical transaction of its coin, its key and its delay
with a witness of four items, so that only the two signatures are left open.
-/

namespace Tinylayer

variable {P : Platform} {metadata : CoinMetadata P} {recovery recovery' : SignedRecovery P}

/-- The witness that carries two signatures of a recovery. -/
def recoveryWitness (keys : CoinKeys P) (enclaveBytes clientBytes : List UInt8) :
    List (List UInt8) :=
  [enclaveBytes, clientBytes, fundingTapscript keys,
    P.controlBlockSerialize (fundingControlBlock keys)]

/-- The 64 bytes are a signature of `digest` by the owner of `key`. -/
structure ValidSignature (bytes : List UInt8) (digest : P.Digest) (key : P.XOnlyPublicKey) : Prop where
  length : bytes.length = 64
  verifies : ∃ signature, P.signatureFromSlice bytes = some signature ∧
    P.verifySchnorr signature digest key = true

/-- The witness has exactly these four items, with two valid signatures. -/
structure ExactWitness (keys : CoinKeys P) (digest : P.Digest) (witness : List (List UInt8)) :
    Prop where
  items : ∃ enclaveBytes clientBytes, witness = recoveryWitness keys enclaveBytes clientBytes ∧
    ValidSignature enclaveBytes digest keys.enclavePubkey ∧
    ValidSignature clientBytes digest keys.clientPubkey

theorem witnesses_iff (htaproot : P.TaprootLaws) {keys : CoinKeys P} {digest : P.Digest}
    {witness : List (List UInt8)} :
    Witnesses keys digest witness ↔ ExactWitness keys digest witness := by
  constructor
  · rintro ⟨⟨e, k, es, ks, rfl, he, hk, hes, hks, hve, hvk⟩, _, _⟩
    exact ⟨e, k, rfl, ⟨he, es, hes, hve⟩, ⟨hk, ks, hks, hvk⟩⟩
  · rintro ⟨e, k, rfl, ⟨he, es, hes, hve⟩, ⟨hk, ks, hks, hvk⟩⟩
    exact ⟨⟨e, k, es, ks, rfl, he, hk, hes, hks, hve, hvk⟩, htaproot.decode_serialize _,
      htaproot.commitment _ _⟩

/-- A transaction with one input is its stripped form with its witness put back. -/
theorem Transaction.eq_withWitness {tx : P.Tx} {input : TxIn P.Txid} (h : tx.input = [input]) :
    tx = tx.stripWitness.withWitness input.witness := by
  obtain ⟨version, lockTime, inputs, outputs⟩ := tx
  cases h
  rfl

theorem Transaction.stripWitness_withWitness (tx : P.Tx) (witness : List (List UInt8)) :
    (tx.withWitness witness).stripWitness = tx.stripWitness := by
  simp [Transaction.withWitness, Transaction.stripWitness]

/-- What `verify_recovery` accepts, with the transaction written out. -/
theorem verifiedRecovery_iff (htaproot : P.TaprootLaws) :
    VerifiedRecovery metadata recovery ↔
      metadata.keys.Valid ∧
      RecoveryTerms metadata.outpoint metadata.amountSat recovery.withdrawalXonlyPubkey
        recovery.delayBlocks ∧
      ∃ witness digest, recovery.transaction =
          (recoveryTransaction metadata.outpoint metadata.amountSat
            recovery.withdrawalXonlyPubkey recovery.delayBlocks).withWitness witness ∧
        recoveryDigest metadata recovery.withdrawalXonlyPubkey recovery.delayBlocks =
          .ok digest ∧
        ExactWitness metadata.keys digest witness := by
  constructor
  · rintro ⟨hkeys, hterms, hstripped, input, digest, hinput, hdigest, hwitness⟩
    refine ⟨hkeys, hterms, input.witness, digest, ?_, hdigest, (witnesses_iff htaproot).1 hwitness⟩
    rw [← hstripped]
    exact Transaction.eq_withWitness hinput
  · rintro ⟨hkeys, hterms, witness, digest, htransaction, hdigest, hwitness⟩
    refine ⟨hkeys, hterms, ?_, _, digest, by rw [htransaction]; rfl, hdigest,
      (witnesses_iff htaproot).2 hwitness⟩
    rw [htransaction, Transaction.stripWitness_withWitness, stripWitness_recoveryTransaction]

/-- Accepted recoveries of a coin with the same key and delay have the same transaction id. -/
theorem VerifiedRecovery.txid_eq (h : VerifiedRecovery metadata recovery)
    (h' : VerifiedRecovery metadata recovery')
    (hkey : recovery.withdrawalXonlyPubkey = recovery'.withdrawalXonlyPubkey)
    (hdelay : recovery.delayBlocks = recovery'.delayBlocks) :
    P.computeTxid recovery.transaction = P.computeTxid recovery'.transaction := by
  rw [Platform.computeTxid, Platform.computeTxid, h.stripped, h'.stripped, hkey, hdelay]

/-- A transaction id determines the delay of an accepted recovery. -/
theorem VerifiedRecovery.delay_of_txid_eq (htxid : P.TxidCollisionFree)
    (h : VerifiedRecovery metadata recovery) (h' : VerifiedRecovery metadata recovery')
    (heq : P.computeTxid recovery.transaction = P.computeTxid recovery'.transaction) :
    recovery.delayBlocks = recovery'.delayBlocks := by
  have hsame := htxid _ _ heq
  rw [h.stripped, h'.stripped] at hsame
  exact recoveryTransaction_delay hsame

/-- A transaction id determines the key and the delay of an accepted recovery. -/
theorem VerifiedRecovery.of_txid_eq (htxid : P.TxidCollisionFree) (hscript : P.P2trInjective)
    (h : VerifiedRecovery metadata recovery) (h' : VerifiedRecovery metadata recovery')
    (heq : P.computeTxid recovery.transaction = P.computeTxid recovery'.transaction) :
    recovery.withdrawalXonlyPubkey = recovery'.withdrawalXonlyPubkey ∧
      recovery.delayBlocks = recovery'.delayBlocks := by
  have hsame := htxid _ _ heq
  rw [h.stripped, h'.stripped] at hsame
  refine ⟨?_, h.delay_of_txid_eq htxid h' heq⟩
  have houtput := congrArg Transaction.output hsame
  simp only [recoveryTransaction, List.cons.injEq, TxOut.mk.injEq, true_and, and_true] at houtput
  exact hscript houtput

/-- `verify_recovery` accepts exactly the canonical transaction with a four-item witness, and the
accepted transaction id stands for the key and the delay. -/
theorem verify_recovery_exact (metadata : CoinMetadata P) :
    (P.TaprootLaws → ∀ recovery : SignedRecovery P, verifyRecovery metadata recovery = .ok () ↔
      metadata.keys.validate = .ok () ∧ ∃ canonical digest enclaveBytes clientBytes,
        canonicalRecovery metadata.outpoint metadata.amountSat recovery.withdrawalXonlyPubkey
          recovery.delayBlocks = .ok canonical ∧
        recovery.transaction =
          canonical.withWitness (recoveryWitness metadata.keys enclaveBytes clientBytes) ∧
        recoverySighash canonical metadata.amountSat metadata.keys = .ok digest ∧
        ValidSignature enclaveBytes digest metadata.keys.enclavePubkey ∧
        ValidSignature clientBytes digest metadata.keys.clientPubkey) ∧
    ∀ recovery recovery' : SignedRecovery P, verifyRecovery metadata recovery = .ok () →
      verifyRecovery metadata recovery' = .ok () →
      (recovery.withdrawalXonlyPubkey = recovery'.withdrawalXonlyPubkey →
        recovery.delayBlocks = recovery'.delayBlocks →
        P.computeTxid recovery.transaction = P.computeTxid recovery'.transaction) ∧
      (P.TxidCollisionFree → P.P2trInjective →
        P.computeTxid recovery.transaction = P.computeTxid recovery'.transaction →
        recovery.withdrawalXonlyPubkey = recovery'.withdrawalXonlyPubkey ∧
          recovery.delayBlocks = recovery'.delayBlocks) := by
  refine ⟨fun htaproot recovery => ?_, fun recovery recovery' h h' => ?_⟩
  · rw [verifyRecovery_eq_ok, verifiedRecovery_iff htaproot, CoinKeys.validate_eq_ok]
    refine and_congr_right fun _ => ?_
    simp only [canonicalRecovery_eq_ok]
    constructor
    · rintro ⟨hterms, _, digest, htransaction, hdigest, e, k, rfl, he, hk⟩
      exact ⟨_, digest, e, k, ⟨hterms, rfl⟩, htransaction, hdigest, he, hk⟩
    · rintro ⟨_, digest, e, k, ⟨hterms, rfl⟩, htransaction, hdigest, he, hk⟩
      exact ⟨hterms, _, digest, htransaction, hdigest, e, k, rfl, he, hk⟩
  · rw [verifyRecovery_eq_ok] at h h'
    exact ⟨h.txid_eq h', fun htxid hscript => h.of_txid_eq htxid hscript h'⟩

/-! ## Two recoveries -/

section Demo

open Symbolic

/-- A coin whose client key is 2 and whose enclave key is 9. -/
def exactMetadata : CoinMetadata exactPlatform where
  keys := ⟨1, bytes 1, (bytes 2).toList, (bytes 9).toList⟩
  network := .regtest
  outpoint := ⟨(5 : Nat), 0⟩
  amountSat := 1000

def exactDigest (owner : UInt8) (delay : Nat) : exactPlatform.Digest :=
  (recoveryDigest exactMetadata (bytes owner).toList delay).toOption.getD []

/-- The recovery that pays `owner` after `delay` blocks. -/
def exactRecovery (owner : UInt8) (delay : Nat) : SignedRecovery exactPlatform :=
  signedRecovery exactMetadata (bytes owner).toList delay
    (exactPlatform.signSchnorr (bytes 9) (exactDigest owner delay)) (bytes 2)
    (exactDigest owner delay)

theorem verifyRecovery_exactRecovery :
    verifyRecovery exactMetadata (exactRecovery 4 100) = .ok () ∧
      verifyRecovery exactMetadata (exactRecovery 5 90) = .ok () := by
  decide +kernel

theorem verify_recovery_exact_two :
    verifyRecovery exactMetadata (exactRecovery 4 100) = .ok () ∧
      verifyRecovery exactMetadata (exactRecovery 5 90) = .ok () ∧
      exactPlatform.computeTxid (exactRecovery 4 100).transaction ≠
        exactPlatform.computeTxid (exactRecovery 5 90).transaction := by
  obtain ⟨hfirst, hsecond⟩ := verifyRecovery_exactRecovery
  refine ⟨hfirst, hsecond, fun heq => ?_⟩
  have hsame := ((verify_recovery_exact exactMetadata).2 _ _ hfirst hsecond).2 txidCollisionFree
    p2trInjective heq
  exact absurd hsame.2 (by decide)

end Demo

end Tinylayer
