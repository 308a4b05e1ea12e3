import Mathlib.Data.List.Perm.Subperm
import Tinylayer.Client.Proofs.RecoveryProofs
import Tinylayer.Enclave.Proofs.ChainProofs
import Tinylayer.Symbolic
import Tinylayer.Wallet.Validation

/-!
# Proofs: an accepted history is complete

A history that is accepted against the live status of the signer holds every signature that was
ever issued for the coin. The argument counts: the digests of the history are pairwise distinct,
since their delays are; each of them was issued; and the signer has issued no more of them than the
history is long.
-/

namespace Tinylayer

variable {P : Platform} {LIMIT : Nat}

@[simp] theorem requireReactionMargin_eq_ok {confirmations delay margin : Nat} {u : Unit} :
    requireReactionMargin confirmations delay margin = .ok u ↔
      confirmations + margin ≤ u32Max ∧ confirmations + margin < delay := by
  simp only [requireReactionMargin, Except.bind_eq_ok, Except.context_eq_ok, checkedAdd_eq_some,
    Except.ensure_eq_ok]
  constructor
  · rintro ⟨_, ⟨h1, rfl⟩, h2⟩
    exact ⟨h1, h2⟩
  · rintro ⟨h1, h2⟩
    exact ⟨_, ⟨h1, rfl⟩, h2⟩

/-- What `verify_history` and `verify_public_history` both establish. -/
structure AcceptedHistory (metadata : CoinMetadata P) (status : CoinStatus P)
    (history : List (SignedRecovery P)) : Prop where
  coinId_eq : status.coinId = metadata.keys.coinId
  signingPubkey_eq : status.signingPubkey = metadata.keys.enclavePubkey
  signatureCount_eq : status.signatureCount = history.length
  recoveries : ∀ recovery ∈ history, VerifiedRecovery metadata recovery
  ladder : Ladder history
  nonempty : history ≠ []

theorem AcceptedHistory.of_verifyHistory {metadata : CoinMetadata P} {status : CoinStatus P}
    {clientSecret : P.SecretKey} {capability : Capability} {handoff : HandoffToken}
    {expected : P.XOnlyPublicKey} {confirmations : Nat} {history : List (SignedRecovery P)}
    (h : verifyHistory metadata status clientSecret capability handoff expected confirmations
      history = .ok ()) : AcceptedHistory metadata status history := by
  obtain ⟨⟨_, hid, hkey⟩, _, ⟨_, hcount, _⟩, hver, hne⟩ := verifyHistory_eq_ok.1 h
  exact ⟨hid, hkey, hcount, hver.recoveries, hver.ladder, hne⟩

theorem verifyPublicHistory_eq_ok {metadata : CoinMetadata P} {status : CoinStatus P}
    {history : List (SignedRecovery P)} {confirmations margin : Nat} {u : Unit} :
    verifyPublicHistory metadata status history confirmations margin = .ok u ↔
      (metadata.keys.Valid ∧ status.coinId = metadata.keys.coinId ∧
        status.signingPubkey = metadata.keys.enclavePubkey) ∧
      status.signatureCount = history.length ∧
      VerifiedHistory metadata confirmations history ∧
      ∃ latest, history.getLast? = some latest ∧ confirmations + margin ≤ u32Max ∧
        confirmations + margin < latest.delayBlocks := by
  simp only [verifyPublicHistory, Except.bind_eq_ok, Client.lift_eq_ok, verifyStatus_eq_ok,
    exists_unit, Except.ensure_eq_ok, Except.context_eq_ok, Except.checkAll_eq_ok,
    verifyRecovery_eq_ok, validateReactionWindow_eq_ok, requireReactionMargin_eq_ok]
  refine and_congr_right fun _ => and_congr_right fun _ => ?_
  constructor
  · rintro ⟨latest, hlatest, hrec, hwin, hmax, hlt⟩
    have := verifiedHistory_iff.1 ⟨hrec, hwin, latest, hlatest, by omega⟩
    exact ⟨this.1, latest, hlatest, hmax, hlt⟩
  · rintro ⟨hver, latest, hlatest, hmax, hlt⟩
    have hne : history ≠ [] := by
      rintro rfl
      simp at hlatest
    obtain ⟨hrec, hwin, _⟩ := verifiedHistory_iff.2 ⟨hver, hne⟩
    exact ⟨latest, hlatest, hrec, hwin, hmax, hlt⟩

theorem AcceptedHistory.of_verifyPublicHistory {metadata : CoinMetadata P} {status : CoinStatus P}
    {history : List (SignedRecovery P)} {confirmations margin : Nat}
    (h : verifyPublicHistory metadata status history confirmations margin = .ok ()) :
    AcceptedHistory metadata status history := by
  obtain ⟨⟨_, hid, hkey⟩, hcount, hver, latest, hlatest, _⟩ := verifyPublicHistory_eq_ok.1 h
  refine ⟨hid, hkey, hcount, hver.recoveries, hver.ladder, ?_⟩
  rintro rfl
  simp at hlatest

/-- The enclave signature in the witness of a recovery. -/
def SignedRecovery.enclaveSignature (recovery : SignedRecovery P) : Option P.Signature :=
  match recovery.transaction.input with
  | [input] => input.witness.head?.bind P.signatureFromSlice
  | _ => none

/-- The digest that a recovery was signed for. -/
def SignedRecovery.sighash (recovery : SignedRecovery P) (metadata : CoinMetadata P) :
    Except Client.Error P.Digest :=
  recoverySighash recovery.transaction metadata.amountSat metadata.keys

theorem VerifiedRecovery.sighash_eq {metadata : CoinMetadata P} {recovery : SignedRecovery P}
    (h : VerifiedRecovery metadata recovery) :
    recovery.sighash metadata =
      recoveryDigest metadata recovery.withdrawalXonlyPubkey recovery.delayBlocks := by
  rw [SignedRecovery.sighash, ← recoverySighash_stripWitness, h.stripped]
  rfl

theorem VerifiedRecovery.enclaveSignature_eq {metadata : CoinMetadata P}
    {recovery : SignedRecovery P} (h : VerifiedRecovery metadata recovery) :
    ∃ signature digest, recovery.enclaveSignature = some signature ∧
      recovery.sighash metadata = .ok digest ∧
      P.verifySchnorr signature digest metadata.keys.enclavePubkey = true := by
  obtain ⟨input, bytes, signature, digest, hinput, hhead, hslice, hdigest, hver⟩ :=
    h.enclaveSignature
  refine ⟨signature, digest, ?_, h.sighash_eq.trans hdigest, hver⟩
  simp [SignedRecovery.enclaveSignature, hinput, hhead, hslice]

open Signer

/-- The recoveries of a ladder are signed for pairwise distinct digests. -/
theorem AcceptedHistory.sighash_nodup {metadata : CoinMetadata P} {status : CoinStatus P}
    {history : List (SignedRecovery P)} (h : AcceptedHistory metadata status history)
    (hsighash : ∀ tx tx' digest,
      recoverySighash tx metadata.amountSat metadata.keys = .ok digest →
      recoverySighash tx' metadata.amountSat metadata.keys = .ok digest →
      tx.stripWitness = tx'.stripWitness) :
    (history.map fun recovery => recovery.sighash metadata).Nodup := by
  rw [List.nodup_iff_pairwise_ne, List.pairwise_map]
  refine h.ladder.pairwise.imp_of_mem fun {a b} ha hb hlt heq => ?_
  obtain ⟨_, digest, _, hdigest, _⟩ := (h.recoveries a ha).enclaveSignature_eq
  have hstrip := hsighash _ _ digest hdigest (heq ▸ hdigest)
  rw [(h.recoveries a ha).stripped, (h.recoveries b hb).stripped] at hstrip
  have := recoveryTransaction_delay hstrip
  omega

/-- The last recovery of a ladder has the smallest delay. -/
theorem Ladder.latest {history : List (SignedRecovery P)} (h : Ladder history)
    {latest : SignedRecovery P} (hlatest : history.getLast? = some latest) :
    ∀ recovery ∈ history, recovery = latest ∨ latest.delayBlocks < recovery.delayBlocks := by
  obtain ⟨before, rfl⟩ := List.getLast?_eq_some_iff.1 hlatest
  intro recovery hmem
  rcases List.mem_append.1 hmem with hmem | hmem
  · exact Or.inr ((List.pairwise_append.1 h.pairwise).2.2 _ hmem _ (List.mem_singleton.2 rfl))
  · exact Or.inl (List.mem_singleton.1 hmem)

/-- No enclave signature is hidden from an accepted history. `seen` holds the signatures that
anybody has, each with the digests it is tried on; those of the history are among them, and one of
them verifies under the key of a coin only for a digest that was issued under this key. -/
theorem accepted_history_complete (calls : List (Call P)) (coinId : CoinId)
    (metadata : CoinMetadata P) (history : List (SignedRecovery P)) (status : CoinStatus P)
    (hstatus : ((new : Signer P LIMIT).run calls).status coinId = .ok status)
    (haccept :
      (∃ clientSecret capability handoff expected confirmations,
        verifyHistory metadata status clientSecret capability handoff expected confirmations
          history = .ok ()) ∨
      ∃ confirmations margin,
        verifyPublicHistory metadata status history confirmations margin = .ok ())
    (seen : P.Signature → P.Digest → Prop)
    (hseen : ∀ recovery ∈ history, ∀ signature digest,
      recovery.enclaveSignature = some signature → recovery.sighash metadata = .ok digest →
      seen signature digest)
    (hunforgeable : ∀ c coin, ((new : Signer P LIMIT).run calls).coins.lookup c = some coin →
      ∀ signature digest, seen signature digest →
        P.verifySchnorr signature digest (P.xOnlyPublicKey coin.signingKey) = true →
        ∃ c' coin', ((new : Signer P LIMIT).run calls).coins.lookup c' = some coin' ∧
          P.xOnlyPublicKey coin'.signingKey = P.xOnlyPublicKey coin.signingKey ∧
          ∃ entry ∈ issuances c' (new : Signer P LIMIT) calls, entry.1.sighash = digest)
    (hkeys : ∀ c c' coin coin', ((new : Signer P LIMIT).run calls).coins.lookup c = some coin →
      ((new : Signer P LIMIT).run calls).coins.lookup c' = some coin' →
      P.xOnlyPublicKey coin.signingKey = P.xOnlyPublicKey coin'.signingKey → c = c')
    (hsighash : ∀ tx tx' digest,
      recoverySighash tx metadata.amountSat metadata.keys = .ok digest →
      recoverySighash tx' metadata.amountSat metadata.keys = .ok digest →
      tx.stripWitness = tx'.stripWitness) :
    ((issuances coinId (new : Signer P LIMIT) calls).map fun entry => .ok entry.1.sighash).Perm
        (history.map fun recovery => recovery.sighash metadata) ∧
      ((issuances coinId (new : Signer P LIMIT) calls).map fun entry => entry.1.sighash).Nodup ∧
      (∀ signature digest, seen signature digest →
        P.verifySchnorr signature digest metadata.keys.enclavePubkey = true →
        ∃ recovery ∈ history, recovery.sighash metadata = .ok digest) ∧
      ∃ latest, history.getLast? = some latest ∧
        ∀ entry ∈ issuances coinId (new : Signer P LIMIT) calls, ∀ tx,
          recoverySighash tx metadata.amountSat metadata.keys = .ok entry.1.sighash →
          ∃ recovery ∈ history, tx.stripWitness = recovery.transaction.stripWitness ∧
            tx.input.map (fun input => input.sequence) = [recovery.delayBlocks] ∧
            (recovery = latest ∨ latest.delayBlocks < recovery.delayBlocks) := by
  obtain ⟨coin, hlookup, rfl⟩ := status_ok.1 hstatus
  have hrec := @recorded_run P LIMIT calls coinId
  obtain ⟨request, _, hcoin⟩ := hrec.of_lookup hlookup
  have haccepted : AcceptedHistory metadata (coin.status coinId) history := by
    rcases haccept with ⟨_, _, _, _, _, h⟩ | ⟨_, _, h⟩
    · exact .of_verifyHistory h
    · exact .of_verifyPublicHistory h
  have hkey : P.xOnlyPublicKey coin.signingKey = metadata.keys.enclavePubkey :=
    haccepted.signingPubkey_eq
  -- a seen signature of the coin was issued for it
  have hissued : ∀ signature digest, seen signature digest →
      P.verifySchnorr signature digest metadata.keys.enclavePubkey = true →
      ∃ entry ∈ issuances coinId (new : Signer P LIMIT) calls, entry.1.sighash = digest := by
    intro signature digest hs hv
    obtain ⟨c', coin', hl', hk', entry, hentry, hdigest⟩ :=
      hunforgeable coinId coin hlookup signature digest hs (by rw [hkey]; exact hv)
    obtain rfl := hkeys c' coinId coin' coin hl' hlookup hk'
    exact ⟨entry, hentry, hdigest⟩
  have hlength : (issuances coinId (new : Signer P LIMIT) calls).length = history.length := by
    have := haccepted.signatureCount_eq
    rw [hcoin] at this
    exact this
  have hsubset : (history.map fun recovery => recovery.sighash metadata) ⊆
      (issuances coinId (new : Signer P LIMIT) calls).map fun entry => .ok entry.1.sighash := by
    intro digest' hd
    obtain ⟨recovery, hrecovery, rfl⟩ := List.mem_map.1 hd
    obtain ⟨signature, digest, hsig, hdigest, hver⟩ :=
      (haccepted.recoveries recovery hrecovery).enclaveSignature_eq
    obtain ⟨entry, hentry, heq⟩ :=
      hissued signature digest (hseen recovery hrecovery signature digest hsig hdigest) hver
    exact List.mem_map.2 ⟨entry, hentry, by rw [hdigest, heq]⟩
  have hnodup := haccepted.sighash_nodup hsighash
  have hperm := ((List.subperm_of_subset hnodup hsubset).perm_of_length_le
    (by simp [hlength])).symm
  -- hence whatever was issued is in the history
  have hback : ∀ entry ∈ issuances coinId (new : Signer P LIMIT) calls,
      ∃ recovery ∈ history, recovery.sighash metadata = .ok entry.1.sighash := by
    intro entry hentry
    exact List.mem_map.1 (hperm.subset (List.mem_map.2 ⟨entry, hentry, rfl⟩))
  refine ⟨hperm, ?_, ?_, ?_⟩
  · have := hperm.nodup_iff.2 hnodup
    rw [show (fun entry : Issuance P => (.ok entry.1.sighash : Except Client.Error P.Digest)) =
      Except.ok ∘ fun entry => entry.1.sighash from rfl, ← List.map_map] at this
    exact this.of_map
  · intro signature digest hs hv
    obtain ⟨entry, hentry, rfl⟩ := hissued signature digest hs hv
    exact hback entry hentry
  · refine ⟨history.getLast haccepted.nonempty, List.getLast?_eq_some_getLast _, ?_⟩
    intro entry hentry tx htx
    obtain ⟨recovery, hrecovery, hdigest⟩ := hback entry hentry
    have hstrip := hsighash _ _ _ htx hdigest
    refine ⟨recovery, hrecovery, hstrip, ?_,
      haccepted.ladder.latest (List.getLast?_eq_some_getLast _) recovery hrecovery⟩
    rw [(haccepted.recoveries recovery hrecovery).stripped] at hstrip
    have hinput := congrArg (fun t : P.Tx => t.input.map fun input => input.sequence) hstrip
    simpa [Transaction.stripWitness, recoveryTransaction, Function.comp_def] using hinput

section TwoOwners

open Symbolic

/-- A coin whose client key is 2 and whose enclave key is 9. -/
def coinOfTwo : CoinMetadata platform :=
  (⟨1, bytes 1, (bytes 2).toList, (bytes 9).toList⟩ : CoinKeys platform).metadata .regtest
    ⟨(5 : Nat), 0⟩ 1000

def digestOfTwo (owner : UInt8) (delay : Nat) : List UInt8 :=
  (recoveryDigest coinOfTwo (bytes owner).toList delay).toOption.getD []

def recoveryOfTwo (owner : UInt8) (delay : Nat) : SignedRecovery platform where
  transaction :=
    { recoveryTransaction coinOfTwo.outpoint 1000 (bytes owner).toList delay with
      input := [
        { previousOutput := coinOfTwo.outpoint
          scriptSig := []
          sequence := delay
          witness := [(signature (bytes 9).toList (digestOfTwo owner delay)).toList,
            (signature (bytes 2).toList (digestOfTwo owner delay)).toList,
            fundingTapscript coinOfTwo.keys, fundingControlBlock coinOfTwo.keys] }] }
  withdrawalXonlyPubkey := (bytes owner).toList
  delayBlocks := delay

/-- Two owners, the second with a recovery that matures ten blocks earlier. -/
def historyOfTwo : List (SignedRecovery platform) := [recoveryOfTwo 4 100, recoveryOfTwo 5 90]

def callsOfTwo : List (Call platform) :=
  [⟨.register ⟨bytes 1, capabilityHash (bytes 2)⟩, ⟨bytes 9, bytes 10⟩⟩,
    ⟨.sign (rotation (bytes 2) (bytes 3) initialHandoff (digestOfTwo 4 100)), ⟨bytes 9, bytes 11⟩⟩,
    ⟨.sign (rotation (bytes 3) (bytes 2) (bytes 11) (digestOfTwo 5 90)), ⟨bytes 9, bytes 12⟩⟩]

/-- Equal signature hashes of the symbolic platform come from equal stripped transactions. -/
theorem symbolic_recoverySighash {tx tx' : platform.Tx} {amountSat : Nat}
    {keys : CoinKeys platform} {digest : platform.Digest}
    (h : recoverySighash tx amountSat keys = .ok digest)
    (h' : recoverySighash tx' amountSat keys = .ok digest) : tx.stripWitness = tx'.stripWitness := by
  have heq := Option.some.inj
    ((recoverySighash_eq_ok.1 h).trans (recoverySighash_eq_ok.1 h').symm)
  exact (transactionWord_prefixCode _ _ _ _ trivial trivial heq).1

theorem accepted_history_complete_two :
    ((issuances (bytes 1) (new : Signer platform 1) callsOfTwo).map
        fun entry => .ok entry.1.sighash).Perm
      (historyOfTwo.map fun recovery => recovery.sighash coinOfTwo) := by
  have hids : ((new : Signer platform 1).run callsOfTwo).coins.keys = [bytes 1] := by
    decide +kernel
  have hid : ∀ c coin, ((new : Signer platform 1).run callsOfTwo).coins.lookup c = some coin →
      c = bytes 1 := by
    intro c coin hl
    have hmem : c ∈ ((new : Signer platform 1).run callsOfTwo).coins.keys :=
      AList.mem_keys.2 (AList.lookup_isSome.1 (by rw [hl]; rfl))
    rw [hids] at hmem
    exact List.mem_singleton.1 hmem
  have hentries : ∀ recovery ∈ historyOfTwo,
      ∃ entry ∈ issuances (bytes 1) (new : Signer platform 1) callsOfTwo,
        (recovery.sighash coinOfTwo).toOption = some entry.1.sighash := by
    decide +kernel
  refine (accepted_history_complete callsOfTwo (bytes 1) coinOfTwo historyOfTwo
    ⟨bytes 1, (bytes 9).toList, authorization (bytes 1) (capabilityHash (bytes 2)) (bytes 12), 2⟩
    (by decide +kernel) (Or.inr ⟨0, 10, by decide +kernel⟩)
    (fun signature digest => ∃ recovery ∈ historyOfTwo, recovery.enclaveSignature = some signature ∧
      recovery.sighash coinOfTwo = .ok digest)
    (fun recovery h signature digest hs hd => ⟨recovery, h, hs, hd⟩) ?_ ?_
    fun _ _ _ => symbolic_recoverySighash).1
  · rintro c coin hl signature digest ⟨recovery, hrecovery, _, hdigest⟩ _
    obtain rfl := hid c coin hl
    obtain ⟨entry, hentry, heq⟩ := hentries recovery hrecovery
    rw [hdigest] at heq
    exact ⟨bytes 1, coin, hl, rfl, entry, hentry, (Option.some.inj heq).symm⟩
  · intro c c' coin coin' hl hl' _
    rw [hid c coin hl, hid c' coin' hl']

end TwoOwners

end Tinylayer
