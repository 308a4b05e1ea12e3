import Tinylayer.Lib.Descent
import Tinylayer.System.Proofs.AccountProofs
import Tinylayer.System.Proofs.OwnershipProofs
import Tinylayer.Wallet.Proofs.LadderProofs

/-!
# Proofs: who gets on the chain first

The owner of a coin knows every signature that the signer issued for it. A transaction that spends
the coin carries one of them, so it is one of the owner's recoveries, and the owner's own is the
first of these that Bitcoin admits.
-/

namespace Tinylayer

variable {P : Platform} {LIMIT : Nat}

open Consensus

/-! ## A complete history -/

section Complete

variable {rules : Consensus P} {metadata : CoinMetadata P} {signed : List P.Digest}
  {history : List (SignedRecovery P)} {recovery own : SignedRecovery P}

/-- The recovery was signed for this digest. -/
def SignedFor (metadata : CoinMetadata P) (recovery : SignedRecovery P) (digest : P.Digest) : Prop :=
  recoveryDigest metadata recovery.withdrawalXonlyPubkey recovery.delayBlocks = .ok digest

theorem SignedFor.scriptSpendSighash {digest : P.Digest} (h : SignedFor metadata recovery digest) :
    P.scriptSpendSighash (recoveryTransaction metadata.outpoint metadata.amountSat
        recovery.withdrawalXonlyPubkey recovery.delayBlocks) 0 [metadata.fundingOutput]
      (P.tapLeafHash (fundingTapscript metadata.keys)) = some digest :=
  recoverySighash_eq_ok.1 h

/-- A verified recovery that nobody forged was signed for one of the signer's digests. -/
theorem VerifiedRecovery.signedFor (hrules : rules.Laws) (h : VerifiedRecovery metadata recovery)
    (hunforged : rules.Unforged metadata signed recovery.transaction 0 [metadata.fundingOutput]) :
    ∃ digest, SignedFor metadata recovery digest ∧ digest ∈ signed := by
  obtain ⟨input, digest, hinput, hdigest, hwitness⟩ := h.signed
  obtain ⟨e, c, es, _, hitems, he, _, hes, _, hve, _⟩ := hwitness.items
  have hsplit : (splitAnnex input.witness).2 = none := by
    rw [hitems]
    exact congrArg Prod.snd (splitAnnex_recoveryWitness hrules metadata.keys e c)
  refine ⟨digest, hdigest, hunforged.enclave input ?_ e ?_ digest ?_⟩
  · rw [hinput]
    rfl
  · rw [hitems]
    exact List.mem_cons_self
  · rw [hsplit, signs_iff hrules he]
    refine ⟨?_, he, es, hes, hve⟩
    rw [h.stripped]
    exact SignedFor.scriptSpendSighash hdigest

/-- The default signature hash of an unsigned recovery. -/
theorem SignedFor.sighash (hrules : rules.Laws) {digest : P.Digest}
    (h : SignedFor metadata recovery digest) :
    rules.sighash 0 none (recoveryTransaction metadata.outpoint metadata.amountSat
        recovery.withdrawalXonlyPubkey recovery.delayBlocks) 0 [metadata.fundingOutput]
      (some (P.tapLeafHash (fundingTapscript metadata.keys))) = some digest := by
  rw [hrules.default, stripWitness_recoveryTransaction]
  exact h.scriptSpendSighash

/-- A transaction with the signature hash of a recovery is this recovery, but for its scripts. -/
theorem SignedFor.committed_eq (hrules : rules.Laws) {digest : P.Digest}
    (h : SignedFor metadata recovery digest) {hashType : UInt8} {annex : Option (List UInt8)}
    {tx : P.Tx} {index : Nat} {prevouts : List TxOut} {leaf : Option P.Digest}
    (hdigest : rules.sighash hashType annex tx index prevouts leaf = some digest) :
    committed tx = recoveryTransaction metadata.outpoint metadata.amountSat
      recovery.withdrawalXonlyPubkey recovery.delayBlocks :=
  hrules.binding _ _ _ _ _ _ _ _ _ _ _ hdigest h.scriptSpendSighash

/-- Recoveries that were signed for the same digest have the same delay. -/
theorem SignedFor.delay_eq (hrules : rules.Laws) {digest : P.Digest}
    (h : SignedFor metadata recovery digest) (h' : SignedFor metadata own digest) :
    recovery.delayBlocks = own.delayBlocks :=
  recoveryTransaction_delay (h'.committed_eq hrules (h.sighash hrules))

/-- The recoveries of a ladder were signed for pairwise distinct digests. -/
theorem Ladder.digests_nodup (hrules : rules.Laws) (hladder : Ladder history)
    (hsigned : ∀ recovery ∈ history, ∃ digest, SignedFor metadata recovery digest) :
    (recoveryDigests metadata history).Nodup := by
  rw [recoveryDigests, List.nodup_iff_pairwise_ne, List.pairwise_map]
  refine hladder.pairwise.imp_of_mem fun {a b} ha hb hlt heq => ?_
  obtain ⟨digest, hdigest⟩ := hsigned a ha
  have hsame := hdigest.delay_eq hrules (heq.symm.trans hdigest : SignedFor metadata b digest)
  omega

/-- A history that is as long as the list of the signed digests was signed for each of them once. -/
theorem digests_perm (hrules : rules.Laws)
    (hrecoveries : ∀ recovery ∈ history, VerifiedRecovery metadata recovery)
    (hladder : Ladder history)
    (hunforged : ∀ recovery ∈ history,
      rules.Unforged metadata signed recovery.transaction 0 [metadata.fundingOutput])
    (hlength : history.length = signed.length) :
    (recoveryDigests metadata history).Perm (signed.map .ok) := by
  have hsigned : ∀ recovery ∈ history, ∃ digest,
      SignedFor metadata recovery digest ∧ digest ∈ signed := fun recovery hrecovery =>
    (hrecoveries recovery hrecovery).signedFor hrules (hunforged recovery hrecovery)
  have hnodup := hladder.digests_nodup hrules fun recovery hrecovery =>
    (hsigned recovery hrecovery).imp fun _ h => h.1
  have hsubset : recoveryDigests metadata history ⊆ signed.map .ok := by
    intro digest' hd
    obtain ⟨recovery, hrecovery, rfl⟩ := List.mem_map.1 hd
    obtain ⟨digest, hdigest, hmem⟩ := hsigned recovery hrecovery
    exact List.mem_map.2 ⟨digest, hmem, hdigest.symm⟩
  -- there are no more signed digests than recoveries
  exact (List.subperm_of_subset hnodup hsubset).perm_of_length_le
    (by simp [recoveryDigests, hlength])

/-- A history with all the signed digests has a recovery for each of them. -/
theorem signed_subset (hperm : (recoveryDigests metadata history).Perm (signed.map .ok)) :
    ∀ digest ∈ signed, ∃ recovery ∈ history, SignedFor metadata recovery digest := fun digest hdigest =>
  List.mem_map.1 (hperm.symm.subset (List.mem_map.2 ⟨digest, hdigest, rfl⟩))

/-- A transaction that spends the coin with one of the signed digests is the recovery of this
digest. -/
theorem Consensus.Admits.known (hrules : rules.Laws) (hclient : rules.ReadsKey metadata.keys.clientPubkey)
    (henclave : rules.ReadsKey metadata.keys.enclavePubkey)
    (hcomplete : ∀ digest ∈ signed, ∃ recovery ∈ history, SignedFor metadata recovery digest)
    {tx : P.Tx} {index : Nat} {prevouts : List TxOut} {fundedAt height medianTime : Nat}
    (hprevout : prevouts[index]? = some metadata.fundingOutput)
    (hunforged : rules.Unforged metadata signed tx index prevouts)
    (h : rules.Admits tx index prevouts fundedAt height medianTime) :
    ∃ recovery ∈ history, tx.stripWitness = recoveryTransaction metadata.outpoint
        metadata.amountSat recovery.withdrawalXonlyPubkey recovery.delayBlocks ∧
      (recovery.delayBlocks < 2 ^ 16 → fundedAt + recovery.delayBlocks ≤ height) := by
  obtain ⟨input, annex, hinput, hempty, ⟨bytes, digest, hwitness, hsigns⟩ |
    ⟨e, c, digest, _, hwitness, hsigns, _⟩⟩ :=
    (spends_funding_iff hrules hclient henclave hprevout).1 h.spends
  · -- nobody signs with the output key
    have hmem := splitAnnex_subset input.witness
    rw [hwitness] at hmem
    refine absurd ?_ (hunforged.output input hinput bytes (hmem List.mem_cons_self) digest)
    rw [hwitness]
    exact hsigns
  · have hmem := splitAnnex_subset input.witness
    rw [hwitness] at hmem
    have hdigest : digest ∈ signed := by
      refine hunforged.enclave input hinput e (hmem List.mem_cons_self) digest ?_
      rw [hwitness]
      exact hsigns
    obtain ⟨recovery, hrecovery, hfor⟩ := hcomplete digest hdigest
    obtain ⟨hashType, signature, _, hsighash, _⟩ := hsigns
    have hcommitted := hfor.committed_eq hrules hsighash
    obtain ⟨rfl, hinputs⟩ : index = 0 ∧ tx.input = [input] := by
      have hlength : tx.input.length = 1 := by
        have := congrArg (fun t : P.Tx => t.input.length) hcommitted
        simpa [committed, recoveryTransaction] using this
      obtain ⟨only, honly⟩ := List.length_eq_one_iff.1 hlength
      rw [honly] at hinput ⊢
      cases index with
      | zero => exact ⟨rfl, by rw [Option.some.inj hinput]⟩
      | succ index => cases hinput
    have hstripped : tx.stripWitness = committed tx := by
      simp only [Transaction.stripWitness, committed, hinputs, List.map_singleton, hempty]
    refine ⟨recovery, hrecovery, hstripped.trans hcommitted, fun hdelay => ?_⟩
    have hmature := h.mature input hinput
    have hversion : tx.version = trucVersion := congrArg Transaction.version hcommitted
    have hsequence : input.sequence = recovery.delayBlocks := by
      have := congrArg (fun t : P.Tx => t.input.map (·.sequence)) hcommitted
      simpa [committed, recoveryTransaction, hinputs] using this
    rw [hversion, hsequence, relativeLock_delay hdelay] at hmature
    exact hmature

/-- Where a history was signed for all the signed digests, its last recovery is admitted first. -/
theorem Consensus.First.of_complete (hrules : rules.Laws) (htaproot : P.TaprootLaws)
    (hclient : rules.ReadsKey metadata.keys.clientPubkey)
    (henclave : rules.ReadsKey metadata.keys.enclavePubkey)
    (hrecoveries : ∀ recovery ∈ history, VerifiedRecovery metadata recovery)
    (hladder : Ladder history)
    (hcomplete : ∀ digest ∈ signed, ∃ recovery ∈ history, SignedFor metadata recovery digest)
    (hown : history[history.length - 1]? = some own) : rules.First metadata signed own where
  admitted := fun _ _ _ =>
    (hrecoveries own (List.mem_of_getElem? hown)).admits_iff hrules htaproot hclient henclave
  others := by
    intro tx index prevouts fundedAt height medianTime hprevout hunforged hadmits
    obtain ⟨recovery, hrecovery, hstripped, hmature⟩ :=
      Admits.known hrules hclient henclave hcomplete hprevout hunforged hadmits
    have hlate := hmature (hrecoveries recovery hrecovery).terms.delay_lt
    obtain ⟨hlast, rfl⟩ := List.getElem?_eq_some_iff.1 hown
    obtain ⟨i, hi, rfl⟩ := List.getElem_of_mem hrecovery
    by_cases heq : i = history.length - 1
    · left
      subst heq
      rw [hstripped, (hrecoveries _ hrecovery).stripped]
    · right
      have hgap : history[history.length - 1].delayBlocks + delayStep ≤ history[i].delayBlocks :=
        (ladder_iff_descends.1 hladder).gap (by omega) hlast
      omega

end Complete

namespace World

variable {ι : Type} [DecidableEq ι] {w : World ι P LIMIT} {i : ι} {coinId : CoinId}

/-- A saved history, also of a coin that was handed on, never counts more signatures than the signer
issued, and it counts all of them exactly if the wallet owns the coin: it was then signed, as far as
nobody forges signatures, for every signed digest once. The coin's record at the signer has its
enclave key. -/
theorem owns_iff_complete (hsecret : P.SecretCodec) (hcf : P.CollisionFree) (h : Reachable w)
    (hfresh : Fresh w) {coin : WalletCoin P} (hcoin : (w.disk i).coin = some coin) :
    coin.history.length ≤ (w.log coin.keys.coinId).length ∧
      (w.Owns i coin.keys.coinId ↔
        coin.history.length = (w.log coin.keys.coinId).length) ∧
      (∃ live, w.signer.status coin.keys.coinId = .ok live ∧
        live.signingPubkey = coin.keys.enclavePubkey ∧
        live.signatureCount = (w.log coin.keys.coinId).length) ∧
      ∀ (rules : Consensus P) (metadata : CoinMetadata P), rules.Laws →
        coin.metadata = some metadata →
        (∀ recovery ∈ coin.history, rules.Unforged metadata (w.signed coin.keys.coinId)
          recovery.transaction 0 [metadata.fundingOutput]) →
        (w.Owns i coin.keys.coinId ↔
          (recoveryDigests metadata coin.history).Perm ((w.signed coin.keys.coinId).map .ok)) := by
  have hinv := ((h.inv hsecret hfresh).disk i).wallet.coin coin hcoin
  obtain ⟨⟨hle, howns⟩, hlive⟩ := h.counts hsecret hcf hfresh hcoin
  refine ⟨hle, howns, hlive, fun rules metadata hrules hmetadata hunforged => ?_⟩
  have hsigned : (w.signed coin.keys.coinId).length = (w.log coin.keys.coinId).length :=
    List.length_map ..
  rw [howns, ← hsigned]
  constructor
  · exact digests_perm hrules (hinv.recoveries metadata hmetadata) hinv.ladder hunforged
  · intro hperm
    simpa [recoveryDigests] using hperm.length_eq

/-- In every run, the owner of a coin recovers it before anybody else can spend it: its own recovery
is admitted when its delay is over, and whatever else spends the coin not within `DELAY_STEP` blocks
of this. -/
theorem owner_recovers_first {rules : Consensus P} (hrules : rules.Laws)
    (htaproot : P.TaprootLaws) (hsecret : P.SecretCodec) (hcf : P.CollisionFree)
    (h : Reachable w) (hfresh : Fresh w) (howns : w.Owns i coinId) {coin : WalletCoin P}
    {metadata : CoinMetadata P} (hcoin : (w.disk i).coin = some coin)
    (hmetadata : coin.metadata = some metadata) (hhistory : coin.history ≠ [])
    (hclient : rules.ReadsKey metadata.keys.clientPubkey)
    (henclave : rules.ReadsKey metadata.keys.enclavePubkey)
    (hunforged : ∀ recovery ∈ coin.history,
      rules.Unforged metadata (w.signed coinId) recovery.transaction 0 [metadata.fundingOutput]) :
    ∃ own secret, coin.owned = some (own, secret) ∧ PaysSecret own secret ∧
      rules.First metadata (w.signed coinId) own := by
  have hwallet := ((h.inv hsecret hfresh).disk i).wallet
  have hinv := hwallet.coin coin hcoin
  obtain ⟨hout, rfl⟩ := howns.outgoing_eq_none hwallet hcoin
  have hlength := (h.counts hsecret hcf hfresh hcoin).1.2.1 howns
  obtain ⟨own, secret, howned, hpays⟩ := hinv.owned hhistory
  refine ⟨own, secret, howned, hpays, ?_⟩
  obtain ⟨index, hindex, _, hown⟩ := WalletCoin.owned_eq_some.1 howned
  cases hindex.symm.trans (hinv.latest hout hhistory)
  have hrecoveries := hinv.recoveries metadata hmetadata
  have hperm := digests_perm hrules hrecoveries hinv.ladder hunforged
    (hlength.trans (List.length_map ..).symm)
  exact .of_complete hrules htaproot hclient henclave hrecoveries hinv.ladder
    (signed_subset hperm) hown

section Demo

open Symbolic WalletState

/-- The signature hash that the symbolic rules compute for a transaction that spends the coin. -/
def coinSighash (metadata : CoinMetadata platform) (tx : platform.Tx)
    (leaf : Option platform.Digest) (hashType : UInt8) : platform.Digest :=
  symbolicSighash hashType none tx 0 [metadata.fundingOutput] leaf

/-- The bytes are no signature by which the transaction spends the coin, or the digest was signed. -/
def unforgedBytes (metadata : CoinMetadata platform) (signed : List platform.Digest)
    (tx : platform.Tx) (bytes : List UInt8) : Bool :=
  match parseSignature platform bytes with
  | none => true
  | some (hashType, signature) =>
    let leaf := some (platform.tapLeafHash (fundingTapscript metadata.keys))
    (!platform.verifySchnorr signature (coinSighash metadata tx leaf hashType)
        metadata.keys.enclavePubkey || signed.contains (coinSighash metadata tx leaf hashType)) &&
      !platform.verifySchnorr signature (coinSighash metadata tx none hashType)
        (fundingOutputKey metadata.keys)

theorem unforged_of_bytes {metadata : CoinMetadata platform} {signed : List platform.Digest}
    {tx : platform.Tx} {input : TxIn platform.Txid} (hinput : tx.input[0]? = some input)
    (hannex : (splitAnnex input.witness).2 = none)
    (hbytes : ∀ bytes ∈ input.witness, unforgedBytes metadata signed tx bytes = true) :
    symbolicRules.Unforged metadata signed tx 0 [metadata.fundingOutput] where
  enclave := by
    rintro input' hinput' bytes hmem digest ⟨hashType, signature, hparsed, hdigest, hverify⟩
    cases hinput.symm.trans hinput'
    rw [hannex] at hdigest
    obtain rfl : coinSighash metadata tx _ hashType = digest := Option.some.inj hdigest
    have hcheck := hbytes bytes hmem
    simp only [unforgedBytes, hparsed, hverify, Bool.and_eq_true, Bool.not_true,
      Bool.false_or] at hcheck
    exact List.contains_iff_mem.1 hcheck.1
  output := by
    rintro input' hinput' bytes hmem digest ⟨hashType, signature, hparsed, hdigest, hverify⟩
    cases hinput.symm.trans hinput'
    rw [hannex] at hdigest
    obtain rfl : coinSighash metadata tx none hashType = digest := Option.some.inj hdigest
    have hcheck := hbytes bytes hmem
    simp only [unforgedBytes, hparsed, hverify, Bool.and_eq_true, Bool.not_true] at hcheck
    exact absurd hcheck.2 Bool.false_ne_true

variable {envelope : TransferEnvelope} {metadata : CoinMetadata platform} {coin : WalletCoin platform}
  {requestId : Bytes32}

theorem signed_taken : (taken envelope).signed (bytes 1) =
    [fundingRequest.sighash, transferRequest.sighash] := by
  rw [signed, log_taken, log_handed]
  rfl

theorem unforged_taken : ∀ recovery ∈ [firstRecovery, secondRecovery],
    symbolicRules.Unforged fundedMetadata ((taken envelope).signed (bytes 1)) recovery.transaction 0
      [fundedMetadata.fundingOutput] := by
  rw [signed_taken]
  intro recovery hrecovery
  rcases List.mem_pair.1 hrecovery with rfl | rfl
  · exact unforged_of_bytes rfl (by decide +kernel) (by decide +kernel)
  · exact unforged_of_bytes rfl (by decide +kernel) (by decide +kernel)

/-- What the receiver saves. -/
theorem Handover.coin_receiver (h : Handover coin envelope requestId) : ∃ coin',
    ((taken envelope).disk true).coin = some coin' ∧ coin'.keys.coinId = bytes 1 ∧
      coin'.metadata = some fundedMetadata ∧ coin'.history = [firstRecovery, secondRecovery] := by
  obtain ⟨s₁, hbegun⟩ := h.begun
  have hdisk : (taken envelope).disk true = (taken envelope).mem true := by simp [taken]
  refine ⟨_, by rw [hdisk, h.receiver], rfl, rfl, ?_⟩
  have hhistory : coin.history ++ [secondRecovery] = [firstRecovery, secondRecovery] := by
    rw [hbegun.history]
    rfl
  exact hhistory

/-- What the sender keeps. -/
theorem Handover.coin_sender (h : Handover coin envelope requestId) : ∃ coin',
    ((taken envelope).disk false).coin = some coin' ∧ coin'.keys.coinId = bytes 1 ∧
      coin'.outgoing.isSome = true ∧ coin'.history.length = 1 := by
  obtain ⟨s₁, hbegun⟩ := h.begun
  obtain ⟨s₂, hcoin, hcomplete⟩ := h.sender
  obtain ⟨_, _, _, coin', _, _, _, _, _, _, hcoin', _, _, _, _, _, _, _, _, _, _, _, hsame⟩ :=
    completeTransfer_ok.1 hcomplete
  cases hcoin.symm.trans hcoin'
  have hdisk : (taken envelope).disk false = completed.disk false := by simp [taken]
  refine ⟨_, by rw [hdisk, hsame], ?_, rfl, rfl⟩
  exact congrArg (·.coinId) hbegun.keys

/-- After a transfer, the receiver knows both signatures, and the sender one. -/
theorem owns_iff_complete_taken : ∃ envelope, Reachable (taken envelope) ∧
    (∃ coin ∈ ((taken envelope).disk false).coin, coin.outgoing.isSome = true ∧
      coin.history.length = 1 ∧ ¬ (taken envelope).Owns false (bytes 1)) ∧
    (taken envelope).Owns true (bytes 1) ∧
    (recoveryDigests fundedMetadata [firstRecovery, secondRecovery]).Perm
      (((taken envelope).signed (bytes 1)).map .ok) ∧
    ∃ live, (taken envelope).signer.status (bytes 1) = .ok live ∧ live.signatureCount = 2 := by
  obtain ⟨coin, envelope, requestId, h⟩ := exists_handover
  have hreachable : Reachable (taken envelope) := reachable_completed.trans steps_taken
  obtain ⟨sender, hsender, hid, hout, hlength⟩ := h.coin_sender
  obtain ⟨receiver, hreceiver, hid', hmetadata, hhistory⟩ := h.coin_receiver
  have hlog : ((taken envelope).log (bytes 1)).length = 2 := by
    rw [log_taken, log_handed]
    rfl
  obtain ⟨_, hgiven, _⟩ := owns_iff_complete secretCodec collisionFree hreachable fresh_taken hsender
  obtain ⟨_, htaken, ⟨live, hlive, _, hcount⟩, hall⟩ :=
    owns_iff_complete secretCodec collisionFree hreachable fresh_taken hreceiver
  rw [hid, hlog, hlength] at hgiven
  rw [hid', hlog, hhistory] at htaken
  rw [hid'] at hlive hall hcount
  have howns : (taken envelope).Owns true (bytes 1) := htaken.2 rfl
  have hperm := (hall symbolicRules fundedMetadata symbolicRules_laws hmetadata
    (hhistory ▸ unforged_taken)).1 howns
  rw [hhistory] at hperm
  exact ⟨envelope, hreachable, ⟨sender, hsender, hout, hlength, fun hgiven' =>
    absurd (hgiven.1 hgiven') (by decide)⟩, howns, hperm, live, hlive, hcount.trans hlog⟩

/-- The receiver of a coin recovers it before the sender. -/
theorem owner_recovers_first_taken : ∃ envelope own secret,
    ((taken envelope).disk true).coin.bind WalletCoin.owned = some (own, secret) ∧
      PaysSecret own secret ∧
      symbolicRules.First fundedMetadata ((taken envelope).signed (bytes 1)) own ∧
      ∃ coin ∈ ((taken envelope).disk true).coin, coin.history.length = 2 := by
  obtain ⟨coin, envelope, requestId, h⟩ := exists_handover
  obtain ⟨coin', hcoin', _, hmetadata, hhistory⟩ := h.coin_receiver
  have hne : coin'.history ≠ [] := by
    rw [hhistory]
    exact List.cons_ne_nil _ _
  obtain ⟨own, secret, howned, hpays, hfirst⟩ := owner_recovers_first symbolicRules_laws
    taprootLaws secretCodec collisionFree (reachable_completed.trans steps_taken) fresh_taken h.owns
    hcoin' hmetadata hne (symbolicRules_readsKey (bytes 2).toList_length)
    (symbolicRules_readsKey (bytes 9).toList_length) (hhistory ▸ unforged_taken)
  exact ⟨envelope, own, secret, by rw [hcoin']; exact howned, hpays, hfirst, coin', hcoin', by
    rw [hhistory]
    rfl⟩

end Demo

end World

end Tinylayer
