import Tinylayer.Client.Consensus
import Tinylayer.Client.Proofs.CanonicalProofs

/-!
# Proofs: recoveries on the chain

The script of a coin, run by Bitcoin's rules, asks for exactly the two signatures that the client
checks. A recovery that the client accepts can be broadcast as it is: it is admitted from the block
on at which its delay is over, and no earlier.
-/

namespace Tinylayer

variable {P : Platform}

/-- The output that holds a coin. -/
def CoinMetadata.fundingOutput (metadata : CoinMetadata P) : TxOut :=
  { value := metadata.amountSat, scriptPubkey := fundingScript metadata.keys }

/-- The script of a coin asks for both of its keys. -/
theorem fundingTapscript_eq (keys : CoinKeys P)
    (hclient : (P.xOnlySerialize keys.clientPubkey).length = 32)
    (henclave : (P.xOnlySerialize keys.enclavePubkey).length = 32) :
    fundingTapscript keys = Tapscript.allOf
      [P.xOnlySerialize keys.clientPubkey, P.xOnlySerialize keys.enclavePubkey] := by
  simp only [fundingTapscript, pushXOnlyKey, Tapscript.allOf, Tapscript.pushKey, hclient, henclave]
  rfl

theorem parseSignature_of_length {bytes : List UInt8} (h : bytes.length = 64) :
    parseSignature P bytes =
      (P.signatureFromSlice bytes).map fun signature => (0, signature) := by
  rw [parseSignature, if_pos h]

theorem splitAnnex_eq_self {witness : List (List UInt8)}
    (h : ∀ last ∈ witness.getLast?, last.head? ≠ some annexTag) :
    splitAnnex witness = (witness, none) := by
  unfold splitAnnex
  cases hlast : witness.getLast? with
  | none => rfl
  | some last => exact if_neg fun hannex => h last hlast hannex.2

/-- What is left without the annex was in the witness. -/
theorem splitAnnex_subset (witness : List (List UInt8)) : (splitAnnex witness).1 ⊆ witness := by
  unfold splitAnnex
  split
  · split_ifs
    · exact List.dropLast_subset _
    · exact List.Subset.refl _
  · exact List.Subset.refl _

/-- The witness of a recovery has no annex. -/
theorem splitAnnex_recoveryWitness {rules : Consensus P} (hrules : rules.Laws) (keys : CoinKeys P)
    (enclaveBytes clientBytes : List UInt8) :
    splitAnnex (recoveryWitness keys enclaveBytes clientBytes) =
      (recoveryWitness keys enclaveBytes clientBytes, none) := by
  refine splitAnnex_eq_self fun last hlast => ?_
  obtain rfl : P.controlBlockSerialize (fundingControlBlock keys) = last := Option.some.inj hlast
  exact hrules.control _

namespace Consensus

variable {rules : Consensus P} {tx : P.Tx} {index : Nat} {prevouts : List TxOut}
  {annex : Option (List UInt8)} {leaf : Option P.Digest} {bytes : List UInt8}
  {key : P.XOnlyPublicKey} {keys : CoinKeys P}

/-- A signature counts for a key on the stack if it is one of the key's owner. -/
theorem valid_eq_true (hkey : rules.ReadsKey key) :
    rules.valid tx index prevouts annex leaf bytes (P.xOnlySerialize key) = true ↔
      ∃ digest, rules.Signs tx index prevouts annex leaf bytes key digest := by
  unfold valid
  rw [hkey.read]
  cases hparse : parseSignature P bytes with
  | none =>
    constructor
    · intro h
      cases h
    · rintro ⟨_, _, _, hparsed, _⟩
      cases hparse.symm.trans hparsed
  | some parsed =>
    obtain ⟨hashType, signature⟩ := parsed
    cases hdigest : rules.sighash hashType annex tx index prevouts leaf with
    | none =>
      constructor
      · intro h
        simp only [hdigest] at h
        cases h
      · rintro ⟨_, _, _, hparsed, hsome, _⟩
        cases hparse.symm.trans hparsed
        cases hdigest.symm.trans hsome
    | some digest =>
      simp only [hdigest]
      constructor
      · intro h
        exact ⟨digest, hashType, signature, hparse, hdigest, h⟩
      · rintro ⟨_, _, _, hparsed, hsome, hverify⟩
        cases hparse.symm.trans hparsed
        cases hdigest.symm.trans hsome
        exact hverify

/-- A signature is not empty. -/
theorem Signs.ne_nil {digest : P.Digest}
    (h : rules.Signs tx index prevouts annex leaf bytes key digest) : bytes ≠ [] := by
  rintro rfl
  obtain ⟨_, _, hparsed, _⟩ := h
  simp [parseSignature] at hparsed

/-- The script of a coin succeeds on exactly two signatures, the one of the client on top. -/
theorem accepts_fundingTapscript (hclient : rules.ReadsKey keys.clientPubkey)
    (henclave : rules.ReadsKey keys.enclavePubkey) {stack : List (List UInt8)} :
    Tapscript.accepts (rules.valid tx index prevouts annex leaf) (fundingTapscript keys)
        stack.reverse = true ↔
      ∃ enclaveBytes clientBytes enclaveDigest clientDigest, stack = [enclaveBytes, clientBytes] ∧
        rules.Signs tx index prevouts annex leaf enclaveBytes keys.enclavePubkey enclaveDigest ∧
        rules.Signs tx index prevouts annex leaf clientBytes keys.clientPubkey clientDigest := by
  rw [fundingTapscript_eq keys hclient.length henclave.length,
    Tapscript.accepts_allOf (List.cons_ne_nil _ _)
      (by simp [hclient.length, henclave.length])]
  constructor
  · intro h
    obtain ⟨clientBytes, rest, ⟨_, hc⟩, hrest, hstack⟩ := List.forall₂_cons_right_iff.1 h
    obtain ⟨enclaveBytes, last, ⟨_, he⟩, hlast, rfl⟩ := List.forall₂_cons_right_iff.1 hrest
    obtain rfl := List.forall₂_nil_right_iff.1 hlast
    obtain ⟨clientDigest, hc⟩ := (valid_eq_true hclient).1 hc
    obtain ⟨enclaveDigest, he⟩ := (valid_eq_true henclave).1 he
    exact ⟨enclaveBytes, clientBytes, enclaveDigest, clientDigest,
      List.reverse_injective hstack, he, hc⟩
  · rintro ⟨enclaveBytes, clientBytes, enclaveDigest, clientDigest, rfl, he, hc⟩
    exact .cons ⟨hc.ne_nil, (valid_eq_true hclient).2 ⟨_, hc⟩⟩
      (.cons ⟨he.ne_nil, (valid_eq_true henclave).2 ⟨_, he⟩⟩ .nil)

/-- The two ways to spend a coin: with a signature of the output key, or with the two signatures
that its script asks for. -/
theorem spends_funding_iff (hrules : rules.Laws) (hclient : rules.ReadsKey keys.clientPubkey)
    (henclave : rules.ReadsKey keys.enclavePubkey) {amountSat : Nat}
    (hprevout : prevouts[index]? = some ⟨amountSat, fundingScript keys⟩) :
    rules.Spends tx index prevouts ↔ ∃ input annex, tx.input[index]? = some input ∧
      input.scriptSig = [] ∧
      ((∃ bytes digest, splitAnnex input.witness = ([bytes], annex) ∧
          rules.Signs tx index prevouts annex none bytes (fundingOutputKey keys) digest) ∨
        ∃ enclaveBytes clientBytes enclaveDigest clientDigest,
          splitAnnex input.witness = (recoveryWitness keys enclaveBytes clientBytes, annex) ∧
          rules.Signs tx index prevouts annex (some (P.tapLeafHash (fundingTapscript keys)))
            enclaveBytes keys.enclavePubkey enclaveDigest ∧
          rules.Signs tx index prevouts annex (some (P.tapLeafHash (fundingTapscript keys)))
            clientBytes keys.clientPubkey clientDigest) := by
  have houtput : ∀ {prevout : TxOut} {key : P.XOnlyPublicKey}, prevouts[index]? = some prevout →
      prevout.scriptPubkey = P.newP2trTweaked key → key = fundingOutputKey keys := by
    intro prevout key hsome hscript
    obtain rfl := Option.some.inj (hprevout.symm.trans hsome)
    exact (hrules.output_inj hscript).symm
  constructor
  · rintro (⟨hinput, hsome, hscript, hempty, hwitness, hsigns⟩ |
      ⟨hinput, hsome, hscript, hempty, hwitness, hcommits, haccepts⟩)
    · obtain rfl := houtput hsome hscript
      exact ⟨_, _, hinput, hempty, .inl ⟨_, _, hwitness, hsigns⟩⟩
    · obtain rfl := houtput hsome hscript
      obtain ⟨rfl, rfl⟩ := (hrules.commits_iff _ _ _).1 hcommits
      obtain ⟨e, c, ed, cd, rfl, he, hc⟩ :=
        (accepts_fundingTapscript hclient henclave).1 haccepts
      exact ⟨_, _, hinput, hempty, .inr ⟨e, c, ed, cd, hwitness, he, hc⟩⟩
  · rintro ⟨input, annex, hinput, hempty, ⟨bytes, digest, hwitness, hsigns⟩ |
      ⟨e, c, ed, cd, hwitness, he, hc⟩⟩
    · exact .keyPath hinput hprevout rfl hempty hwitness hsigns
    · have hstack : splitAnnex input.witness = ([e, c] ++ [_, _], annex) := hwitness
      exact .scriptPath hinput hprevout rfl hempty hstack
        ((hrules.commits_iff _ _ _).2 ⟨rfl, rfl⟩)
        ((accepts_fundingTapscript hclient henclave).2 ⟨e, c, ed, cd, rfl, he, hc⟩)

/-- A 64 byte signature in a recovery is one of the digest that the client checks. -/
theorem signs_iff (hrules : rules.Laws) (hlength : bytes.length = 64) {leaf digest : P.Digest} :
    rules.Signs tx index prevouts none (some leaf) bytes key digest ↔
      P.scriptSpendSighash tx.stripWitness index prevouts leaf = some digest ∧
        ValidSignature bytes digest key := by
  constructor
  · rintro ⟨hashType, signature, hparsed, hdigest, hverify⟩
    rw [parseSignature_of_length hlength] at hparsed
    obtain ⟨signature', hslice, hsame⟩ := Option.map_eq_some_iff.1 hparsed
    obtain ⟨rfl, rfl⟩ := Prod.mk.inj hsame
    rw [hrules.default] at hdigest
    exact ⟨hdigest, hlength, signature', hslice, hverify⟩
  · rintro ⟨hdigest, _, signature, hslice, hverify⟩
    refine ⟨0, signature, ?_, ?_, hverify⟩
    · rw [parseSignature_of_length hlength, hslice]
      rfl
    · rw [hrules.default]
      exact hdigest

/-- The lock of a recovery is its delay. -/
theorem relativeLock_delay {delay : Nat} (h : delay < 2 ^ 16) :
    relativeLock trucVersion delay = delay := by
  have hbit : ∀ i, 16 ≤ i → delay.testBit i = false := fun i hi =>
    Nat.testBit_lt_two_pow (h.trans_le (Nat.pow_le_pow_right (by omega) hi))
  rw [relativeLock, if_neg, Nat.mod_eq_of_lt h]
  rintro (h | h | h | h)
  · cases h
  · cases h
  · rw [hbit 31 (by omega)] at h
    cases h
  · rw [hbit 22 (by omega)] at h
    cases h

/-- With two 64 byte signatures in its witness, the canonical recovery spends the coin if both are
signatures of its digest. -/
theorem spends_recovery_iff (hrules : rules.Laws) {metadata : CoinMetadata P}
    (hclient : rules.ReadsKey metadata.keys.clientPubkey)
    (henclave : rules.ReadsKey metadata.keys.enclavePubkey) {withdrawalKey : P.XOnlyPublicKey}
    {delay : Nat} {enclaveBytes clientBytes : List UInt8} (he : enclaveBytes.length = 64)
    (hc : clientBytes.length = 64) :
    rules.Spends ((recoveryTransaction metadata.outpoint metadata.amountSat withdrawalKey
        delay).withWitness (recoveryWitness metadata.keys enclaveBytes clientBytes)) 0
        [metadata.fundingOutput] ↔
      ∃ digest, recoveryDigest metadata withdrawalKey delay = .ok digest ∧
        ValidSignature enclaveBytes digest metadata.keys.enclavePubkey ∧
        ValidSignature clientBytes digest metadata.keys.clientPubkey := by
  rw [spends_funding_iff hrules hclient henclave rfl]
  have hsplit := splitAnnex_recoveryWitness hrules metadata.keys enclaveBytes clientBytes
  have hdigest : ∀ {digest : P.Digest}, recoveryDigest metadata withdrawalKey delay = .ok digest ↔
      P.scriptSpendSighash ((recoveryTransaction metadata.outpoint metadata.amountSat withdrawalKey
        delay).withWitness (recoveryWitness metadata.keys enclaveBytes clientBytes)).stripWitness 0
        [metadata.fundingOutput] (P.tapLeafHash (fundingTapscript metadata.keys)) =
        some digest := recoverySighash_eq_ok
  constructor
  · rintro ⟨input, annex, hinput, _, ⟨bytes, _, hwitness, _⟩ | ⟨e, c, ed, cd, hwitness, hes, hcs⟩⟩
    · obtain rfl := Option.some.inj hinput
      cases hsplit.symm.trans hwitness
    · obtain rfl := Option.some.inj hinput
      obtain ⟨⟨rfl, rfl⟩, rfl⟩ : (enclaveBytes = e ∧ clientBytes = c) ∧ none = annex := by
        simpa [recoveryWitness] using hsplit.symm.trans hwitness
      obtain ⟨hed, hes⟩ := (signs_iff hrules he).1 hes
      obtain ⟨hcd, hcs⟩ := (signs_iff hrules hc).1 hcs
      cases hed.symm.trans hcd
      exact ⟨ed, hdigest.2 hed, hes, hcs⟩
  · rintro ⟨digest, hok, hes, hcs⟩
    have hsome := hdigest.1 hok
    exact ⟨_, none, rfl, rfl, .inr ⟨enclaveBytes, clientBytes, digest, digest, hsplit,
      (signs_iff hrules he).2 ⟨hsome, hes⟩, (signs_iff hrules hc).2 ⟨hsome, hcs⟩⟩⟩

end Consensus

open Consensus

variable {rules : Consensus P} {metadata : CoinMetadata P} {recovery : SignedRecovery P}

theorem committed_stripWitness (tx : P.Tx) : committed tx.stripWitness = committed tx := by
  simp only [committed, Transaction.stripWitness, List.map_map, Function.comp_def]

/-- A recovery that spends its coin is admitted when its delay is over. -/
theorem admits_recovery_iff {withdrawalKey : P.XOnlyPublicKey} {delay : Nat} (hdelay : delay < 2 ^ 16)
    {witness : List (List UInt8)} {fundedAt height medianTime : Nat} :
    rules.Admits ((recoveryTransaction metadata.outpoint metadata.amountSat withdrawalKey
        delay).withWitness witness) 0 [metadata.fundingOutput] fundedAt height medianTime ↔
      rules.Spends ((recoveryTransaction metadata.outpoint metadata.amountSat withdrawalKey
        delay).withWitness witness) 0 [metadata.fundingOutput] ∧ fundedAt + delay ≤ height := by
  constructor
  · rintro ⟨_, hspends, hmature, _, _⟩
    have h := hmature _ rfl
    change fundedAt + relativeLock trucVersion delay ≤ height at h
    rw [relativeLock_delay hdelay] at h
    exact ⟨hspends, h⟩
  · rintro ⟨hspends, hheight⟩
    refine ⟨rfl, hspends, fun input hinput => ?_, .inl rfl, Nat.le_refl _⟩
    obtain rfl := Option.some.inj hinput
    change fundedAt + relativeLock trucVersion delay ≤ height
    rw [relativeLock_delay hdelay]
    exact hheight

/-- A verified recovery is admitted from the block on at which its delay is over. -/
theorem VerifiedRecovery.admits_iff (hrules : rules.Laws) (htaproot : P.TaprootLaws)
    (hclient : rules.ReadsKey metadata.keys.clientPubkey)
    (henclave : rules.ReadsKey metadata.keys.enclavePubkey)
    (h : VerifiedRecovery metadata recovery) {fundedAt height medianTime : Nat} :
    rules.Admits recovery.transaction 0 [metadata.fundingOutput] fundedAt height medianTime ↔
      fundedAt + recovery.delayBlocks ≤ height := by
  obtain ⟨_, hterms, _, digest, htransaction, hdigest, e, c, rfl, he, hc⟩ :=
    (verifiedRecovery_iff htaproot).1 h
  rw [htransaction, admits_recovery_iff hterms.delay_lt]
  exact and_iff_right ((spends_recovery_iff hrules hclient henclave he.length hc.length).2
    ⟨digest, hdigest, he, hc⟩)

/-- The client accepts exactly the canonical recovery with two signatures in its witness that Bitcoin
admits from the block on at which its delay is over, and in no block before. -/
theorem verify_recovery_iff_admitted (hrules : rules.Laws) (htaproot : P.TaprootLaws)
    (hclient : rules.ReadsKey metadata.keys.clientPubkey)
    (henclave : rules.ReadsKey metadata.keys.enclavePubkey) (recovery : SignedRecovery P) :
    verifyRecovery metadata recovery = .ok () ↔
      metadata.keys.validate = .ok () ∧
      canonicalRecovery metadata.outpoint metadata.amountSat recovery.withdrawalXonlyPubkey
        recovery.delayBlocks = .ok recovery.transaction.stripWitness ∧
      (∃ enclaveBytes clientBytes, recovery.transaction.input.map (·.witness) =
          [recoveryWitness metadata.keys enclaveBytes clientBytes] ∧
        enclaveBytes.length = 64 ∧ clientBytes.length = 64) ∧
      ∀ fundedAt height medianTime,
        rules.Admits recovery.transaction 0 [metadata.fundingOutput] fundedAt height medianTime ↔
          fundedAt + recovery.delayBlocks ≤ height := by
  rw [verifyRecovery_eq_ok, CoinKeys.validate_eq_ok, canonicalRecovery_eq_ok]
  constructor
  · intro h
    obtain ⟨input, _, hinput, _, hwitness⟩ := h.signed
    obtain ⟨e, c, hitems, he, hc⟩ := (witnesses_iff htaproot).1 hwitness
    refine ⟨h.keys, ⟨h.terms, h.stripped.symm⟩, ⟨e, c, ?_, he.length, hc.length⟩, ?_⟩
    · rw [hinput, List.map_singleton, hitems]
    · intro fundedAt height medianTime
      exact h.admits_iff hrules htaproot hclient henclave
  · rintro ⟨hkeys, ⟨hterms, hstripped⟩, ⟨e, c, hmap, he, hc⟩, hadmits⟩
    obtain ⟨input, hinput, hwitness⟩ := List.map_eq_singleton_iff.1 hmap
    have htransaction := Transaction.eq_withWitness hinput
    rw [← hstripped, hwitness] at htransaction
    have hnow := (hadmits 0 recovery.delayBlocks 0).2 (by omega)
    rw [htransaction, admits_recovery_iff hterms.delay_lt,
      spends_recovery_iff hrules hclient henclave he hc] at hnow
    obtain ⟨⟨digest, hdigest, hes, hcs⟩, _⟩ := hnow
    exact (verifiedRecovery_iff htaproot).2
      ⟨hkeys, hterms, _, digest, htransaction, hdigest, ⟨e, c, rfl, hes, hcs⟩⟩

section Demo

open Symbolic

/-- What a signature commits to, as its signature hash. -/
def symbolicSighash (hashType : UInt8) (annex : Option (List UInt8)) (tx : Transaction Nat)
    (index : Nat) (prevouts : List TxOut) (leaf : Option (List UInt8)) : List UInt8 :=
  transactionWord tx.stripWitness ++ (PrefixCode.nat index ++ (listWord txOutWord prevouts ++
    (leaf.getD [] ++ if hashType = 0 ∧ annex = none then [] else hashType :: annex.getD [])))

/-- Rules over the symbolic platform. -/
def symbolicRules : Consensus platform where
  xOnlyFromSlice := fun bytes => if bytes.length = 32 then some bytes else none
  commits := fun control key script =>
    decide (key = platform.taprootOutputKey platform.numsInternalKey script) &&
      decide (control = platform.controlBlockSerialize
        (platform.taprootControlBlock platform.numsInternalKey script))
  sighash := fun hashType annex tx index prevouts leaf =>
    some (symbolicSighash hashType annex tx index prevouts leaf)

theorem symbolicRules_laws : symbolicRules.Laws where
  commits_iff (leaf control script : List UInt8) := by
    have hcommits : symbolicRules.commits control (platform.taprootOutputKey
        platform.numsInternalKey leaf) script = true ↔
          (1 :: 0 :: leaf : List UInt8) = 1 :: 0 :: script ∧ control = 0 :: script := by
      simp only [symbolicRules, Bool.and_eq_true, decide_eq_true_eq]
      exact Iff.rfl
    rw [hcommits]
    constructor
    · rintro ⟨hkey, rfl⟩
      obtain rfl := (List.cons.inj (List.cons.inj hkey).2).2
      exact ⟨rfl, rfl⟩
    · rintro ⟨rfl, rfl⟩
      exact ⟨rfl, rfl⟩
  control leaf := by
    have hhead : (platform.controlBlockSerialize (platform.taprootControlBlock
        platform.numsInternalKey leaf)).head? = some 0 := rfl
    rw [hhead]
    decide
  output_inj (key key' : List UInt8) h := by
    have hcons : (0x51 :: 1 :: key : List UInt8) = 0x51 :: 1 :: key' := h
    exact (List.cons.inj (List.cons.inj hcons).2).2
  default tx index prevouts (leaf : List UInt8) := by
    change some (symbolicSighash 0 none tx index prevouts (some leaf)) = some _
    simp only [symbolicSighash, Option.getD_some, and_self, if_true, List.append_nil]
    rfl
  binding hashType annex tx index prevouts leaf tx' index' prevouts' leaf' digest h h' := by
    have heq := Option.some.inj (h.trans h'.symm)
    have htx := (transactionWord_prefixCode _ _ _ _ trivial trivial heq).1
    rw [← htx]
    exact (committed_stripWitness (P := platform) tx).symm

theorem symbolicRules_readsKey {key : List UInt8} (h : key.length = 32) :
    symbolicRules.ReadsKey key where
  length := h
  read := if_pos h

/-- A coin whose client key is 2 and whose enclave key is 9. -/
def chainMetadata : CoinMetadata platform where
  keys := ⟨1, bytes 1, (bytes 2).toList, (bytes 9).toList⟩
  network := .regtest
  outpoint := ⟨(5 : Nat), 0⟩
  amountSat := 1000

def chainDigest : platform.Digest :=
  (recoveryDigest chainMetadata (bytes 4).toList 100).toOption.getD []

/-- Its recovery after 100 blocks. -/
def chainRecovery : SignedRecovery platform :=
  signedRecovery chainMetadata (bytes 4).toList 100
    (platform.signSchnorr (bytes 9) chainDigest) (bytes 2) chainDigest

theorem verify_recovery_iff_admitted_chain :
    symbolicRules.Admits chainRecovery.transaction 0 [chainMetadata.fundingOutput] 700 800 0 ∧
      ¬ symbolicRules.Admits chainRecovery.transaction 0 [chainMetadata.fundingOutput] 700 799 0 := by
  have hverified : verifyRecovery chainMetadata chainRecovery = .ok () := by
    decide +kernel
  have hadmits := ((verify_recovery_iff_admitted symbolicRules_laws taprootLaws
    (symbolicRules_readsKey (bytes 2).toList_length) (symbolicRules_readsKey (bytes 9).toList_length)
    chainRecovery).1 hverified).2.2.2
  rw [hadmits, hadmits]
  decide

end Demo

end Tinylayer
