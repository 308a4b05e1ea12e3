import Tinylayer.Client.Proofs.MachineProofs
import Tinylayer.Wallet.Machine
import Tinylayer.Wallet.Proofs.ExitProofs

/-!
# Proofs: fundings, sweeps and exits do not panic

On machine integers, and with the indices of the source, the functions that build and check a
funding, a sweep and an exit compute what they compute without, on every journal and package that
can be read from a file.
-/

open MayPanic (Computes)

namespace Tinylayer.Machine

variable {P : Platform} {ε α : Type}

/-- A product of a fee rate and a size fits 128 bits. -/
theorem fee_lt {feeRateSatVb vsize : Nat} (hrate : feeRateSatVb ≤ u64Max) (hsize : vsize < 2 ^ 64) :
    feeRateSatVb * vsize < 2 ^ 128 := by
  have hle : feeRateSatVb * vsize ≤ (2 ^ 64 - 1) * 2 ^ 64 :=
    Nat.mul_le_mul hrate (Nat.le_of_lt hsize)
  omega

/-- A difference of `u64` values is one. -/
theorem checkedSub_bind_toU64 {a b : Nat} (ha : a ≤ u64Max) :
    (checkedSub a b).bind toU64 = checkedSub a b := by
  unfold checkedSub
  split
  · exact toU64_eq_some.2 ⟨Nat.le_trans (Nat.sub_le a b) ha, rfl⟩
  · rfl

variable (hsize : P.SizeLaws) {feeRateSatVb : Nat} (hrate : feeRateSatVb ≤ u64Max)
include hsize hrate

theorem checkedFee_eq (tx : P.Tx) :
    checkedFee feeRateSatVb (P.vsize tx) = toU64 (feeRateSatVb * P.vsize tx) := by
  have hlt := hsize.bounded tx
  rw [checkedFee, MayPanic.checkedMul_eq (fee_lt hrate (by omega)), Option.bind_some]

theorem Library.Lawful.buildSourceFunding_computes {lib : Library P} (hlib : lib.Lawful)
    (keys : CoinKeys P) (network : NetworkId) (secret : P.SecretKey) (source : SourceUtxo P)
    (amountSat maxFeeSat : Nat) :
    Computes (lib.buildSourceFunding keys network secret source amountSat feeRateSatVb maxFeeSat)
      (Tinylayer.buildSourceFunding keys network secret source amountSat feeRateSatVb
        maxFeeSat) := by
  unfold Library.buildSourceFunding Tinylayer.buildSourceFunding
  refine .check fun _ _ => .check fun _ _ => .check fun _ _ => .check fun _ _ => .check fun _ _ =>
    .check fun _ _ => .value (hlib.fundingScript_computes keys) (.check fun _ _ =>
    setWitness_computes rfl ?_)
  rw [checkedFee_eq hsize hrate]
  refine .check fun _ _ => .check fun _ _ => .check fun _ _ => .index rfl (.check fun _ _ =>
    setValue_computes rfl ?_)
  refine .check fun _ _ => .check fun _ _ => setWitness_computes rfl (.check fun _ _ => .pure _)

theorem buildSourceSweep_computes (network : NetworkId) (secret : P.SecretKey)
    (sources : List (SourceUtxo P)) (destination : String) (maxFeeSat : Nat) :
    Computes (buildSourceSweep network secret sources destination feeRateSatVb maxFeeSat)
      (Tinylayer.buildSourceSweep network secret sources destination feeRateSatVb maxFeeSat) := by
  have hinputs : ∀ (l : List (SourceUtxo P)) (signatures : List P.Signature),
      (l.map (sourceInput placeholderWitness)).zipWith (fun input signature =>
        { input with witness := [P.signatureBytes signature] }) signatures =
      l.zipWith (fun source signature => sourceInput [P.signatureBytes signature] source)
        signatures := by
    intro l signatures
    rw [List.zipWith_map_left]
    rfl
  have hdistinct : ∀ l : List (SourceUtxo P),
      Computes (ε := String) (MayPanic.all (fun pair => do
        let first ← MayPanic.index pair 0
        let second ← MayPanic.index pair 1
        return decide (first.outpoint ≠ second.outpoint)) (MayPanic.slices l))
      (.ok ((windows l).all fun pair => decide (pair.1.outpoint ≠ pair.2.outpoint))) :=
    fun l => .all_slices fun _ _ => .index rfl (.index rfl (.pure _))
  have hall : ∀ l : List (SourceUtxo P),
      (windows l).all (fun pair => decide (pair.1.outpoint ≠ pair.2.outpoint)) = true ↔
        ∀ pair ∈ windows l, pair.1.outpoint ≠ pair.2.outpoint := by
    simp only [List.all_eq_true, decide_eq_true_eq, implies_true]
  unfold buildSourceSweep Tinylayer.buildSourceSweep
  refine .check fun _ _ => .check fun _ _ => .check fun _ _ => .check fun _ _ => .check fun _ _ =>
    .check fun _ _ => .check fun _ _ => .value (hdistinct _) ?_
  rw [ensure_congr (hall _)]
  refine .check fun _ _ => .check fun inputSat _ => ?_
  dsimp only
  rw [checkedFee_eq hsize hrate]
  refine .check fun _ _ => .check fun _ _ => .check fun outputSat _ => .index rfl
    (.check fun _ _ => setValue_computes rfl ?_)
  have hstrip : ∀ script : Script, Transaction.stripWitness
      (sourceSweepTransaction ((sortSources sources).map (sourceInput placeholderWitness)) script
        outputSat) =
      sourceSweepTransaction ((sortSources sources).map (sourceInput [])) script outputSat := by
    intro script
    simp [Transaction.stripWitness, sourceSweepTransaction, sourceInput]
  dsimp only [sourceSweepTransaction, List.set_cons_zero] at hstrip ⊢
  rw [hstrip, List.length_map]
  refine .check fun signatures _ => ?_
  rw [hinputs]
  exact .check fun _ _ => .pure _

theorem buildExitChild_computes (recovery : SignedRecovery P) {amountSat : Nat}
    (hamount : amountSat ≤ u64Max) (secret : P.SecretKey) (destination : Script) :
    Computes (buildExitChild recovery amountSat secret destination feeRateSatVb)
      (Tinylayer.buildExitChild recovery amountSat secret destination feeRateSatVb) := by
  have hparent := hsize.bounded recovery.transaction
  have hchild := hsize.bounded
    (exitChild recovery.transaction amountSat destination [List.replicate 64 0])
  unfold buildExitChild Tinylayer.buildExitChild
  refine .check fun _ _ => .check fun _ _ => .check fun _ _ => .check fun _ _ =>
    setWitness_computes rfl ?_
  have hpackage : P.vsize recovery.transaction + P.vsize (exitChild recovery.transaction amountSat
      destination [List.replicate 64 0]) < 2 ^ 64 := by omega
  refine .add hpackage (.mul (fee_lt hrate hpackage) ?_)
  rw [checkedSub_bind_toU64 hamount]
  refine .check fun outputSat _ => .index rfl (.check fun _ _ => setValue_computes rfl ?_)
  refine .check fun _ _ => .check fun _ _ => ?_
  exact Computes.index rfl (.pure _)

omit hsize hrate in
theorem exitFee_computes (metadata : CoinMetadata P) {child : P.Tx} (h : child.output ≠ []) :
    Computes (exitFee metadata child) (Tinylayer.exitFee metadata child) := by
  obtain ⟨output, outputs, houtput⟩ := List.exists_cons_of_ne_nil h
  unfold exitFee Tinylayer.exitFee
  rw [houtput]
  exact .index rfl (.of _)

omit hsize hrate in
/-- The child of an exit has an output. -/
theorem output_ne_nil {recovery : SignedRecovery P} {amountSat : Nat} {secret : P.SecretKey}
    {destination : Script} {child : P.Tx}
    (h : Client.lift (Tinylayer.buildExitChild recovery amountSat secret destination feeRateSatVb) =
      .ok child) : child.output ≠ [] := by
  simp only [Tinylayer.buildExitChild, Client.lift_eq_ok, Except.bind_eq_ok, Except.ensure_eq_ok,
    exists_unit, Except.context_eq_ok, Except.pure_eq_ok] at h
  obtain ⟨_, _, _, _, _, _, _, _, _, _, _, rfl⟩ := h
  exact List.cons_ne_nil _ _

omit hsize hrate in
/-- The amount of a coin with a verified recovery is a `u64`. -/
theorem amount_le {coin : WalletCoin P} {network : NetworkId} {metadata : CoinMetadata P}
    {recovery : SignedRecovery P} {key : P.SecretKey}
    (h : ownedRecovery coin network = .ok (metadata, recovery, key)) :
    metadata.amountSat ≤ u64Max := by
  obtain ⟨_, _, _, _, _, _, _, _, hverify⟩ := ownedRecovery_eq_ok.1 h
  have hamount := (verifyRecovery_eq_ok.1 hverify).terms.amount_le
  simp only [maxMoney, u64Max] at hamount ⊢
  omega

/-! ## Sweeps -/

namespace SourceSweepJournal

theorem prepare_computes (secret : P.SecretKey) (network : NetworkId)
    (sources : List (SourceUtxo P)) (destination : String) (maxFeeSat : Nat) :
    Computes (prepare secret network sources destination feeRateSatVb maxFeeSat)
      (Tinylayer.SourceSweepJournal.prepare secret network sources destination feeRateSatVb
        maxFeeSat) :=
  .check fun _ _ => .check fun _ _ =>
    (buildSourceSweep_computes hsize hrate _ _ _ _ _).bind fun _ _ => .pure _

omit hrate in
theorem validate_computes {journal : SourceSweepJournal P}
    (hjournal : journal.feeRateSatVb ≤ u64Max) (secret : P.SecretKey) :
    Computes (validate journal secret) (journal.validate secret) :=
  .check fun _ _ => (buildSourceSweep_computes hsize hjournal _ _ _ _ _).bind fun _ _ => .of _

omit hrate in
theorem armSubmission_computes {journal : SourceSweepJournal P}
    (hjournal : journal.feeRateSatVb ≤ u64Max) (secret : P.SecretKey) :
    Computes (armSubmission journal secret) (journal.armSubmission secret) :=
  (validate_computes hsize hjournal secret).bind fun _ _ => .pure _

omit hrate in
theorem markObserved_computes {journal : SourceSweepJournal P}
    (hjournal : journal.feeRateSatVb ≤ u64Max) (secret : P.SecretKey) (observed : P.Tx) :
    Computes (markObserved journal secret observed) (journal.markObserved secret observed) :=
  (validate_computes hsize hjournal secret).bind fun _ _ => .check fun _ _ => .check fun _ _ =>
    .pure _

end SourceSweepJournal

/-! ## Exits -/

omit hsize hrate in
theorem lift_computes {x : MayPanic Client.Error α} {y : Except Client.Error α}
    (h : Computes x y) : Computes (lift x) (Client.lift y) := h.mapError _

omit hsize hrate in
/-- The index that was looked for is one of the history. -/
theorem recoveryIndex_getElem? {history : List (SignedRecovery P)} {txid : P.Txid} {index : Nat}
    (h : recoveryIndex history txid = some index) :
    ∃ recovery, history[index]? = some recovery := by
  obtain ⟨hindex, _⟩ := List.findIdx?_eq_some_iff_getElem.1 h
  exact ⟨_, List.getElem?_eq_getElem hindex⟩

namespace Library.Lawful

variable {lib : Library P} (hlib : lib.Lawful)
include hlib

omit hsize hrate

theorem verifyObservedFundingOutput_computes (metadata : CoinMetadata P)
    (observed : ObservedFunding P) (minimumConfirmations : Nat) :
    Computes (lib.verifyObservedFundingOutput metadata observed minimumConfirmations)
      (Tinylayer.verifyObservedFundingOutput metadata observed minimumConfirmations) :=
  .check fun _ _ =>
    (lift_computes (hlib.verifyFundingUtxo_computes _ _ _)).bind fun _ _ => .check fun _ _ => .of _

theorem verifyExitFunding_computes (coin : WalletCoin P) (observed : ObservedFunding P)
    (minimumConfirmations : Nat) (spendingTxid : Option P.Txid) (spendingConfirmed : Bool)
    (savedExitParent : Option P.Txid) :
    Computes (lib.verifyExitFunding coin observed minimumConfirmations spendingTxid
        spendingConfirmed savedExitParent)
      (Tinylayer.verifyExitFunding coin observed minimumConfirmations spendingTxid
        spendingConfirmed savedExitParent) := by
  unfold verifyExitFunding Tinylayer.verifyExitFunding
  refine .check fun metadata _ => ?_
  refine (hlib.verifyObservedFundingOutput_computes metadata observed _).bind fun _ _ => ?_
  split
  · exact .pure _
  · refine .check fun txid _ => .check fun index hindex => .check fun _ _ => .check fun _ _ => ?_
    -- `position` gives an index of the history
    obtain ⟨recovery, hrecovery⟩ := recoveryIndex_getElem? (Except.context_eq_ok.1 hindex)
    rw [hrecovery]
    exact .index hrecovery ((lift_computes (hlib.verifyRecovery_computes metadata recovery)).bind
      fun _ _ => .of _)

theorem ownedRecovery_computes (coin : WalletCoin P) (network : NetworkId) :
    Computes (lib.ownedRecovery coin network) (Tinylayer.ownedRecovery coin network) := by
  unfold ownedRecovery Tinylayer.ownedRecovery
  refine .check fun metadata _ => .check fun _ _ => .check fun _ _ => .check fun _ _ =>
    .check fun _ _ => .check fun recovery _ => .check fun _ _ => ?_
  exact (lift_computes (hlib.verifyRecovery_computes metadata recovery)).bind fun _ _ => .pure _

include hsize

/-- `ExitPackage::validate` indexes the outputs of a child that it found to be the expected one. -/
theorem validatePackage_computes {package : ExitPackage P} (hpackage : package.feeRateSatVb ≤ u64Max)
    (coin : WalletCoin P) :
    Computes (ExitPackage.validate lib package coin) (package.validate coin) := by
  unfold ExitPackage.validate Tinylayer.ExitPackage.validate
  refine .check fun _ _ => .check fun _ _ => .check fun address _ => ?_
  refine (hlib.ownedRecovery_computes coin _).bind ?_
  rintro ⟨metadata, recovery, key⟩ howned
  refine .check fun _ _ => ?_
  have hchild := buildExitChild_computes hsize hpackage recovery (amount_le howned) key
    (P.addressScript address)
  refine (lift_computes hchild).bind fun child hok => .check fun _ hsame => ?_
  have houtput := output_ne_nil hok
  rw [Except.ensure_eq_ok.1 hsame] at houtput
  exact (exitFee_computes metadata houtput).bind fun _ _ => .check fun _ _ => .of _

include hrate in
theorem preparePackage_computes (coin : WalletCoin P) (network : NetworkId) (destination : String)
    (fundingConfirmations maxFeeSat : Nat) :
    Computes (ExitPackage.prepare lib coin network destination fundingConfirmations feeRateSatVb
        maxFeeSat)
      (Tinylayer.ExitPackage.prepare coin network destination fundingConfirmations feeRateSatVb
        maxFeeSat) := by
  unfold ExitPackage.prepare Tinylayer.ExitPackage.prepare
  refine .check fun _ _ => .check fun address _ => ?_
  refine (hlib.ownedRecovery_computes coin network).bind ?_
  rintro ⟨metadata, recovery, key⟩ howned
  refine .check fun _ _ => ?_
  have hchild := buildExitChild_computes hsize hrate recovery (amount_le howned) key
    (P.addressScript address)
  refine (lift_computes hchild).bind fun child hok => ?_
  refine (exitFee_computes metadata (output_ne_nil hok)).bind fun _ _ => .check fun _ _ => ?_
  exact (hlib.validatePackage_computes hsize hrate coin).bind fun _ _ => .pure _

include hrate in
theorem prepareExit_computes (coin : WalletCoin P) (network : NetworkId) (destination : String)
    (fundingConfirmations maxFeeSat : Nat) :
    Computes (ExitJournal.prepare lib coin network destination fundingConfirmations feeRateSatVb
        maxFeeSat)
      (Tinylayer.ExitJournal.prepare coin network destination fundingConfirmations feeRateSatVb
        maxFeeSat) :=
  (hlib.preparePackage_computes hsize hrate coin network destination _ _).bind fun _ _ => .pure _

variable {journal : ExitJournal P} (hjournal : journal.package.feeRateSatVb ≤ u64Max)
  (coin : WalletCoin P)
include hjournal

theorem validateExit_computes :
    Computes (ExitJournal.validate lib journal coin) (journal.validate coin) :=
  hlib.validatePackage_computes hsize hjournal coin

theorem armExit_computes :
    Computes (ExitJournal.armSubmission lib journal coin) (journal.armSubmission coin) :=
  (hlib.validateExit_computes hsize hjournal coin).bind fun _ _ => .pure _

theorem validateObservedParent_computes (parent : P.Tx) :
    Computes (ExitJournal.validateObservedParent lib journal coin parent)
      (journal.validateObservedParent coin parent) := by
  refine (hlib.validateExit_computes hsize hjournal coin).bind fun _ _ => .check fun _ _ => ?_
  exact (hlib.ownedRecovery_computes coin _).bind fun (metadata, recovery, _) _ =>
    lift_computes (hlib.verifyRecovery_computes metadata { recovery with transaction := parent })

theorem markExitObserved_computes (parent child : P.Tx) :
    Computes (ExitJournal.markObserved lib journal coin parent child)
      (journal.markObserved coin parent child) := by
  refine (hlib.validateExit_computes hsize hjournal coin).bind fun _ _ => .check fun _ _ => ?_
  exact (hlib.validateObservedParent_computes hsize hjournal coin parent).bind fun _ _ =>
    .check fun _ _ => .pure _

end Library.Lawful

end Tinylayer.Machine
