import Tinylayer.Wallet.MachineState
import Tinylayer.Wallet.Proofs.MachineProofs
import Tinylayer.Wallet.Proofs.HistoryProofs

/-!
# Proofs: the wallet does not panic

The operations of the wallet compute on machine integers, and with the `expect`s of the source,
what they compute without: for every state, not only for those that a run leads to.
-/

open MayPanic (Computes)

namespace Tinylayer.Machine

variable {P : Platform} {ε : Type}

/-! ## Envelopes -/

theorem xNonce_computes {α : Type} {bytes : List UInt8} {f : List.Vector UInt8 24 → MayPanic ε α}
    {y : Except ε α} (h : bytes.length = 24) (hf : Computes (f ⟨bytes, h⟩) y) :
    Computes (xNonce bytes >>= f) y := by
  rw [xNonce, dif_pos h]
  exact hf

theorem aad_computes (request : TransferRequest) : Computes (aad P request) (request.aad P) := by
  have hcapacity : transferInfo.length + 214 < 2 ^ 64 := by decide
  unfold aad TransferRequest.aad
  refine .check fun _ _ => .check fun _ _ => .add hcapacity ?_
  exact .check fun _ _ => .check fun _ _ => .check fun _ _ => .check fun _ _ => .check fun _ _ =>
    .pure _

theorem encryptTransfer_computes (draws : EnvelopeDraws P) (request : TransferRequest)
    (payload : TransferPayload P) :
    Computes (encryptTransfer draws request payload)
      (Tinylayer.encryptTransfer draws request payload) := by
  unfold encryptTransfer Tinylayer.encryptTransfer
  refine .check fun _ _ => .check fun _ _ => .check fun _ _ => .check fun _ _ => .check fun _ _ =>
    .check fun _ _ => .check fun _ _ => ?_
  refine (aad_computes request).bind fun _ _ => ?_
  exact xNonce_computes draws.nonce.length_val (.check fun _ _ => .pure _)

theorem decryptTransfer_computes (reader : PayloadReader P) (request : TransferRequest)
    (transportSecret : Bytes32) (envelope : TransferEnvelope) :
    Computes (decryptTransfer reader request transportSecret envelope)
      (Tinylayer.decryptTransfer reader request transportSecret envelope) := by
  have hlimit : maxTransferCiphertextSize * 2 < 2 ^ 64 := by decide
  unfold decryptTransfer Tinylayer.decryptTransfer
  refine .check fun _ _ => .check fun _ _ => .check fun _ _ => .check fun _ _ => .check fun _ _ =>
    .check fun _ _ => .check fun _ _ => .check fun _ _ => .check fun _ hlength => ?_
  refine .mul hlimit (.check fun _ _ => .check fun _ _ => ?_)
  refine (aad_computes request).bind fun _ _ => ?_
  exact xNonce_computes (Except.ensure_eq_ok.1 hlength) (.check fun _ _ => .check fun _ _ =>
    .check fun _ _ => .check fun _ _ => .pure _)

/-! ## Histories -/

theorem nextDelay_computes {history : List (SignedRecovery P)} (h : history ≠ []) :
    Computes (nextDelay history) (WalletState.nextDelay history) := by
  have hlatest := List.getLast?_eq_some_getLast h
  unfold nextDelay WalletState.nextDelay
  rw [hlatest]
  exact .expect rfl (.of _)

/-- A request that can be answered is for a coin with a history. -/
theorem history_of_validateOutgoing {self : WalletState P} {network : NetworkId}
    {request : TransferRequest} (h : self.validateOutgoingTransferRequest network request = .ok ())
    {coin : WalletCoin P} (hcoin : self.coin = some coin) : coin.history ≠ [] := by
  simp only [WalletState.validateOutgoingTransferRequest, Except.bind_eq_ok, Except.ensure_eq_ok,
    exists_unit, Except.context_eq_ok, hcoin, Option.some.injEq, exists_eq_left'] at h
  obtain ⟨_, _, _, _, hne, _⟩ := h
  exact hne

/-- A funding transaction is the one of a journal. -/
theorem journal_of_fundingTransaction {self : WalletState P} {transaction : P.Tx}
    (h : self.fundingTransaction = .ok transaction) :
    ∃ coin funding, self.coin = some coin ∧ coin.funding = some funding := by
  simp only [WalletState.fundingTransaction, Except.bind_eq_ok, Except.context_eq_ok] at h
  obtain ⟨coin, hcoin, _, _, funding, hfunding, _⟩ := h
  exact ⟨coin, funding, hcoin, hfunding⟩

namespace Library.Lawful

variable {lib : Library P} (hlib : lib.Lawful)
include hlib

theorem verifyPublicHistory_computes (metadata : CoinMetadata P) (status : CoinStatus P)
    (history : List (SignedRecovery P)) (fundingConfirmations minimumReactionBlocks : Nat) :
    Computes (lib.verifyPublicHistory metadata status history fundingConfirmations
        minimumReactionBlocks)
      (Tinylayer.verifyPublicHistory metadata status history fundingConfirmations
        minimumReactionBlocks) := by
  unfold verifyPublicHistory Tinylayer.verifyPublicHistory
  refine .check fun _ _ => .check fun _ _ => ?_
  cases hlatest : history.getLast? with
  | none => exact .refused fun h => h (List.getLast?_eq_none_iff.1 hlatest)
  | some latest =>
    have hne : history ≠ [] := by
      rintro rfl
      cases hlatest
    refine .passed hne ?_
    have hrecoveries := Computes.each (l := history) fun recovery _ =>
      hlib.verifyRecovery_computes metadata recovery
    refine (lift_computes hrecoveries).bind fun _ _ => ?_
    refine (lift_computes (validateReactionWindows_computes _ history)).bind fun _ _ => ?_
    exact .expect rfl (.of _)

/-! ## Funding -/

theorem beginFunding_computes (hsize : P.SizeLaws) {feeRateSatVb : Nat}
    (hrate : feeRateSatVb ≤ u64Max) (draws : WalletState.FundingDraws P) (network : NetworkId)
    (sourceSecret : P.SecretKey) (source : SourceUtxo P) (status : CoinStatus P)
    (amountSat delayBlocks maxFeeSat minimumReactionBlocks : Nat) (self : WalletState P) :
    Computes (lib.beginFunding draws network sourceSecret source status amountSat delayBlocks
        feeRateSatVb maxFeeSat minimumReactionBlocks self)
      ((WalletState.beginFunding draws network sourceSecret source status amountSat delayBlocks
        feeRateSatVb maxFeeSat minimumReactionBlocks).attempt self) := by
  unfold beginFunding WalletState.beginFunding
  simp only [Update.attempt_get_bind, Update.attempt_of_bind, Update.attempt_set_bind,
    Update.attempt_pure, bind_assoc, pure_bind]
  refine .check fun _ _ => .check fun _ _ => .check fun _ _ => .check fun coin hcoin =>
    .check fun _ _ => .check fun _ _ => .check fun _ _ => .check fun _ _ => .check fun _ _ => ?_
  refine (hlib.buildSourceFunding_computes hsize hrate _ _ _ _ _ _).bind fun _ _ => ?_
  refine (lift_computes (hlib.prepareRecovery_computes _ _ _ _ _ _ _ _ _)).bind fun _ _ => ?_
  exact .expect (Except.context_eq_ok.1 hcoin) (.pure _)

theorem completeFundingRecovery_computes (status : CoinStatus P) (self : WalletState P) :
    Computes (lib.completeFundingRecovery status self)
      ((WalletState.completeFundingRecovery status).attempt self) := by
  unfold completeFundingRecovery WalletState.completeFundingRecovery
  simp only [Update.attempt_get_bind, Update.attempt_of_bind]
  rcases self.pending with _ | _ | ⟨⟨nextCapability, withdrawalSecret⟩ | _, _ | ⟨attempt, response⟩⟩
  case some.recovery.fund.responded =>
    simp only [Update.attempt_set, bind_assoc, pure_bind]
    refine .check fun _ _ => .check fun coin _ => .check fun _ _ => .check fun _ _ => ?_
    refine (lift_computes (hlib.completeRecovery_computes _ _ _ _)).bind fun recovery _ => ?_
    refine .check fun _ _ => .check fun _ _ => .check fun _ _ => .sub ?_ ?_
    · simp
    · rw [List.length_append, List.length_singleton, Nat.add_sub_cancel]
      exact .pure _
  all_goals rfl

theorem validateFinalizedFunding_computes (metadata : CoinMetadata P) (transaction : P.Tx) :
    Computes (lib.validateFinalizedFunding metadata transaction)
      (Tinylayer.validateFinalizedFunding metadata transaction) := by
  unfold validateFinalizedFunding Tinylayer.validateFinalizedFunding
  refine .check fun _ _ => .check fun _ _ => ?_
  refine .value (hlib.fundingScript_computes metadata.keys) (.check fun _ _ => .check fun _ _ => ?_)
  exact lift_computes (hlib.verifyFundingUtxo_computes _ _ _)

theorem fundingTransaction_computes (self : WalletState P) :
    Computes (lib.fundingTransaction self) self.fundingTransaction := by
  unfold fundingTransaction WalletState.fundingTransaction
  refine .check fun coin _ => .check fun metadata _ => .check fun funding _ => .check fun _ _ => ?_
  refine (hlib.validateFinalizedFunding_computes metadata _).bind fun _ _ => ?_
  refine .check fun recovery _ => .check fun _ _ => ?_
  exact (lift_computes (hlib.verifyRecovery_computes metadata recovery)).bind fun _ _ => .pure _

theorem markFundingBroadcast_computes (txid : P.Txid) (self : WalletState P) :
    Computes (lib.markFundingBroadcast txid self)
      ((WalletState.markFundingBroadcast txid).attempt self) := by
  unfold markFundingBroadcast WalletState.markFundingBroadcast
  simp only [Update.attempt_get_bind, Update.attempt_of_bind, Update.attempt_set, bind_assoc]
  refine (hlib.fundingTransaction_computes self).bind fun _ hfunding => .check fun _ _ => ?_
  obtain ⟨coin, funding, hcoin, hjournal⟩ := journal_of_fundingTransaction hfunding
  exact .expect (by rw [hcoin]; exact hjournal) (.pure _)

theorem verifyFunding_computes (self : WalletState P) (observed : P.Tx) (confirmations : Nat)
    (unspent : Bool) :
    Computes (lib.verifyFunding self observed confirmations unspent)
      (self.verifyFunding observed confirmations unspent) := by
  unfold verifyFunding WalletState.verifyFunding
  refine (hlib.fundingTransaction_computes self).bind fun _ hfunding => ?_
  obtain ⟨coin, funding, hcoin, hjournal⟩ := journal_of_fundingTransaction hfunding
  refine .check fun _ _ => .check fun _ _ => ?_
  refine .expect hcoin (.given (Except.context_eq_ok.2 hcoin) ?_)
  refine .expect hjournal (.given (Except.context_eq_ok.2 hjournal) ?_)
  exact .check fun _ _ => .pure _

/-! ## Sending -/

theorem verifyObservedFunding_computes (metadata : CoinMetadata P) (observed : ObservedFunding P)
    (minimumConfirmations : Nat) :
    Computes (lib.verifyObservedFunding metadata observed minimumConfirmations)
      (Tinylayer.verifyObservedFunding metadata observed minimumConfirmations) :=
  (hlib.verifyObservedFundingOutput_computes metadata observed _).bind fun _ _ => .of _

theorem beginTransfer_computes (network : NetworkId) (request : TransferRequest)
    (status : CoinStatus P) (observedFunding : ObservedFunding P)
    (minimumConfirmations minimumReactionBlocks : Nat) (self : WalletState P) :
    Computes (lib.beginTransfer network request status observedFunding minimumConfirmations
        minimumReactionBlocks self)
      ((WalletState.beginTransfer network request status observedFunding minimumConfirmations
        minimumReactionBlocks).attempt self) := by
  unfold beginTransfer WalletState.beginTransfer
  simp only [Update.attempt_get_bind, Update.attempt_of_bind, Update.attempt_set_bind,
    Update.attempt_pure, bind_assoc, pure_bind]
  refine .check fun _ _ => .check fun _ hrequest => .check fun coin hcoin => .check fun _ _ =>
    .check fun metadata _ => ?_
  refine (hlib.verifyObservedFunding_computes metadata _ _).bind fun _ _ => ?_
  refine .check fun _ _ => .check fun _ _ => .check fun key _ => ?_
  refine (lift_computes (hlib.verifyHistory_computes _ _ _ _ _ _ _ _)).bind fun _ _ => ?_
  have hne := history_of_validateOutgoing hrequest (Except.context_eq_ok.1 hcoin)
  refine (nextDelay_computes hne).bind fun _ _ => ?_
  refine .check fun _ _ => .check fun _ _ => .check fun _ _ => ?_
  refine (lift_computes (hlib.prepareRecovery_computes _ _ _ _ _ _ _ _ _)).bind fun _ _ => ?_
  refine (lift_computes (hlib.recoverySerializationTemplate_computes _)).bind fun _ _ => ?_
  exact .check fun _ _ => .pure _

theorem validatePendingTransfer_computes (self : WalletState P) (status : CoinStatus P)
    (observedFunding : ObservedFunding P) (minimumConfirmations minimumReactionBlocks : Nat) :
    Computes (lib.validatePendingTransfer self status observedFunding minimumConfirmations
        minimumReactionBlocks)
      (self.validatePendingTransfer status observedFunding minimumConfirmations
        minimumReactionBlocks) := by
  unfold validatePendingTransfer WalletState.validatePendingTransfer
  rcases self.pending with _ | _ | ⟨_ | request, attempt | _⟩
  case some.recovery.transfer.prepared =>
    refine .check fun coin hcoin => .check fun metadata _ => .check fun _ hrequest =>
      .check fun _ _ => .check fun _ _ => ?_
    split
    · exact .pure _
    refine .check fun _ _ => ?_
    refine (hlib.verifyObservedFunding_computes metadata _ _).bind fun _ _ => ?_
    refine .check fun _ _ => .check fun _ _ => .check fun _ _ => .check fun key _ => ?_
    refine (lift_computes (hlib.verifyHistory_computes _ _ _ _ _ _ _ _)).bind fun _ _ => ?_
    have hne := history_of_validateOutgoing hrequest (Except.context_eq_ok.1 hcoin)
    refine .check fun _ _ => (nextDelay_computes hne).bind fun _ _ => ?_
    exact .check fun _ _ => .of _
  all_goals rfl

theorem completeTransfer_computes (draws : EnvelopeDraws P) (status : CoinStatus P)
    (self : WalletState P) :
    Computes (lib.completeTransfer draws status self)
      ((WalletState.completeTransfer draws status).attempt self) := by
  unfold completeTransfer WalletState.completeTransfer
  simp only [Update.attempt_get_bind, Update.attempt_of_bind]
  rcases self.pending with _ | _ | ⟨_ | request, attempt | ⟨attempt, response⟩⟩
  case some.recovery.transfer.responded =>
    simp only [Update.attempt_set_bind, Update.attempt_pure, bind_assoc, pure_bind]
    refine .check fun _ _ => .check fun coin hcoin => .check fun metadata _ => .check fun _ _ =>
      .check fun _ _ => .check fun _ _ => .check fun _ _ => .check fun _ _ => ?_
    refine (lift_computes (hlib.completeRecovery_computes _ _ _ _)).bind fun recovery _ => ?_
    refine .check fun _ _ => .check fun _ _ => .check fun _ _ => .check fun _ _ => ?_
    refine (encryptTransfer_computes draws request _).bind fun _ _ => ?_
    exact .expect (Except.context_eq_ok.1 hcoin) (.pure _)
  all_goals rfl

/-! ## Accepting -/

theorem acceptCoin_computes (reader : PayloadReader P) (self : WalletState P) (network : NetworkId)
    (request : TransferRequest) (envelope : TransferEnvelope) (status : CoinStatus P)
    (observedFunding : ObservedFunding P) (minimumConfirmations minimumReactionBlocks : Nat) :
    Computes (lib.acceptCoin reader self network request envelope status observedFunding
        minimumConfirmations minimumReactionBlocks)
      (WalletState.acceptCoin reader self network request envelope status observedFunding
        minimumConfirmations minimumReactionBlocks) := by
  unfold acceptCoin WalletState.acceptCoin
  refine .check fun _ _ => .check fun incoming _ => .check fun _ _ => ?_
  refine (decryptTransfer_computes reader request _ envelope).bind fun payload _ => ?_
  refine .check fun _ _ => .check fun _ _ => .check fun _ _ => .check fun _ _ => .check fun _ _ =>
    .check fun _ _ => .check fun _ _ => .check fun latest hlatest => .check fun _ _ =>
    .check fun _ _ => .check fun _ _ => .check fun _ _ => ?_
  refine (hlib.verifyObservedFunding_computes _ _ _).bind fun _ _ => .check fun _ _ => ?_
  refine (lift_computes (hlib.verifyHistory_computes _ _ _ _ _ _ _ _)).bind fun _ _ => ?_
  refine .check fun _ _ => .sub ?_ (.pure _)
  have hne : payload.history ≠ [] := by
    intro hnil
    rw [hnil] at hlatest
    cases hlatest
  exact List.length_pos_iff.2 hne

theorem acceptTransfer_computes (reader : PayloadReader P) (network : NetworkId)
    (request : TransferRequest) (envelope : TransferEnvelope) (status : CoinStatus P)
    (observedFunding : ObservedFunding P) (minimumConfirmations minimumReactionBlocks : Nat)
    (self : WalletState P) :
    Computes (lib.acceptTransfer reader network request envelope status observedFunding
        minimumConfirmations minimumReactionBlocks self)
      ((WalletState.acceptTransfer reader network request envelope status observedFunding
        minimumConfirmations minimumReactionBlocks).attempt self) := by
  unfold acceptTransfer WalletState.acceptTransfer
  simp only [Update.attempt_get_bind, Update.attempt_of_bind, bind_assoc]
  refine .check fun _ _ => .check fun _ _ => ?_
  cases self.coin with
  | some coin =>
    simp only [Update.attempt_of_bind, Update.attempt_pure]
    exact .check fun _ _ => .pure _
  | none =>
    simp only [Update.attempt_of_bind, Update.attempt_set_bind, Update.attempt_pure]
    exact (hlib.acceptCoin_computes reader self network request envelope status observedFunding _
      _).bind fun _ _ => .pure _

end Library.Lawful

/-! ## All of the core -/

/-- Whatever was read from a file, and whatever the other arguments are, the functions of the core
do not panic: they compute what they compute without `expect`s and with unbounded numbers. Rates are
of type `u64`. -/
structure Library.PanicFree (lib : Library P) : Prop where
  completeRecovery : ∀ request response prepared secret,
    Computes (lib.completeRecovery request response prepared secret)
      (Tinylayer.completeRecovery request response prepared secret)
  verifyRecovery : ∀ metadata recovery,
    Computes (lib.verifyRecovery metadata recovery) (Tinylayer.verifyRecovery metadata recovery)
  verifySignedRecovery : ∀ transaction amountSat keys,
    Computes (lib.verifySignedRecovery transaction amountSat keys)
      (Tinylayer.verifySignedRecovery transaction amountSat keys)
  verifyHistory : ∀ metadata status secret capability handoff withdrawal confirmations history,
    Computes (lib.verifyHistory metadata status secret capability handoff withdrawal confirmations
        history)
      (Tinylayer.verifyHistory metadata status secret capability handoff withdrawal confirmations
        history)
  verifyPublicHistory : ∀ metadata status history confirmations minimumReactionBlocks,
    Computes (lib.verifyPublicHistory metadata status history confirmations minimumReactionBlocks)
      (Tinylayer.verifyPublicHistory metadata status history confirmations minimumReactionBlocks)
  decryptTransfer : ∀ (reader : PayloadReader P) request secret envelope,
    Computes (decryptTransfer reader request secret envelope)
      (Tinylayer.decryptTransfer reader request secret envelope)
  verifyExitFunding : ∀ coin observed minimumConfirmations txid confirmed parent,
    Computes (lib.verifyExitFunding coin observed minimumConfirmations txid confirmed parent)
      (Tinylayer.verifyExitFunding coin observed minimumConfirmations txid confirmed parent)
  beginFunding : ∀ draws network secret source status amountSat delayBlocks feeRateSatVb maxFeeSat
      minimumReactionBlocks s, feeRateSatVb ≤ u64Max →
    Computes (lib.beginFunding draws network secret source status amountSat delayBlocks feeRateSatVb
        maxFeeSat minimumReactionBlocks s)
      ((WalletState.beginFunding draws network secret source status amountSat delayBlocks
        feeRateSatVb maxFeeSat minimumReactionBlocks).attempt s)
  completeFundingRecovery : ∀ status s,
    Computes (lib.completeFundingRecovery status s)
      ((WalletState.completeFundingRecovery status).attempt s)
  fundingTransaction : ∀ s, Computes (lib.fundingTransaction s) s.fundingTransaction
  markFundingBroadcast : ∀ txid s,
    Computes (lib.markFundingBroadcast txid s) ((WalletState.markFundingBroadcast txid).attempt s)
  verifyFunding : ∀ s observed confirmations unspent,
    Computes (lib.verifyFunding s observed confirmations unspent)
      (s.verifyFunding observed confirmations unspent)
  beginTransfer : ∀ network request status observed minimumConfirmations minimumReactionBlocks s,
    Computes (lib.beginTransfer network request status observed minimumConfirmations
        minimumReactionBlocks s)
      ((WalletState.beginTransfer network request status observed minimumConfirmations
        minimumReactionBlocks).attempt s)
  validatePendingTransfer : ∀ s status observed minimumConfirmations minimumReactionBlocks,
    Computes (lib.validatePendingTransfer s status observed minimumConfirmations
        minimumReactionBlocks)
      (s.validatePendingTransfer status observed minimumConfirmations minimumReactionBlocks)
  completeTransfer : ∀ draws status s,
    Computes (lib.completeTransfer draws status s)
      ((WalletState.completeTransfer draws status).attempt s)
  acceptTransfer : ∀ reader network request envelope status observed minimumConfirmations
      minimumReactionBlocks s,
    Computes (lib.acceptTransfer reader network request envelope status observed
        minimumConfirmations minimumReactionBlocks s)
      ((WalletState.acceptTransfer reader network request envelope status observed
        minimumConfirmations minimumReactionBlocks).attempt s)
  prepareExit : ∀ coin network destination confirmations feeRateSatVb maxFeeSat,
    feeRateSatVb ≤ u64Max →
    Computes (ExitJournal.prepare lib coin network destination confirmations feeRateSatVb maxFeeSat)
      (Tinylayer.ExitJournal.prepare coin network destination confirmations feeRateSatVb maxFeeSat)
  exitJournal : ∀ journal : ExitJournal P, journal.package.feeRateSatVb ≤ u64Max → ∀ coin,
    Computes (ExitJournal.validate lib journal coin) (journal.validate coin) ∧
    Computes (ExitJournal.armSubmission lib journal coin) (journal.armSubmission coin) ∧
    ∀ parent,
      Computes (ExitJournal.validateObservedParent lib journal coin parent)
        (journal.validateObservedParent coin parent) ∧
      ∀ child, Computes (ExitJournal.markObserved lib journal coin parent child)
        (journal.markObserved coin parent child)
  prepareSweep : ∀ (secret : P.SecretKey) network sources destination feeRateSatVb maxFeeSat,
    feeRateSatVb ≤ u64Max →
    Computes (SourceSweepJournal.prepare secret network sources destination feeRateSatVb maxFeeSat)
      (Tinylayer.SourceSweepJournal.prepare secret network sources destination feeRateSatVb
        maxFeeSat)
  sweepJournal : ∀ journal : SourceSweepJournal P, journal.feeRateSatVb ≤ u64Max → ∀ secret,
    Computes (SourceSweepJournal.validate journal secret) (journal.validate secret) ∧
    Computes (SourceSweepJournal.armSubmission journal secret) (journal.armSubmission secret) ∧
    ∀ observed, Computes (SourceSweepJournal.markObserved journal secret observed)
      (journal.markObserved secret observed)

theorem core_never_panics (hsize : P.SizeLaws) {lib : Library P} (hlib : lib.Lawful) :
    lib.PanicFree where
  completeRecovery := hlib.completeRecovery_computes
  verifyRecovery := hlib.verifyRecovery_computes
  verifySignedRecovery := hlib.verifySignedRecovery_computes
  verifyHistory := hlib.verifyHistory_computes
  verifyPublicHistory := hlib.verifyPublicHistory_computes
  decryptTransfer := decryptTransfer_computes
  verifyExitFunding := hlib.verifyExitFunding_computes
  beginFunding draws network secret source status amountSat delayBlocks _ maxFeeSat
      minimumReactionBlocks s hrate :=
    hlib.beginFunding_computes hsize hrate draws network secret source status amountSat delayBlocks
      maxFeeSat minimumReactionBlocks s
  completeFundingRecovery := hlib.completeFundingRecovery_computes
  fundingTransaction := hlib.fundingTransaction_computes
  markFundingBroadcast := hlib.markFundingBroadcast_computes
  verifyFunding := hlib.verifyFunding_computes
  beginTransfer := hlib.beginTransfer_computes
  validatePendingTransfer := hlib.validatePendingTransfer_computes
  completeTransfer := hlib.completeTransfer_computes
  acceptTransfer := hlib.acceptTransfer_computes
  prepareExit coin network destination confirmations _ maxFeeSat hrate :=
    hlib.prepareExit_computes hsize hrate coin network destination confirmations maxFeeSat
  exitJournal _ hjournal coin := by
    refine ⟨hlib.validateExit_computes hsize hjournal coin,
      hlib.armExit_computes hsize hjournal coin, fun parent => ⟨?_, fun child => ?_⟩⟩
    · exact hlib.validateObservedParent_computes hsize hjournal coin parent
    · exact hlib.markExitObserved_computes hsize hjournal coin parent child
  prepareSweep secret network sources destination _ maxFeeSat hrate :=
    SourceSweepJournal.prepare_computes hsize hrate secret network sources destination maxFeeSat
  sweepJournal _ hjournal secret := by
    refine ⟨SourceSweepJournal.validate_computes hsize hjournal secret,
      SourceSweepJournal.armSubmission_computes hsize hjournal secret, fun observed => ?_⟩
    exact SourceSweepJournal.markObserved_computes hsize hjournal secret observed

section Demo

open Symbolic

def danglingKeys : CoinKeys exactPlatform := ⟨1, bytes 1, (bytes 2).toList, (bytes 9).toList⟩

/-- A coin that claims to own a recovery it does not have. -/
def danglingCoin : WalletCoin exactPlatform where
  clientSecret := bytes 2
  keys := danglingKeys
  metadata := some ⟨danglingKeys, .regtest, ⟨(40 : Nat), 0⟩, 1000⟩
  funding := none
  currentCapability := none
  currentHandoff := none
  withdrawalSecret := some (bytes 5)
  withdrawalRecoveryIndex := some 7
  acceptedRequest := none
  acceptedEnvelopeFingerprint := none
  history := []
  outgoing := none

def danglingExit : MayPanic String (ExitJournal exactPlatform) :=
  Library.ExitJournal.prepare (Library.oneLeaf exactPlatform) danglingCoin .regtest
    (exactPlatform.addressToString ⟨.regtest, 0x51 :: 1 :: (bytes 30).toList⟩) 100 1 500

theorem core_never_panics_dangling :
    ExceptT.run danglingExit = some (.error "owned recovery index is invalid") := by
  have hexit : ExceptT.run danglingExit = some _ :=
    (core_never_panics exactSizeLaws Library.oneLeaf_lawful).prepareExit danglingCoin .regtest _
      100 1 500 (by decide)
  rw [hexit]
  decide +kernel

end Demo

end Tinylayer.Machine
