import Tinylayer.Native.Proofs.ContractProofs

/-!
# Registering and transferring keep to the contract
-/

namespace Tinylayer

open Durable

variable {P : Platform} {E : Type} {services : Services P E} {config : Config} {c : Command P}
  {w : CliWorld P E}

/-- Without a coin and a pending operation there is nothing that waits for the enclave. -/
theorem settled_of_empty {s : WalletState P} (hcoin : s.coin = none) (hpending : s.pending = none) :
    ¬(s.pending.isSome = true ∨ s.fundingStage = some .prepared) := by
  rw [hpending, WalletState.fundingStage_eq, WalletState.funding_of_none hcoin]
  simp

/-! ## Registering -/

theorem reportRegistration_keeps {wallet : WalletState P} {coin : WalletCoin P} :
    Keeps services config c (fun _ _ => True) (reportRegistration config wallet coin) w := by
  refine Safe.of_bind fun _ _ => Safe.bind connectVerified_keeps fun _ v _ => ?_
  refine call_bind trivial fun status e => Safe.of_bind fun _ _ => ?_
  exact Safe.pure trivial

theorem prepareRegistrationRequest_keeps (hw : NativeInv config w.saved)
    (hcoin : w.saved.wallet.coin = none) {draws : WalletState.RegistrationDraws P} :
    Keeps services config c (fun result v => v.saved.wallet = result.1 ∧ v.saved.exit = none)
      (prepareRegistrationRequest config draws w.saved.wallet) w := by
  have hexit : w.saved.exit = none := hw.exit_none_of_unfunded (by simp [hcoin])
  unfold prepareRegistrationRequest
  split
  · rename_i hpending
    refine Safe.of_bind ?_
    rintro ⟨request, wallet⟩ hbegin
    rw [Update.attempt_eq_ok] at hbegin
    have hadvance : WalletAdvance config _ _ _ := .beginRegistration hw.wallet hbegin
    refine Safe.bind (save_wallet hw rfl hexit hadvance
      (settled_of_empty hcoin hpending).elim (unprepared_of_pending hpending (by simp)).elim) ?_
    rintro _ u ⟨hu, _⟩
    refine Safe.pure ?_
    rw [hu]
    exact ⟨rfl, hexit⟩
  · exact Safe.pure ⟨rfl, hexit⟩
  · exact Safe.of fun _ h => by cases h

theorem registerCoin_keeps (hw : NativeInv config w.saved)
    {draws : WalletState.RegistrationDraws P} :
    Keeps services config c (fun _ _ => True) (registerCoin config draws) w := by
  refine Safe.of_bind fun _ _ => loadNative_bind ?_
  split
  · exact reportRegistration_keeps
  · rename_i hcoin
    refine bind_keeps hw connectVerified_keeps ?_
    rintro _ v hv ⟨hlater, _⟩
    rw [← hlater.saved] at hcoin ⊢
    refine bind_keeps hv (prepareRegistrationRequest_keeps hv hcoin) ?_
    rintro ⟨wallet, request⟩ u hu ⟨hwallet, hexit⟩
    dsimp only at hwallet ⊢
    subst hwallet
    refine call_bind trivial fun status e => Safe.of_bind ?_
    rintro ⟨_, wallet⟩ hcomplete
    rw [Update.attempt_eq_ok] at hcomplete
    have hadvance : WalletAdvance config _ _ _ := .completeRegistration hu.wallet hcomplete
    have hcoin : u.saved.wallet.coin = none := (WalletState.completeRegistration_ok hcomplete).1
    refine Safe.bind (save_wallet hu rfl hexit hadvance (fun _ => enclaveAnswered_asked trivial)
      (hu.wallet.unprepared_of_empty hcoin).elim) fun _ _ _ => Safe.of_bind fun coin _ => ?_
    exact Safe.pure trivial

/-! ## Receiving -/

theorem createTransferRequest_keeps (hw : NativeInv config w.saved)
    {draws : WalletState.RequestDraws P} {coinId : CoinId} {outpoint : OutPoint P.Txid}
    {amountSat : Nat} {minimumReactionBlocks : Option Nat} :
    Keeps services config c (fun _ _ => True)
      (createTransferRequest config draws coinId outpoint amountSat minimumReactionBlocks) w := by
  refine Safe.of_bind fun _ _ => loadNative_bind ?_
  dsimp only
  split
  · refine Safe.of_bind ?_
    rintro ⟨request, wallet⟩ _
    exact call_bind trivial fun _ _ => Safe.pure trivial
  · refine call_bind trivial fun _ e => Safe.of_bind ?_
    rintro ⟨request, wallet⟩ hbegin
    rw [Update.attempt_eq_ok] at hbegin
    obtain ⟨hcoin, hpending, _⟩ := WalletState.beginTransferRequest_ok hbegin
    have hadvance : WalletAdvance config _ _ _ := .beginTransferRequest hw.wallet hbegin
    have hexit : w.saved.exit = none := hw.exit_none_of_unfunded (by simp [hcoin])
    refine Safe.bind (save_wallet hw rfl hexit hadvance
      (settled_of_empty hcoin hpending).elim (unprepared_of_pending hpending (by simp)).elim)
      fun _ _ _ => ?_
    exact call_bind trivial fun _ _ => Safe.pure trivial

theorem acceptTransfer_keeps (hw : NativeInv config w.saved) {reader : PayloadReader P}
    {request : TransferRequest} {envelope : TransferEnvelope} :
    Keeps services config c (fun _ _ => True) (acceptTransfer reader config request envelope)
      w := by
  refine Safe.of_bind fun _ _ => Safe.of_bind fun _ _ => loadNative_bind ?_
  dsimp only
  split
  · exact Safe.of_bind fun _ _ => Safe.pure trivial
  · rename_i hcoin
    have hexit : w.saved.exit = none := hw.exit_none_of_unfunded (by simp [hcoin])
    refine Safe.of_bind fun payload _ => ?_
    refine bind_keeps hw connectVerified_keeps ?_
    rintro _ v hv ⟨hlater, hanswered⟩
    refine call_bind trivial fun status e => ?_
    refine bind_keeps hv connectChain_keeps ?_
    rintro _ u hu ⟨hlater', hsupported⟩
    refine call_bind trivial fun observation e' => ?_
    refine Safe.of_bind ?_
    rintro ⟨accepted, wallet⟩ haccept
    refine Safe.of_bind fun _ htrue => ?_
    rw [Update.attempt_eq_ok] at haccept
    obtain rfl := Except.ensure_eq_ok.1 htrue
    have hadvance := WalletAdvance.acceptTransfer hw.wallet hsupported haccept
    have hsaved : u.saved = w.saved := ((hlater.trans .asked).trans hlater').saved
    refine Safe.bind (save_wallet hu hsaved hexit hadvance
      (fun _ => (hanswered.asked.of_prefix hlater'.log).asked)
      (hw.wallet.unprepared_of_empty hcoin).elim) fun _ _ _ => ?_
    exact Safe.of_bind fun _ _ => Safe.of_bind fun _ _ => Safe.pure trivial

/-! ## Sending -/

section Sending

variable {request : TransferRequest}

theorem prepareTransfer_keeps (hw : NativeInv config w.saved) (hexit : w.saved.exit = none) :
    Keeps services config c (fun result v => v.saved.wallet = result.1 ∧ v.saved.exit = none)
      (prepareTransfer config w.saved.wallet request) w := by
  unfold prepareTransfer
  split
  · exact Safe.of_bind fun _ _ => Safe.pure ⟨rfl, hexit⟩
  · rename_i hpending
    refine call_bind trivial fun _ e => Safe.of_bind fun metadata _ => ?_
    refine bind_keeps hw connectVerified_keeps ?_
    rintro _ v hv ⟨hlater, hanswered⟩
    refine call_bind trivial fun status e' => ?_
    refine bind_keeps hv connectChain_keeps ?_
    rintro _ u hu ⟨hlater', _⟩
    refine call_bind trivial fun observation e'' => Safe.of_bind ?_
    rintro ⟨_, wallet⟩ hbegin
    rw [Update.attempt_eq_ok] at hbegin
    have hadvance := WalletAdvance.beginTransfer hw.wallet hw.checked hbegin
    have hsaved : u.saved = w.saved :=
      (((Later.asked.trans hlater).trans .asked).trans hlater').saved
    refine Safe.bind (save_wallet hu hsaved hexit hadvance
      (fun _ => (hanswered.asked.of_prefix hlater'.log).asked)
      (unprepared_of_pending hpending (by simp)).elim) ?_
    rintro _ t ⟨ht, _⟩
    refine Safe.pure ?_
    rw [ht]
    exact ⟨rfl, hexit⟩

/-- A transfer that is signed has passed its check. -/
theorem transferChecked_asked {u v : CliWorld P E} {e e' e'' : E} {metadata : CoinMetadata P}
    {status : CoinStatus P} {observation : DetailedFundingObservation P}
    {signRequest : SignRequest P} {response : SignResponse P} (hsaved : u.saved = w.saved)
    (hlater : (v.asked c (.status metadata.keys.coinId) (.ok status) e).log <+: u.log)
    (hmetadata : (w.saved.wallet.coin.bind WalletCoin.metadata).context
      "pending transfer metadata is missing" = .ok metadata)
    (hcheck : (do
      w.saved.wallet.validatePendingTransfer status observation.funding config.minConfirmations
        config.minReactionBlocks
      w.saved.wallet.pendingSignRequest) = .ok signRequest) :
    TransferChecked config ((u.asked c (.observeFunding metadata) (.ok observation) e').asked c
      (.sign signRequest) (.ok response) e'') := by
  rw [Except.context_eq_ok] at hmetadata
  simp only [Except.bind_eq_ok, exists_unit] at hcheck
  refine ⟨metadata, status, observation, ?_, ?_, ?_, ?_⟩
  · rw [World.asked_saved, World.asked_saved, hsaved, hmetadata]
  · refine ⟨⟨c, v.saved, .asked (.status metadata.keys.coinId) (.ok status)⟩, ?_, rfl⟩
    exact List.mem_append_left _ (List.mem_append_left _ (hlater.subset (by simp)))
  · refine ⟨⟨c, u.saved, .asked (.observeFunding metadata) (.ok observation)⟩, ?_, rfl⟩
    exact List.mem_append_left _ (List.mem_append_right _ (by simp))
  · rw [World.asked_saved, World.asked_saved, hsaved]
    exact hcheck.1

theorem signPendingTransfer_keeps (hw : NativeInv config w.saved) (hexit : w.saved.exit = none)
    {connected : Bool} :
    Keeps services config c (fun result v => v.saved.wallet = result.1 ∧ v.saved.exit = none)
      (signPendingTransfer config w.saved.wallet connected) w := by
  unfold signPendingTransfer
  split
  · refine bind_keeps hw connectIf_keeps ?_
    rintro _ v hv ⟨hlater, _⟩
    refine Safe.of_bind fun metadata hmetadata => call_bind trivial fun status e => ?_
    refine bind_keeps hv connectChain_keeps ?_
    rintro _ u hu ⟨hlater', _⟩
    refine call_bind trivial fun observation e' => Safe.of_bind fun signRequest hcheck => ?_
    refine call_bind trivial fun response e'' => Safe.of_bind ?_
    rintro ⟨_, wallet⟩ hrecord
    rw [Update.attempt_eq_ok] at hrecord
    have hadvance := WalletAdvance.recordSignResponse hw.wallet hw.checked hrecord
    have hsaved : u.saved = w.saved := ((hlater.trans .asked).trans hlater').saved
    refine Safe.bind (save_wallet hu hsaved hexit hadvance (fun _ => enclaveAnswered_asked trivial)
      fun _ => transferChecked_asked hsaved hlater'.log hmetadata hcheck) ?_
    rintro _ t ⟨ht, _⟩
    refine Safe.pure ?_
    rw [ht]
    exact ⟨rfl, hexit⟩
  · exact Safe.pure ⟨rfl, hexit⟩

theorem completePendingTransfer_keeps (hw : NativeInv config w.saved) (hexit : w.saved.exit = none)
    {draws : EnvelopeDraws P} {connected : Bool} :
    Keeps services config c (fun _ _ => True)
      (completePendingTransfer config draws w.saved.wallet connected request) w := by
  refine bind_keeps hw connectIf_keeps ?_
  rintro _ v hv ⟨hlater, _⟩
  refine Safe.of_bind fun coin _ => call_bind trivial fun status e => ?_
  refine Safe.of_bind ?_
  rintro ⟨envelope, wallet⟩ hcomplete
  rw [Update.attempt_eq_ok] at hcomplete
  have hadvance := WalletAdvance.completeTransfer hw.wallet hw.checked hcomplete
  obtain ⟨_, _, _, _, _, _, _, _, _, hresponded, _⟩ := WalletState.completeTransfer_ok.1 hcomplete
  refine Safe.bind (save_wallet hv hlater.saved hexit hadvance
    (fun _ => enclaveAnswered_asked trivial)
    (unprepared_of_pending hresponded (by simp)).elim) fun _ _ _ => ?_
  exact call_bind trivial fun _ _ => Safe.pure trivial

theorem signTransfer_keeps (hw : NativeInv config w.saved) {draws : EnvelopeDraws P} :
    Keeps services config c (fun _ _ => True) (signTransfer config draws request) w := by
  refine Safe.of_bind fun _ _ => Safe.of_bind fun _ _ => loadNative_bind ?_
  split
  · exact Safe.of_bind fun _ _ => call_bind trivial fun _ _ => Safe.pure trivial
  · refine Safe.of_bind fun _ hexit => ?_
    rw [Except.ensure_eq_ok, Option.isNone_iff_eq_none] at hexit
    refine bind_keeps hw (prepareTransfer_keeps hw hexit) ?_
    rintro ⟨wallet, connected⟩ v hv ⟨hwallet, hexit⟩
    dsimp only at hwallet ⊢
    subst hwallet
    refine bind_keeps hv (signPendingTransfer_keeps hv hexit) ?_
    rintro ⟨wallet, connected⟩ u hu ⟨hwallet, hexit⟩
    dsimp only at hwallet ⊢
    subst hwallet
    exact completePendingTransfer_keeps hu hexit

end Sending

end Tinylayer
