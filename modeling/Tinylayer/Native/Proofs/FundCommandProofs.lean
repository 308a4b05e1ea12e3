import Tinylayer.Native.Proofs.ContractProofs

/-!
# Funding keeps to the contract

Both ways of funding a coin, part by part.
-/

namespace Tinylayer

open Durable

variable {P : Platform} {E : Type} {services : Services P E} {config : Config} {c : Command P}
  {w : CliWorld P E}

theorem permitted_broadcastExact (hc : c.IsFund) {s : NativeWalletState P} {transaction : P.Tx}
    (h : FundingSecured s transaction) : Permitted c s (.broadcastExact transaction) := by
  cases c with
  | fund => exact h
  | _ => cases hc

theorem permitted_broadcastFunding (hc : c.IsFund) {s : NativeWalletState P}
    {metadata : CoinMetadata P} {transaction : P.Tx} (h : FundingSecured s transaction) :
    Permitted c s (.broadcastFunding metadata transaction) := by
  cases c with
  | fund => exact h
  | _ => cases hc

theorem largestSource_mem {sources : List (SourceUtxo P)} {source : SourceUtxo P}
    (h : largestSource sources = some source) : source ∈ sources := by
  cases sources with
  | nil => cases h
  | cons first sources =>
    obtain rfl := Option.some.inj h
    clear h
    induction sources generalizing first with
    | nil => exact List.mem_cons_self
    | cons next sources ih =>
      rw [List.foldl_cons]
      split
      · exact List.mem_cons_of_mem _ (ih next)
      · refine List.mem_cons.2 ((List.mem_cons.1 (ih first)).imp_right fun hmem => ?_)
        exact List.mem_cons_of_mem _ hmem

/-! ## Through an explorer -/

section Explorer

variable {draws : WalletState.FundingDraws P}
  {amountSat delayBlocks feeRateSatVb maxFeeSat : Nat}

theorem prepareExplorerFunding_keeps (hsecret : P.SecretCodec) (hw : NativeInv config w.saved)
    (hsupported : config.Supported) :
    Keeps services config c (fun native v => v.saved = native)
      (prepareExplorerFunding config draws w.saved amountSat delayBlocks feeRateSatVb maxFeeSat)
      w := by
  refine Safe.of_bind fun coin hcoin => ?_
  rw [Except.context_eq_ok] at hcoin
  split
  · exact Safe.pure rfl
  refine Safe.of_bind fun _ hpending => ?_
  refine bind_keeps hw connectVerified_keeps ?_
  rintro _ v hvinv ⟨hv, hanswered⟩
  refine call_bind trivial fun status e => ?_
  refine bind_keeps hvinv confirmedSourceUtxos_keeps ?_
  rintro sources u hu ⟨hu', _, hlisted⟩
  have hlater := (hv.trans .asked).trans hu'
  refine Safe.of_bind ?_
  rintro ⟨request, wallet⟩ hbegin
  rw [Except.bind_eq_ok] at hbegin
  obtain ⟨source, hsource, hbegin⟩ := hbegin
  rw [Except.context_eq_ok] at hsource
  rw [Update.attempt_eq_ok] at hbegin
  obtain ⟨hmem, hfree⟩ := List.mem_filter.1 (largestSource_mem hsource)
  have hadvance := WalletAdvance.beginFunding hw.wallet hsecret hsupported hbegin
  have hexit : w.saved.exit = none := by
    obtain ⟨_, coin, _, _, _, hcoin, ⟨hmetadata, _⟩, _⟩ := WalletState.beginFunding_ok hbegin
    refine hw.exit_none_of_unfunded fun coin' hcoin' => ?_
    rw [← Option.some.inj (hcoin.symm.trans hcoin'), hmetadata]
  refine Safe.bind (saveNative_keeps fun _ => hadvance.write hu hlater.saved hexit
    (fun funding hspent input hinput => ?_)
    (fun _ => hanswered.of_prefix (Later.asked.trans hu').log)
    (unprepared_of_pending (WalletState.beginFunding_ok hbegin).1 (by simp)).elim)
    fun _ _ hsaved => Safe.pure hsaved.1
  rw [hspent, List.mem_singleton] at hinput
  obtain rfl := hinput
  refine ⟨fun _ => hlisted source hmem, fun sweep hsweep => ?_⟩
  rw [hw.spent_of_sweep hsweep]
  exact (of_decide_eq_true hfree).2

theorem validateExplorerPreparedFunding_keeps {native : NativeWalletState P} :
    Keeps services config c (fun _ v => Later w v) (validateExplorerPreparedFunding config native)
      w := by
  refine Safe.of_bind fun _ _ => ?_
  refine Safe.bind confirmedSourceUtxos_keeps ?_
  rintro sources v ⟨hv, _⟩
  exact Safe.of fun _ _ => hv

theorem checkExplorerAttempt_keeps {native : NativeWalletState P}
    {status : CoinStatus P} {attempt : RecoveryAttempt P} :
    Keeps services config c (fun _ v => Later w v)
      (checkExplorerAttempt config native status attempt) w := by
  refine Safe.of_bind fun committed _ => ?_
  split
  · exact Safe.pure (.refl w)
  · refine Safe.of_bind fun _ _ => ?_
    exact validateExplorerPreparedFunding_keeps

theorem signExplorerFunding_keeps (hw : NativeInv config w.saved) :
    Keeps services config c (fun result v => v.saved = result.1)
      (signExplorerFunding config w.saved) w := by
  unfold signExplorerFunding
  split
  · rename_i attempt hpending
    have hexit := hw.exit_none_of_pending (by simp [hpending])
    refine bind_keeps hw connectVerified_keeps ?_
    rintro _ v hvinv ⟨hv, _⟩
    refine Safe.of_bind fun coin hcoin => call_bind trivial fun status e => ?_
    refine Safe.of_bind fun _ _ => ?_
    refine bind_keeps hvinv checkExplorerAttempt_keeps fun _ u huinv hu => ?_
    refine Safe.of_bind fun request _ => call_bind trivial fun response e' => ?_
    refine Safe.of_bind ?_
    rintro ⟨_, wallet⟩ hrecord
    rw [Update.attempt_eq_ok] at hrecord
    have hadvance := WalletAdvance.recordSignResponse hw.wallet hw.checked hrecord
    have hlater := (hv.trans .asked).trans hu
    refine Safe.bind (saveNative_wallet huinv hlater.saved hexit hadvance
      (fun _ => enclaveAnswered_asked trivial) (unprepared_of_pending hpending (by simp)).elim) ?_
    rintro _ last ⟨hlast, _⟩
    exact Safe.pure hlast
  · exact Safe.pure rfl

theorem secureExplorerFunding_keeps (hw : NativeInv config w.saved) {connected : Bool} :
    Keeps services config c (fun native v => v.saved = native)
      (secureExplorerFunding config w.saved connected) w := by
  unfold secureExplorerFunding
  split
  · rename_i hpending
    have hexit := hw.exit_none_of_pending (by simp [hpending])
    refine bind_keeps hw connectIf_keeps ?_
    rintro _ v hvinv ⟨hv, _⟩
    refine Safe.of_bind fun coin hcoin => call_bind trivial fun status e => ?_
    refine Safe.of_bind ?_
    rintro ⟨_, wallet⟩ hcomplete
    rw [Update.attempt_eq_ok] at hcomplete
    have hadvance := WalletAdvance.completeFundingRecovery hw.wallet hw.checked hcomplete
    refine bind_keeps hvinv (saveNative_wallet hvinv hv.saved hexit hadvance
      (fun _ => enclaveAnswered_asked trivial) (unprepared_of_pending hpending (by simp)).elim) ?_
    rintro _ last _ ⟨hlast, _⟩
    exact Safe.pure hlast
  · exact Safe.pure rfl

end Explorer

/-- Nothing is pending once the first recovery is secured and the funding is not broadcast. -/
theorem WalletInv.idle_of_secured {s : WalletState P} (h : WalletInv s)
    {funding : FundingJournal P} (hfunding : s.funding = some funding)
    (hstage : funding.stage = .recoverySecured) : s.pending = none := by
  obtain ⟨coin, hcoin, hfunding⟩ := Option.bind_eq_some_iff.1 hfunding
  cases hpending : s.pending with
  | none => rfl
  | some pending =>
    cases pending with
    | registration secret capability registration =>
      rw [(h.registration secret capability registration hpending).1] at hcoin
      cases hcoin
    | recovery pending =>
      obtain ⟨coin', hcoin', metadata, _, hpurpose⟩ := h.recovery pending hpending
      obtain rfl := Option.some.inj (hcoin.symm.trans hcoin')
      obtain ⟨purpose, stage⟩ := pending
      cases purpose with
      | fund nextCapability withdrawalSecret =>
        obtain ⟨⟨saved, hsaved, hprepared, _⟩, _⟩ := hpurpose
        obtain rfl := Option.some.inj (hfunding.symm.trans hsaved)
        rw [hstage] at hprepared
        cases hprepared
      | transfer request =>
        have hbroadcast := hpurpose.1.broadcast funding hfunding
        rw [hstage] at hbroadcast
        cases hbroadcast

/-- The change that marks a funding as broadcast needs no answer of the enclave. -/
theorem NativeInv.secured_settled {s : NativeWalletState P} (h : NativeInv config s)
    {funding : FundingJournal P} (hfunding : s.wallet.funding = some funding)
    (hstage : funding.stage = .recoverySecured) :
    ¬(s.wallet.pending.isSome = true ∨ s.wallet.fundingStage = some .prepared) := by
  rintro (hpending | hprepared)
  · rw [h.wallet.idle_of_secured hfunding hstage] at hpending
    cases hpending
  · rw [WalletState.fundingStage_eq, hfunding, Option.map_some, hstage] at hprepared
    cases hprepared

theorem broadcastExplorerFunding_keeps (hc : c.IsFund) (hw : NativeInv config w.saved) :
    Keeps services config c (fun _ _ => True) (broadcastExplorerFunding config w.saved) w := by
  refine Safe.of_bind fun transaction htransaction => ?_
  obtain ⟨coin, metadata, funding, _, hcoin, _, hfunding, hstage, _, _, _, _, htx⟩ :=
    WalletState.fundingTransaction_eq_ok.1 htransaction
  have hfunding' : w.saved.wallet.funding = some funding := by
    rw [WalletState.funding_of_coin hcoin, hfunding]
  have hne : funding.stage ≠ .prepared := by rcases hstage with hs | hs <;> simp [hs]
  refine call_bind (permitted_broadcastExact hc ⟨funding, hfunding', hne, htx⟩) fun txid e => ?_
  split
  · exact Safe.of fun _ _ => trivial
  · rename_i hbroadcast
    have hsecured : funding.stage = .recoverySecured := by
      refine hstage.resolve_right fun hb => hbroadcast ?_
      rw [WalletState.fundingStage_eq, hfunding', Option.map_some, hb]
    refine Safe.of_bind ?_
    rintro ⟨_, wallet⟩ hmark
    rw [Update.attempt_eq_ok] at hmark
    have hadvance := WalletAdvance.markFundingBroadcast hw.wallet hw.checked hmark
    have hexit := hw.exit_none_of_stage hfunding' (by simp [hsecured])
    have hidle := hw.wallet.idle_of_secured hfunding' hsecured
    refine Safe.bind (saveNative_wallet hw rfl hexit hadvance
      (hw.secured_settled hfunding' hsecured).elim (unprepared_of_pending hidle (by simp)).elim)
      fun _ _ _ => ?_
    exact Safe.of fun _ _ => trivial

theorem fundCoinExplorer_keeps (hsecret : P.SecretCodec) (hc : c.IsFund)
    (hw : NativeInv config w.saved) {draws : WalletState.FundingDraws P}
    {amountSat delayBlocks feeRateSatVb maxFeeSat : Nat} :
    Keeps services config c (fun _ _ => True)
      (fundCoinExplorer config draws amountSat delayBlocks feeRateSatVb maxFeeSat) w := by
  refine bind_keeps hw connectChain_keeps ?_
  rintro _ v hv ⟨_, hsupported⟩
  refine loadNative_bind ?_
  refine bind_keeps hv (prepareExplorerFunding_keeps hsecret hv hsupported)
    fun native u hu hnative => ?_
  subst hnative
  refine Safe.of_bind fun _ _ => ?_
  refine bind_keeps hu (signExplorerFunding_keeps hu) ?_
  rintro ⟨native, connected⟩ t ht hnative
  dsimp only at hnative ⊢
  subst hnative
  refine bind_keeps ht (secureExplorerFunding_keeps ht) fun native r hr hnative => ?_
  subst hnative
  exact broadcastExplorerFunding_keeps hc hr

/-! ## Through Bitcoin Core -/

section Core

variable {enclave : Bool} {amountSat delayBlocks feeRateSatVb maxFeeSat : Nat}

theorem checkFundedTransaction_ok {keys : CoinKeys P} {funded : FundedTransaction P}
    {prepared : PreparedSourceFunding P}
    (h : checkFundedTransaction keys funded amountSat maxFeeSat = .ok prepared) :
    prepared.outpoint.txid = P.computeTxid prepared.transaction := by
  simp only [checkFundedTransaction, Except.bind_eq_ok, exists_unit] at h
  obtain ⟨_, _, h⟩ := h
  split at h
  · simp only [Except.bind_eq_ok, exists_unit, Except.pure_eq_ok] at h
    obtain ⟨_, rfl⟩ := h
    rfl
  · rw [Except.throw_ne_ok] at h
    exact h.elim

theorem prepareFunding_keeps {keys : CoinKeys P} :
    Keeps services config c (fun prepared v => Later w v ∧ config.chain.isExplorer = false ∧
      prepared.outpoint.txid = P.computeTxid prepared.transaction)
      (prepareFunding config keys amountSat feeRateSatVb maxFeeSat) w := by
  refine Safe.of_bind fun _ hcheck => call_bind trivial fun funded e => ?_
  simp only [Except.bind_eq_ok, Except.ensure_eq_ok, exists_unit] at hcheck
  refine Safe.of_bind fun prepared hprepared => call_bind trivial fun _ e' => ?_
  exact Safe.pure ⟨Later.asked.trans .asked, hcheck.1, checkFundedTransaction_ok hprepared⟩

theorem prepareCoreFunding_keeps (hw : NativeInv config w.saved) (hsupported : config.Supported) :
    Keeps services config c (fun wallet v => v.saved.wallet = wallet)
      (prepareCoreFunding config enclave w.saved.wallet amountSat delayBlocks feeRateSatVb
        maxFeeSat) w := by
  refine Safe.of_bind fun coin hcoin => ?_
  rw [Except.context_eq_ok] at hcoin
  split
  · exact Safe.pure rfl
  rename_i hfunding
  refine Safe.of_bind fun _ hcheck => call_bind trivial fun status e => ?_
  simp only [Except.bind_eq_ok, Except.ensure_eq_ok, exists_unit,
    Option.isNone_iff_eq_none] at hcheck
  obtain ⟨hpending, ⟨_, _, hmetadata, hhistory⟩, _⟩ := hcheck
  refine Safe.of_bind fun _ _ => ?_
  refine bind_keeps hw prepareFunding_keeps ?_
  rintro prepared v hv ⟨hlater, hchain, hprepared⟩
  have hadvance := WalletAdvance.coreFunding hw.wallet hsupported hcoin hpending hmetadata hfunding
    hhistory hchain hprepared amountSat delayBlocks feeRateSatVb maxFeeSat
  have hexit : w.saved.exit = none := by
    refine hw.exit_none_of_unfunded fun coin' hcoin' => ?_
    rw [← Option.some.inj (hcoin.symm.trans hcoin'), hmetadata]
  have hsaved : v.saved = w.saved := (Later.asked.trans hlater).saved
  have hanswered : EnclaveAnswered (w.asked c (.status coin.keys.coinId) (.ok status) e) :=
    enclaveAnswered_asked trivial
  refine Safe.bind (save_keeps hsaved (hadvance.write hv hsaved hexit ?_
    (fun _ => hanswered.of_prefix hlater.log)
    (unprepared_of_pending hpending (by simp)).elim)) ?_
  · intro _ hcore input _
    refine ⟨fun hexplorer => ?_, fun sweep hsweep => ?_⟩
    · rw [hcore] at hexplorer
      cases hexplorer
    · have hexplorer := hw.explorer (Option.isSome_iff_exists.2 ⟨sweep, hsweep⟩)
      rw [hcore] at hexplorer
      cases hexplorer
  · rintro _ u ⟨hu, _⟩
    refine Safe.pure ?_
    rw [hu]
    rfl

theorem prepareCoreRecovery_keeps (hsecret : P.SecretCodec) (hw : NativeInv config w.saved)
    {draws : WalletState.FundingDraws P}
    (hpolicy : validateFundingPolicy w.saved.wallet amountSat delayBlocks feeRateSatVb maxFeeSat =
      .ok ()) :
    Keeps services config c (fun wallet v => v.saved.wallet = wallet)
      (prepareCoreRecovery config enclave draws w.saved.wallet delayBlocks) w := by
  simp only [validateFundingPolicy, Except.bind_eq_ok, Except.context_eq_ok, Except.ensure_eq_ok,
    exists_unit] at hpolicy
  obtain ⟨coin', hcoin', metadata', _, funding', hfunding', ⟨_, hdelay, _⟩, _⟩ := hpolicy
  refine Safe.of_bind fun coin hcoin => Safe.of_bind fun metadata hmetadata =>
    Safe.of_bind fun funding hfunding => ?_
  rw [Except.context_eq_ok] at hcoin hmetadata hfunding
  obtain rfl := Option.some.inj (hcoin.symm.trans hcoin')
  obtain rfl := Option.some.inj (hfunding.symm.trans hfunding')
  split
  · rename_i hprepared
    refine call_bind trivial fun _ e => Safe.of_bind fun _ _ => call_bind trivial fun status e' => ?_
    refine Safe.of_bind fun pending hattempt => ?_
    have hadvance := WalletAdvance.coreAttempt hw.wallet hsecret hw.checked hcoin hmetadata
      hfunding hprepared.1 hdelay hattempt
    have hexit := hw.exit_none_of_stage
      ((WalletState.funding_of_coin hcoin).trans hfunding) (by simp [hprepared.1])
    refine Safe.bind (save_wallet hw rfl hexit hadvance (fun _ => enclaveAnswered_asked trivial)
      (unprepared_of_pending hprepared.2 (by simp)).elim) ?_
    rintro _ u ⟨hu, _⟩
    refine Safe.pure ?_
    rw [hu]
    rfl
  · exact Safe.pure rfl

theorem checkCoreAttempt_keeps {coin : WalletCoin P} {metadata : CoinMetadata P}
    {status : CoinStatus P} {attempt : RecoveryAttempt P} :
    Keeps services config c (fun _ v => Later w v)
      (checkCoreAttempt config coin metadata status attempt) w := by
  refine Safe.of_bind fun committed _ => ?_
  split
  · exact Safe.pure (.refl w)
  · refine Safe.of_bind fun funding _ => ?_
    refine Safe.bind connectChain_keeps ?_
    rintro _ v ⟨hv, _⟩
    refine call_bind trivial fun _ e => ?_
    exact Safe.of fun _ _ => hv.trans .asked

theorem signCoreFunding_keeps (hw : NativeInv config w.saved) :
    Keeps services config c (fun wallet v => v.saved.wallet = wallet)
      (signCoreFunding config w.saved.wallet) w := by
  unfold signCoreFunding
  split
  · rename_i attempt hpending
    have hexit := hw.exit_none_of_pending (by simp [hpending])
    refine Safe.of_bind fun coin _ => Safe.of_bind fun metadata _ => ?_
    refine call_bind trivial fun status e => Safe.of_bind fun _ _ => ?_
    refine bind_keeps hw checkCoreAttempt_keeps fun _ v hv hlater => ?_
    refine Safe.of_bind fun request _ => call_bind trivial fun response e' => ?_
    refine Safe.of_bind ?_
    rintro ⟨_, wallet⟩ hrecord
    rw [Update.attempt_eq_ok] at hrecord
    have hadvance := WalletAdvance.recordSignResponse hw.wallet hw.checked hrecord
    refine Safe.bind (save_wallet hv (Later.asked.trans hlater).saved hexit hadvance
      (fun _ => enclaveAnswered_asked trivial) (unprepared_of_pending hpending (by simp)).elim) ?_
    rintro _ u ⟨hu, _⟩
    refine Safe.pure ?_
    rw [hu]
    rfl
  · exact Safe.pure rfl

theorem finishPendingFundingRecovery_keeps (hw : NativeInv config w.saved) :
    Keeps services config c (fun wallet v => v.saved.wallet = wallet)
      (finishPendingFundingRecovery config w.saved.wallet) w := by
  refine bind_keeps hw (signCoreFunding_keeps hw) fun wallet v hv hwallet => ?_
  subst hwallet
  refine Safe.of_bind fun coin _ => call_bind trivial fun status e => ?_
  refine Safe.of_bind ?_
  rintro ⟨_, wallet⟩ hcomplete
  rw [Update.attempt_eq_ok] at hcomplete
  have hadvance := WalletAdvance.completeFundingRecovery hv.wallet hv.checked hcomplete
  obtain ⟨_, _, _, _, _, _, _, hpending, _⟩ := WalletState.completeFundingRecovery_ok.1 hcomplete
  have hexit : v.saved.exit = none := hv.exit_none_of_pending (by simp [hpending])
  refine Safe.bind (save_wallet hv rfl hexit hadvance (fun _ => enclaveAnswered_asked trivial)
    (unprepared_of_pending hpending (by simp)).elim) ?_
  rintro _ u ⟨hu, _⟩
  refine Safe.pure ?_
  rw [hu]
  rfl

theorem resumeCoreFunding_keeps (hw : NativeInv config w.saved) :
    Keeps services config c (fun wallet v => v.saved.wallet = wallet)
      (resumeCoreFunding config enclave w.saved.wallet) w := by
  unfold resumeCoreFunding
  split
  · exact Safe.of_bind fun _ _ => finishPendingFundingRecovery_keeps hw
  · exact Safe.pure rfl

theorem checkSecuredFunding_ok {wallet : WalletState P} {metadata : CoinMetadata P}
    {funding : FundingJournal P} (h : checkSecuredFunding wallet = .ok (metadata, funding)) :
    ∃ coin, wallet.coin = some coin ∧ coin.funding = some funding ∧
      (funding.stage = .recoverySecured ∨ funding.stage = .broadcast) := by
  simp only [checkSecuredFunding, Except.bind_eq_ok, Except.context_eq_ok, Except.ensure_eq_ok,
    exists_unit, Except.pure_eq_ok, Prod.mk.injEq] at h
  obtain ⟨coin, hcoin, _, _, _, hfunding, hstage, _, _, _, _, _, rfl⟩ := h
  exact ⟨coin, hcoin, hfunding, hstage⟩

theorem broadcastCoreFunding_keeps (hc : c.IsFund) (hw : NativeInv config w.saved) :
    Keeps services config c (fun _ _ => True) (broadcastCoreFunding config w.saved.wallet) w := by
  refine Safe.of_bind ?_
  rintro ⟨metadata, funding⟩ hcheck
  obtain ⟨coin, hcoin, hfunding, hstage⟩ := checkSecuredFunding_ok hcheck
  have hfunding' : w.saved.wallet.funding = some funding := by
    rw [WalletState.funding_of_coin hcoin, hfunding]
  have hne : funding.stage ≠ .prepared := by rcases hstage with hs | hs <;> simp [hs]
  refine call_bind (permitted_broadcastFunding hc ⟨funding, hfunding', hne, rfl⟩) fun txid e => ?_
  refine Safe.of_bind fun _ _ => ?_
  split
  · exact Safe.of fun _ _ => trivial
  · rename_i hbroadcast
    have hsecured := hstage.resolve_right hbroadcast
    have hadvance := WalletAdvance.broadcastCoin hw.wallet hw.checked hcoin hfunding hne
    have hexit := hw.exit_none_of_stage hfunding' hbroadcast
    have hidle := hw.wallet.idle_of_secured hfunding' hsecured
    refine Safe.bind (save_wallet hw rfl hexit hadvance
      (hw.secured_settled hfunding' hsecured).elim (unprepared_of_pending hidle (by simp)).elim)
      fun _ _ _ => ?_
    exact Safe.of fun _ _ => trivial

theorem fundCoinCore_keeps (hsecret : P.SecretCodec) (hc : c.IsFund)
    (hw : NativeInv config w.saved) {draws : WalletState.FundingDraws P} :
    Keeps services config c (fun _ _ => True)
      (fundCoinCore config draws amountSat delayBlocks feeRateSatVb maxFeeSat) w := by
  refine loadNative_bind ?_
  refine bind_keeps hw connectIf_keeps ?_
  rintro _ v hv ⟨hsaved, _⟩
  refine bind_keeps hv connectChain_keeps ?_
  rintro _ u hu ⟨hlater, hsupported⟩
  rw [← (hsaved.trans hlater).saved]
  refine bind_keeps hu (prepareCoreFunding_keeps hu hsupported) fun wallet t ht hwallet => ?_
  subst hwallet
  refine Safe.of_bind fun _ hcheck => ?_
  rw [Except.bind_eq_ok, exists_unit] at hcheck
  refine bind_keeps ht (prepareCoreRecovery_keeps hsecret ht hcheck.1) fun wallet r hr hwallet => ?_
  subst hwallet
  refine bind_keeps hr (resumeCoreFunding_keeps hr) fun wallet q hq hwallet => ?_
  subst hwallet
  exact broadcastCoreFunding_keeps hc hq

end Core

theorem fundCoin_keeps (hsecret : P.SecretCodec) (hc : c.IsFund) (hw : NativeInv config w.saved)
    {draws : WalletState.FundingDraws P} {amountSat delayBlocks feeRateSatVb maxFeeSat : Nat} :
    Keeps services config c (fun _ _ => True)
      (fundCoin config draws amountSat delayBlocks feeRateSatVb maxFeeSat) w := by
  refine Safe.of_bind fun _ _ => Safe.of_bind fun _ _ => ?_
  split
  · exact fundCoinExplorer_keeps hsecret hc hw
  · exact fundCoinCore_keeps hsecret hc hw

end Tinylayer
