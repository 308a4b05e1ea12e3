import Tinylayer.Native.Proofs.ContractProofs

/-!
# Exiting keeps to the contract

A package is replaced only while it is prepared, and is submitted only after it was armed.
-/

namespace Tinylayer

open Durable

variable {P : Platform} {E : Type} {services : Services P E} {config : Config} {c : Command P}
  {w : CliWorld P E}

/-- The command is an exit with the given maximum fee that saves what it does. -/
def Command.Exits (maxFeeSat : Nat) (c : Command P) : Prop :=
  ∃ destination feeRate, c = .exit destination feeRate maxFeeSat false

theorem NativeWalletState.withExit_of_saved {s : NativeWalletState P} {journal : ExitJournal P}
    (h : s.exit = some journal) : s.withExit journal = s := by
  cases s
  simp_all [withExit]

/-! ## What the chain shows -/

section Observation

variable {journal : ExitJournal P} {coin : WalletCoin P}

theorem observeExitTransaction_keeps {transaction : P.Tx} :
    Keeps services config c (fun _ v => Later w v)
      (observeExitTransaction config journal transaction) w := by
  refine call_bind trivial fun observed e => ?_
  split
  · exact call_keeps trivial fun _ _ => Later.asked.trans .asked
  · exact Safe.pure .asked

theorem observeExitPackage_keeps :
    Keeps services config c (fun _ v => Later w v) (observeExitPackage config journal coin) w := by
  refine Safe.bind observeExitTransaction_keeps fun child v hv => ?_
  refine Safe.bind observeExitTransaction_keeps fun parent u hu => ?_
  refine Safe.of_bind fun _ _ => ?_
  have hlater := hv.trans hu
  split
  · exact Safe.of_bind fun _ _ => Safe.pure hlater
  · exact call_bind trivial fun _ _ => Safe.of_bind fun _ _ => Safe.pure (hlater.trans .asked)
  · exact Safe.pure hlater

theorem findSpendingRecovery_keeps {metadata : CoinMetadata P}
    {history : List (SignedRecovery P)} :
    Keeps services config c (fun _ v => Later w v) (findSpendingRecovery metadata history) w := by
  induction history generalizing w with
  | nil => exact Safe.pure (.refl w)
  | cons recovery history ih =>
    refine call_bind trivial fun observed e => ?_
    cases observed with
    | none => exact ih.mono fun _ _ h => Later.asked.trans h
    | some observed => exact Safe.of_bind fun _ _ => Safe.pure .asked

theorem observeAuthorizedPackage_keeps {package : ExitPackage P} :
    Keeps services config c (fun _ v => Later w v) (observeAuthorizedPackage package) w := by
  refine call_bind trivial fun parent e => ?_
  cases parent with
  | some parent => exact Safe.pure .asked
  | none => exact call_keeps trivial fun _ _ => Later.asked.trans .asked

theorem findAuthorizedExit_keeps {exit : Option (ExitJournal P)} :
    Keeps services config c (fun _ v => Later w v) (findAuthorizedExit config exit) w := by
  unfold findAuthorizedExit
  split
  · exact Safe.pure (.refl w)
  · exact Safe.bind observeAuthorizedPackage_keeps fun _ _ h => Safe.pure h

theorem findSpending_keeps {metadata : CoinMetadata P} {exit : Option (ExitJournal P)} :
    Keeps services config c (fun _ v => Later w v) (findSpending config metadata coin exit) w := by
  refine Safe.bind findSpendingRecovery_keeps fun spending v hv => ?_
  cases spending with
  | some spending => exact Safe.pure hv
  | none => exact findAuthorizedExit_keeps.mono fun _ _ h => hv.trans h

theorem observeExitFunding_keeps {metadata : CoinMetadata P} {exit : Option (ExitJournal P)} :
    Keeps services config c (fun _ v => Later w v)
      (observeExitFunding config metadata coin exit) w := by
  refine call_bind trivial fun observation e => ?_
  split
  · refine Safe.bind findSpending_keeps fun spending v hv => ?_
    have hlater := Later.asked.trans hv
    cases spending with
    | some spending => exact Safe.pure hlater
    | none => exact Safe.pure hlater
  · exact Safe.pure .asked

theorem exitFeeRate_keeps {policy : ExitPolicy} :
    Keeps services config c (fun _ v => Later w v) (exitFeeRate policy) w := by
  unfold exitFeeRate
  split
  · exact Safe.pure (.refl w)
  · exact call_keeps trivial fun _ _ => .asked

end Observation

/-! ## Changes of the journal -/

section Journal

variable {native : NativeWalletState P} {journal : ExitJournal P} {coin : WalletCoin P}
  {maxFeeSat : Nat}

theorem exitWrite (hc : c.Exits maxFeeSat) (hw : NativeInv config w.saved)
    (hpending : w.saved.wallet.pending = none) {journal : ExitJournal P}
    (hstep : ExitStep maxFeeSat w.saved.exit journal)
    (hvalid : (w.saved.withExit journal).validate config.network = .ok ()) :
    (cliContract E config).write c w (w.saved.withExit journal) := by
  obtain ⟨destination, feeRate, rfl⟩ := hc
  exact ⟨hw.withExit hvalid hpending, rfl, .exit rfl hpending hstep⟩

/-- A saved journal goes on to another stage. -/
theorem exitStage_keeps (hc : c.Exits maxFeeSat) (hw : NativeInv config w.saved)
    (hsaved : w.saved = native.withExit journal) (hpending : native.wallet.pending = none)
    {stage : ExitStage} (hstep : ExitStep maxFeeSat (some journal) { journal with stage }) :
    Keeps services config c
      (fun _ v => v.saved = native.withExit { journal with stage } ∧ w.log <+: v.log)
      (saveNative config (native.withExit { journal with stage })) w := by
  refine saveNative_keeps fun hvalid => ?_
  rw [← NativeWalletState.withExit_withExit native journal, ← hsaved] at hvalid ⊢
  refine exitWrite hc hw (by rw [hsaved]; exact hpending) ?_ hvalid
  rw [hsaved]
  exact hstep

theorem armExit_keeps (hc : c.Exits maxFeeSat) (hw : NativeInv config w.saved)
    (hsaved : w.saved = native.withExit journal) (hpending : native.wallet.pending = none)
    (hfee : journal.package.maxFeeSat = maxFeeSat) :
    Keeps services config c (fun armed v => v.saved = native.withExit armed ∧
      armed = { journal with stage := .submissionArmed })
      (armExit config native coin journal) w := by
  refine Safe.of_bind fun armed harm => ?_
  obtain ⟨_, rfl⟩ := ExitJournal.armSubmission_eq_ok.1 harm
  refine Safe.bind (exitStage_keeps hc hw hsaved hpending (.arm hfee)) ?_
  rintro _ v ⟨hv, _⟩
  exact Safe.pure ⟨hv, rfl⟩

theorem markExitObserved_keeps (hc : c.Exits maxFeeSat) (hw : NativeInv config w.saved)
    (hsaved : w.saved = native.withExit journal) (hpending : native.wallet.pending = none)
    (hfee : journal.package.maxFeeSat = maxFeeSat) {existing : Bool} :
    Keeps services config c (fun _ _ => True)
      (markExitObserved config native coin journal existing) w := by
  have harmed : Keeps services config c (fun armed v => v.saved = native.withExit armed)
      (armPreparedExit config native coin journal) w := by
    unfold armPreparedExit
    split
    · exact (armExit_keeps hc hw hsaved hpending hfee).mono fun _ _ h => h.1
    · exact Safe.pure hsaved
  refine bind_keeps hw harmed fun armed v hv hv' => ?_
  split
  · exact Safe.pure trivial
  · refine Safe.of_bind fun later hobserve => ?_
    obtain ⟨hstage, rfl⟩ := ExitJournal.markObserved_ok hobserve
    refine Safe.bind (exitStage_keeps hc hv hv' hpending (.observe hstage)) fun _ _ _ => ?_
    exact Safe.pure trivial

theorem sendExit_keeps (hc : c.Exits maxFeeSat)
    (harmed : ExitArmed w.saved maxFeeSat journal.package) {parent : Bool} :
    Keeps services config c (fun _ v => Later w v) (sendExit journal parent) w := by
  obtain ⟨destination, feeRate, rfl⟩ := hc
  unfold sendExit
  split
  · exact call_bind ⟨journal.package, harmed, rfl⟩ fun _ _ => Safe.pure .asked
  · exact call_keeps ⟨journal.package, harmed, rfl, rfl⟩ fun _ _ => .asked

theorem submitExit_keeps (hc : c.Exits maxFeeSat) (hw : NativeInv config w.saved)
    (hsaved : w.saved = native.withExit journal) (hpending : native.wallet.pending = none)
    (hfee : journal.package.maxFeeSat = maxFeeSat) {parent : Bool} :
    Keeps services config c (fun _ _ => True)
      (submitExit config native coin journal parent) w := by
  refine bind_keeps hw (armExit_keeps hc hw hsaved hpending hfee) ?_
  rintro armed v hv ⟨hv', harm⟩
  have hfee' : armed.package.maxFeeSat = maxFeeSat := by rw [harm]; exact hfee
  have harmed : ExitArmed v.saved maxFeeSat armed.package := by
    refine ⟨?_, hfee'⟩
    rw [hv', harm]
    rfl
  refine bind_keeps hv (sendExit_keeps hc harmed) fun _ u hu hlater => ?_
  refine bind_keeps hu observeExitPackage_keeps fun presence t ht hlater' => ?_
  refine Safe.of_bind fun _ _ => markExitObserved_keeps hc ht ?_ hpending hfee'
  rw [(hlater.trans hlater').saved, hv']

end Journal

/-! ## The command -/

section Command

variable {policy : ExitPolicy} {coin : WalletCoin P}

theorem maxFeeSat_of_policy {journal : ExitJournal P} {u : Unit}
    (h : validateSavedExitPolicy coin journal policy = .ok u) :
    journal.package.maxFeeSat = policy.maxFeeSat := by
  simp only [validateSavedExitPolicy, Except.bind_eq_ok, Except.ensure_eq_ok, exists_unit] at h
  exact h.2.2.1

theorem resumeExit_keeps (hc : c.Exits policy.maxFeeSat) (hw : NativeInv config w.saved)
    (hpending : w.saved.wallet.pending = none) :
    Keeps services config c (fun report v => report = none → Later w v)
      (resumeExit config w.saved policy) w := by
  unfold resumeExit
  split
  · exact Safe.pure fun _ => .refl w
  · rename_i journal hjournal
    have hsaved := NativeWalletState.withExit_of_saved (Option.filter_eq_some_iff.1 hjournal).1
    refine Safe.of_bind fun coin _ => Safe.of_bind fun _ hpolicy => ?_
    have hfee := maxFeeSat_of_policy hpolicy
    refine bind_keeps hw observeExitPackage_keeps fun presence v hv hlater => ?_
    have hsaved' : v.saved = w.saved.withExit journal := hlater.saved.trans hsaved.symm
    split
    · refine Safe.bind (markExitObserved_keeps hc hv hsaved' hpending hfee) fun _ _ _ => ?_
      exact Safe.pure fun h => by cases h
    · split
      · refine Safe.bind (submitExit_keeps hc hv hsaved' hpending hfee) fun _ _ _ => ?_
        exact Safe.pure fun h => by cases h
      · exact Safe.pure fun _ => hlater

theorem prepareExit_keeps (hc : c.Exits policy.maxFeeSat) (hw : NativeInv config w.saved)
    (hpending : w.saved.wallet.pending = none) {confirmations : Nat} :
    Keeps services config c (fun journal v => v.saved = w.saved.withExit journal)
      (prepareExit config w.saved coin policy confirmations) w := by
  unfold prepareExit
  split
  · rename_i journal hjournal
    refine Safe.pure ?_
    exact (NativeWalletState.withExit_of_saved (Option.filter_eq_some_iff.1 hjournal).1).symm
  · rename_i hnone
    refine bind_keeps hw exitFeeRate_keeps fun rate v hv hlater => ?_
    refine Safe.of_bind fun journal hprepare => ?_
    have hprepared : ∀ exit ∈ w.saved.exit, exit.stage = .prepared := by
      intro exit hexit
      have hkept := Option.filter_eq_none_iff.1 hnone exit hexit
      simp only [ne_eq, decide_eq_true_eq, not_or, Decidable.not_not] at hkept
      exact hkept.1
    rw [← hlater.saved] at hpending hprepared ⊢
    refine Safe.bind (saveNative_keeps fun hvalid => ?_) fun _ u hu => Safe.pure hu.1
    exact exitWrite hc hv hpending (.prepare hprepared (ExitJournal.prepare_ok hprepare)) hvalid

theorem finishExit_keeps {native : NativeWalletState P} {journal : ExitJournal P}
    (hc : c.Exits policy.maxFeeSat) (hw : NativeInv config w.saved)
    (hsaved : w.saved = native.withExit journal) (hpending : native.wallet.pending = none)
    {confirmations : Nat} :
    Keeps services config c (fun _ _ => True)
      (finishExit config native coin journal policy confirmations) w := by
  refine Safe.of_bind fun _ hpolicy => ?_
  have hfee := maxFeeSat_of_policy hpolicy
  refine bind_keeps hw observeExitPackage_keeps fun presence v hv hlater => ?_
  have hsaved' := hlater.saved.trans hsaved
  split
  · exact markExitObserved_keeps hc hv hsaved' hpending hfee
  · exact Safe.of_bind fun _ _ => submitExit_keeps hc hv hsaved' hpending hfee

variable {destination : String} {feeRate : Option Nat} {maxFeeSat : Nat}

theorem exitCoinJournaled_keeps (hc : c.Exits maxFeeSat) (hw : NativeInv config w.saved)
    (hpending : w.saved.wallet.pending = none) :
    Keeps services config c (fun _ _ => True)
      (exitCoinJournaled config w.saved destination feeRate maxFeeSat) w := by
  refine Safe.of_bind fun address _ => ?_
  obtain ⟨policy, hpolicy⟩ : ∃ policy : ExitPolicy,
      policy = { destination := P.addressToString address, feeRate, maxFeeSat } := ⟨_, rfl⟩
  have hc' : c.Exits policy.maxFeeSat := by rwa [hpolicy]
  refine bind_keeps hw connectChain_keeps ?_
  rintro _ v hv ⟨hlater, _⟩
  refine Safe.of_bind fun (coin, metadata) _ => ?_
  rw [← hlater.saved] at hpending ⊢
  rw [← hpolicy]
  refine bind_keeps hv (resumeExit_keeps hc' hv hpending) fun report u hu hreport => ?_
  cases report with
  | some report => exact Safe.pure trivial
  | none =>
    have hlater' := hreport rfl
    refine bind_keeps hu observeExitFunding_keeps fun observation t ht hlater'' => ?_
    refine Safe.of_bind fun _ _ => ?_
    have hsaved := (hlater'.trans hlater'').saved
    rw [← hsaved] at hpending ⊢
    refine bind_keeps ht (prepareExit_keeps hc' ht hpending) fun journal s hs hs' => ?_
    exact finishExit_keeps hc' hs hs' hpending

theorem exitCoinDryRun_keeps {wallet : WalletState P} :
    Keeps services config c (fun _ _ => True)
      (exitCoinDryRun config wallet destination feeRate maxFeeSat) w := by
  refine Safe.of_bind fun (metadata, recovery, withdrawalSecret, address) _ => ?_
  refine Safe.bind connectChain_keeps fun _ _ _ => call_bind trivial fun observation _ => ?_
  refine Safe.of_bind fun _ _ => Safe.bind exitFeeRate_keeps fun _ _ _ => ?_
  exact Safe.of fun _ _ => trivial

theorem exitCoin_keeps {dryRun : Bool} (hw : NativeInv config w.saved) :
    Keeps services config (.exit destination feeRate maxFeeSat dryRun) (fun _ _ => True)
      (exitCoin config destination feeRate maxFeeSat dryRun) w := by
  refine Safe.of_bind fun _ _ => loadNative_bind ?_
  refine Safe.of_bind fun _ hpending => ?_
  rw [Except.ensure_eq_ok, Option.isNone_iff_eq_none] at hpending
  split
  · exact Safe.of fun _ _ => trivial
  · exact exitCoinDryRun_keeps
  · exact exitCoinJournaled_keeps ⟨_, _, rfl⟩ hw hpending

end Command

end Tinylayer
