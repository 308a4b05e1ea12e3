import Tinylayer.Native.Proofs.CliProofs

/-!
# One exit package

All that the exits of a wallet ever submit is one package: it is armed with the fee that the command
allows, and never replaced afterwards.
-/

namespace Tinylayer

open Durable

variable {P : Platform} {E : Type} {services : Services P E} {reader : PayloadReader P}
  {config : Config} {fundingSecret : P.SecretKey} {w v : CliWorld P E}

/-- The fee that the child of the package pays is within the maximum. -/
def FeeWithin (s : NativeWalletState P) (package : ExitPackage P) (maxFeeSat : Nat) : Prop :=
  ∃ coin metadata fee, s.wallet.coin = some coin ∧ coin.metadata = some metadata ∧
    exitFee metadata package.child = .ok fee ∧ fee ≤ maxFeeSat

theorem NativeInv.feeWithin {s : NativeWalletState P} (h : NativeInv config s)
    {journal : ExitJournal P} (hexit : s.exit = some journal) :
    FeeWithin s journal.package journal.package.maxFeeSat := by
  obtain ⟨coin, hcoin, _, hvalid⟩ := h.exit_valid hexit
  obtain ⟨metadata, recovery, key, howned, _, _, hfee, hmax⟩ := ExitPackage.validate_ok hvalid
  obtain ⟨hmetadata, _⟩ := ownedRecovery_eq_ok.1 howned
  exact ⟨coin, metadata, _, hcoin, hmetadata, hfee, hmax⟩

/-- What one write does to the exit journal. -/
structure ExitMoves (c : Command P) (s state : NativeWalletState P) : Prop where
  kept : ∀ journal ∈ s.exit, journal.stage ≠ .prepared →
    ∃ later ∈ state.exit, later.package = journal.package ∧ later.stage ≠ .prepared
  armed : ∀ later ∈ state.exit, later.stage = .submissionArmed → s.exit = some later ∨
    ∃ destination feeRate maxFeeSat, c = .exit destination feeRate maxFeeSat false ∧
      FeeWithin state later.package maxFeeSat
  observed : ∀ later ∈ state.exit, later.stage = .observed →
    s.exit = some later ∨ s.exit = some { later with stage := .submissionArmed }

theorem ExitMoves.of_eq {c : Command P} {s state : NativeWalletState P}
    (h : state.exit = s.exit) : ExitMoves c s state where
  kept := fun journal hjournal hstage => ⟨journal, h ▸ hjournal, rfl, hstage⟩
  armed := fun _ hlater _ => Or.inl (h.symm.trans hlater)
  observed := fun _ hlater _ => Or.inl (h.symm.trans hlater)

theorem Change.exitMoves {c : Command P} {u : CliWorld P E} {state : NativeWalletState P}
    (h : Change config c u state) (hinv : NativeInv config state) :
    ExitMoves c u.saved state := by
  cases h with
  | wallet hchange => exact .of_eq rfl
  | sweep => exact .of_eq rfl
  | @exit journal destination feeRate maxFeeSat hcommand _ hstep =>
    have hfee := hinv.feeWithin (NativeWalletState.withExit_exit u.saved journal)
    obtain ⟨saved, hsaved⟩ : ∃ saved, u.saved.exit = saved := ⟨_, rfl⟩
    rw [hsaved] at hstep
    refine { kept := ?_, armed := ?_, observed := ?_ }
    · intro before hbefore hstage
      rw [hsaved] at hbefore
      refine ⟨journal, rfl, ?_⟩
      cases hstep with
      | prepare hprepared => exact absurd (hprepared before hbefore) hstage
      | arm =>
        obtain rfl := Option.some.inj hbefore
        exact ⟨rfl, by simp⟩
      | observe =>
        obtain rfl := Option.some.inj hbefore
        exact ⟨rfl, by simp⟩
    · intro later hlater hstage
      obtain rfl := Option.some.inj hlater
      cases hstep with
      | prepare _ hprepared =>
        rw [hprepared] at hstage
        cases hstage
      | arm hmax => exact Or.inr ⟨destination, feeRate, maxFeeSat, hcommand, hmax ▸ hfee⟩
      | observe => cases hstage
    · intro later hlater hstage
      obtain rfl := Option.some.inj hlater
      cases hstep with
      | prepare _ hprepared =>
        rw [hprepared] at hstage
        cases hstage
      | arm => cases hstage
      | @observe before harmed =>
        right
        rw [hsaved, ← harmed]

/-- The event submits the package of the saved exit, which was armed at the time. -/
def SubmitsSaved (s : NativeWalletState P) (event : CliEvent P) : Prop :=
  ∃ journal ∈ s.exit, journal.stage ≠ .prepared ∧ SendsPackage event journal.package ∧
    event.saved.exit = some { journal with stage := .submissionArmed }

theorem SubmitsSaved.moves {c : Command P} {s state : NativeWalletState P} {event : CliEvent P}
    (h : SubmitsSaved s event) (hmoves : ExitMoves c s state) : SubmitsSaved state event := by
  obtain ⟨journal, hjournal, hstage, hsends, harmed⟩ := h
  obtain ⟨later, hlater, hpackage, hstage'⟩ := hmoves.kept journal hjournal hstage
  refine ⟨later, hlater, hstage', hpackage ▸ hsends, ?_⟩
  rw [harmed, hpackage]

/-- A permitted submission of an exit. -/
theorem submitsSaved_of_allows {event : CliEvent P} {u : CliWorld P E} (h : SubmitsExit event)
    (hallows : (cliContract E config).Allows u event) (hsaved : u.saved = event.saved) :
    SubmitsSaved u.saved event := by
  have hsubmits : ∀ maxFeeSat package, ExitArmed u.saved maxFeeSat package →
      SendsPackage event package → SubmitsSaved u.saved event := by
    rintro maxFeeSat package ⟨hexit, _⟩ hsends
    exact ⟨_, hexit, by simp, hsends, hsaved ▸ hexit⟩
  rcases h with ⟨parentHex, childHex, hasked⟩ | ⟨⟨transaction, hasked⟩, hcommand⟩
  · have hpermitted : Permitted _ _ _ := hallows.of_asked hasked
    simp only [Permitted] at hpermitted
    split at hpermitted
    · obtain ⟨package, harmed, rfl, rfl⟩ := hpermitted
      exact hsubmits _ package harmed (Or.inl hasked)
    · exact hpermitted.elim
  · have hpermitted : Permitted _ _ _ := hallows.of_asked hasked
    cases hc : event.command with
    | exit destination feeRate maxFeeSat dryRun =>
      simp only [hc, Permitted] at hpermitted
      obtain ⟨package, harmed, rfl⟩ := hpermitted
      exact hsubmits _ package harmed (Or.inr hasked)
    | _ =>
      rw [hc] at hcommand
      exact hcommand.elim

theorem submitsSaved_of_guarded (h : Guarded services (cliContract E config) w v)
    (hw : w.log = []) : ∀ event ∈ v.log, SubmitsExit event → SubmitsSaved v.saved event := by
  refine h.keeps (fun u => ∀ event ∈ u.log, SubmitsExit event → SubmitsSaved u.saved event)
    ?_ ?_ ?_
  · simp [hw]
  · intro u c state _ hwrite hu event hevent hsubmits
    rcases List.mem_append.1 hevent with hevent | hevent
    · exact (hu event hevent hsubmits).moves (hwrite.2.2.exitMoves hwrite.1)
    · obtain rfl := List.mem_singleton.1 hevent
      rcases hsubmits with ⟨_, _, reply, hasked⟩ | ⟨⟨_, reply, hasked⟩, _⟩ <;> cases hasked
  · intro u c query reply e _ hask _ hu event hevent hsubmits
    rcases List.mem_append.1 hevent with hevent | hevent
    · exact hu event hevent hsubmits
    · obtain rfl := List.mem_singleton.1 hevent
      have hallows : (cliContract E config).Allows u ⟨c, u.saved, .asked query reply⟩ := hask
      have hsaved := submitsSaved_of_allows hsubmits hallows rfl
      exact hsaved

/-- All that is submitted is the package of the saved exit, each time while the saved exit is armed;
and the saved exit only goes on as `ExitMoves` says. -/
theorem one_exit_package (hsecret : P.SecretCodec)
    (hw : Initialized config fundingSecret w) (h : CliLife services reader config w v) :
    (∀ event ∈ v.log, SubmitsExit event → ∃ journal, v.saved.exit = some journal ∧
      SendsPackage event journal.package ∧
      event.saved.exit = some { journal with stage := .submissionArmed }) ∧
    ∀ event ∈ v.log, ∀ state, event.Wrote state → ExitMoves event.command event.saved state := by
  have hguarded := hw.guarded hsecret h
  refine ⟨?_, ?_⟩
  · intro event hevent hsubmits
    obtain ⟨journal, hjournal, _, hsends, harmed⟩ :=
      submitsSaved_of_guarded hguarded hw.log event hevent hsubmits
    exact ⟨journal, hjournal, hsends, harmed⟩
  · intro event hevent state hwrote
    obtain ⟨before, after, hlog⟩ := List.append_of_mem hevent
    obtain ⟨u, _, _, _, hsaved, hallows⟩ := hguarded.allows hw.log hlog
    obtain ⟨hinv, _, hchange⟩ := hallows.of_wrote hwrote
    rw [← hsaved]
    exact hchange.exitMoves hinv

section Alice

open Symbolic

def isPackageSubmission (event : CliEvent P) : Bool :=
  match event.action with
  | .asked (.submitPackage ..) _ => true
  | _ => false

theorem submitsExit_of_isPackageSubmission {event : CliEvent P}
    (h : isPackageSubmission event = true) : SubmitsExit event := by
  obtain ⟨command, saved, action⟩ := event
  unfold isPackageSubmission at h
  split at h
  · exact Or.inl ⟨_, _, _, by assumption⟩
  · cases h

/-- An address on the test network. -/
def aliceAddress : String := Hex.encode [3, 1, 1, 1]

def aliceExits : Command platform := .exit aliceAddress none 500 false

theorem one_exit_package_exited :
    ∃ event ∈ (aliceRan [aliceRegisters, aliceFunds, aliceExits]).log, ∃ journal,
      SendsPackage event journal.package ∧
      (aliceRan [aliceRegisters, aliceFunds, aliceExits]).saved.exit = some journal := by
  have hmem : ∃ event ∈ (aliceRan [aliceRegisters, aliceFunds, aliceExits]).log,
      isPackageSubmission event = true := by decide +kernel
  obtain ⟨event, hevent, hsubmits⟩ := hmem
  obtain ⟨journal, hexit, hsends, _⟩ := (one_exit_package secretCodec initialized_newWorld
    (cliLife_aliceRan [aliceRegisters, aliceFunds, aliceExits])).1 event hevent
    (submitsExit_of_isPackageSubmission hsubmits)
  exact ⟨event, hevent, journal, hsends, hexit⟩

end Alice

end Tinylayer
