import Tinylayer.Native.Backend
import Tinylayer.Native.Proofs.ExitCommandProofs
import Tinylayer.Native.Proofs.FundCommandProofs
import Tinylayer.Native.Proofs.InterruptionProofs
import Tinylayer.Native.Proofs.SweepCommandProofs
import Tinylayer.Native.Proofs.TransferCommandProofs

/-!
# The life of a data directory

Every command keeps to the contract, so that all that ever happens to a data directory is guarded by
it. What was saved can therefore always be loaded again.
-/

namespace Tinylayer

open Durable

variable {P : Platform} {E : Type} {services : Services P E} {reader : PayloadReader P}
  {config : Config} {fundingSecret : P.SecretKey} {w v : CliWorld P E}

/-! ## Every command keeps to the contract -/

theorem Command.program_keeps (hsecret : P.SecretCodec) (c : Command P)
    (hw : NativeInv config w.saved) :
    Keeps services config c (fun _ _ => True) (c.program reader config) w := by
  cases c with
  | register => exact registerCoin_keeps hw
  | fund => exact fundCoin_keeps hsecret (by trivial) hw
  | requestTransfer => exact createTransferRequest_keeps hw
  | sign => exact signTransfer_keeps hw
  | accept => exact acceptTransfer_keeps hw
  | sweep => exact sourceSweep_keeps (by trivial) hw
  | exit => exact exitCoin_keeps hw

theorem CliLife.guarded (hsecret : P.SecretCodec) (h : CliLife services reader config w v)
    (hw : NativeInv config w.saved) : Guarded services (cliContract E config) w v :=
  Life.guarded (cliContract_stable config services)
    (fun c _ hu => Command.program_keeps hsecret c hu) h hw

theorem Initialized.inv (h : Initialized config fundingSecret w) : NativeInv config w.saved := by
  rw [h.saved]
  exact .initial fundingSecret

theorem Initialized.guarded (h : Initialized config fundingSecret w) (hsecret : P.SecretCodec)
    (hlife : CliLife services reader config w v) :
    Guarded services (cliContract E config) w v :=
  CliLife.guarded hsecret hlife h.inv

theorem nativeInv_of_guarded (h : Guarded services (cliContract E config) w v)
    (hw : NativeInv config w.saved) : NativeInv config v.saved :=
  Guarded.inv (cliContract_stable config services) h hw

/-! ## What was saved can be loaded -/

/-- A file with the state in it is loaded as this state. -/
def NativeWalletState.Reloads (codec : StoreCodec P) (config : Config)
    (state : NativeWalletState P) : Prop :=
  ∀ (store : WalletStore) draws bytes interruption (m : Storage.Machine WalletPath),
    store.config = config → codec.sealState state store.password store.aad draws = .ok bytes →
    bytes.length ≤ maxStateFileSize → m.disk.live .state = some (.file false true bytes) →
    store.loadNative codec interruption m = .done state m

theorem NativeWalletState.Loadable.reloads {codec : StoreCodec P} (hcodec : codec.RoundTrip)
    {state : NativeWalletState P} (h : state.Loadable config.network) :
    state.Reloads codec config := by
  rintro store draws bytes interruption m rfl hsealed hsize hfile
  rw [WalletStore.loadNative_eq_done]
  exact ⟨(WalletStore.stateAt_of_written hcodec hsealed hsize hfile).2 ⟨rfl, h⟩, rfl⟩

theorem WalletInv.keysValid {s : NativeWalletState P} (h : WalletInv s.wallet) : s.KeysValid where
  coin := by
    intro coin hcoin
    have hinv := h.coin coin hcoin
    refine ⟨hinv.keys, fun metadata hmetadata => ?_⟩
    rw [hinv.metadata_keys metadata hmetadata]
    exact hinv.keys
  attempt := by
    intro pending hpending
    obtain ⟨coin, hcoin, metadata, hattempt, _⟩ := h.recovery pending hpending
    have hinv := h.coin coin hcoin
    rw [hattempt.prepared]
    change metadata.keys.Valid
    rw [hinv.metadata_keys metadata hattempt.metadata_eq]
    exact hinv.keys

theorem NativeInv.loadable {s : NativeWalletState P} (h : NativeInv config s) :
    s.Loadable config.network := ⟨h.wallet.keysValid, h.valid⟩

/-- Only the wallet part is replaced. -/
def walletContract (E : Type) (saved : NativeWalletState P) (wallet : WalletState P) :
    Contract (Command P) (NativeWalletState P) (Query P) Query.Reply E where
  inv u := u.saved = saved ∨ u.saved = saved.withWallet wallet
  write _ _ state := state = saved.withWallet wallet
  ask _ _ _ := False

/-- A save of the wallet part leaves the rest of the saved state as it is. -/
theorem save_preserves {c : Command P} {wallet : WalletState P} {u : CliWorld P E}
    {rest : Cli P Unit} (h : Steps services c (w, save config wallet) (u, rest)) :
    u.saved = w.saved ∨ u.saved = w.saved.withWallet wallet := by
  have hstable : (walletContract E w.saved wallet).Stable services :=
    { wrote := fun _ hwrite => Or.inr hwrite
      asked := fun _ hask _ => hask.elim }
  have hsafe : Safe services (walletContract E w.saved wallet) c (fun _ _ => True)
      (save config wallet) w := by
    refine Safe.of_bind fun _ _ => ?_
    cases hload : w.saved.validate config.network with
    | ok _ =>
      change Safe _ _ _ _
        ((Program.of (w.saved.validate config.network) >>= fun _ => pure w.saved) >>= _) w
      rw [hload]
      exact Safe.replace rfl fun _ => trivial
    | error message =>
      change Safe _ _ _ _
        ((Program.of (w.saved.validate config.network) >>= fun _ => pure w.saved) >>= _) w
      rw [hload]
      trivial
  exact Guarded.inv hstable (hsafe.steps hstable (Or.inl rfl) h).1 (Or.inl rfl)

/-- Whatever the commands are answered and wherever they are interrupted, what they save can be
loaded, keeps the deposit key, and is changed in one part at a time. -/
theorem saved_states_load (hsecret : P.SecretCodec) {codec : StoreCodec P}
    (hcodec : codec.RoundTrip) (hw : Initialized config fundingSecret w)
    (h : CliLife services reader config w v) :
    (v.saved.Loadable config.network ∧ v.saved.Reloads codec config ∧
      v.saved.fundingSecret = fundingSecret) ∧
    (∀ event ∈ v.log, ∀ state, event.Wrote state →
      state.Loadable config.network ∧ state.Reloads codec config ∧
      state.fundingSecret = fundingSecret ∧
      (state.wallet = event.saved.wallet ∨ state = event.saved.withWallet state.wallet)) ∧
    ∀ c wallet u rest, Steps services c (v, save config wallet) (u, rest) →
      u.saved.exit = v.saved.exit ∧ u.saved.sourceSweep = v.saved.sourceSweep ∧
      u.saved.fundingSecret = v.saved.fundingSecret := by
  have hguarded := hw.guarded hsecret h
  have hsecrets : ∀ u, Guarded services (cliContract E config) w u →
      u.saved.fundingSecret = fundingSecret := by
    intro u hu
    refine hu.keeps (fun u => u.saved.fundingSecret = fundingSecret) ?_ ?_ ?_
    · rw [hw.saved]
      rfl
    · exact fun u c state _ hwrite hu => hwrite.2.1.trans hu
    · exact fun u c query reply e _ _ _ hu => hu
  refine ⟨?_, ?_, ?_⟩
  · have hload := (nativeInv_of_guarded hguarded hw.inv).loadable
    exact ⟨hload, hload.reloads hcodec, hsecrets v hguarded⟩
  · intro event hevent state hwrote
    obtain ⟨before, after, hlog⟩ := List.append_of_mem hevent
    obtain ⟨u, hu, _, _, hsaved, hallows⟩ := hguarded.allows hw.log hlog
    obtain ⟨hinv, hsame, hchange⟩ := hallows.of_wrote hwrote
    have hload := hinv.loadable
    refine ⟨hload, hload.reloads hcodec, hsame.trans (hsecrets u hu), ?_⟩
    rw [← hsaved]
    cases hchange with
    | wallet => exact Or.inr rfl
    | exit => exact Or.inl rfl
    | sweep => exact Or.inl rfl
  · intro c wallet u rest hsteps
    rcases save_preserves hsteps with hu | hu
    · rw [hu]
      exact ⟨rfl, rfl, rfl⟩
    · rw [hu]
      exact ⟨rfl, rfl, rfl⟩

/-! ## A life -/

section Alice

open Symbolic WalletState

def smallDeposit (txid : Nat) : SourceUtxo platform where
  outpoint := ⟨txid, 0⟩
  output := { value := 1500, scriptPubkey := 0x51 :: 2 :: (bytes 7).toList }
  confirmations := 1
  coinbase := false

/-- A wallet that was just initialized, and three deposits to it. -/
def newWorld : CliWorld platform (Backend platform) where
  saved := .new (bytes 7) .empty
  env := {
    signer := .new
    running := true
    deposits := [deposit, smallDeposit 41, smallDeposit 42]
    confirmed := [] }
  log := []

theorem initialized_newWorld : Initialized freshConfig (bytes 7) newWorld := ⟨rfl, rfl, rfl⟩

def aliceDraws : Signer.Draws platform := ⟨bytes 9, bytes 11⟩

def aliceReader : PayloadReader platform := ⟨fun _ => none⟩

/-- The world after the commands `cs`. -/
def aliceRan (cs : List (Command platform)) : CliWorld platform (Backend platform) :=
  runAll (Backend.answer aliceDraws) (Command.program aliceReader freshConfig) cs newWorld

theorem cliLife_aliceRan (cs : List (Command platform)) :
    CliLife (answering (Backend.answer aliceDraws)) aliceReader freshConfig newWorld
      (aliceRan cs) :=
  Life.runAll cs newWorld

def aliceRegisters : Command platform := .register registrationDraws

def aliceFunds : Command platform := .fund ⟨bytes 4, bytes 5⟩ 1000 100 1 500

theorem saved_states_load_funded :
    (aliceRan [aliceRegisters, aliceFunds]).saved.fundingSecret = bytes 7 ∧
    (aliceRan [aliceRegisters, aliceFunds]).saved.Reloads freshCodec freshConfig ∧
    (aliceRan [aliceRegisters, aliceFunds]).saved.wallet.fundingStage = some .broadcast := by
  obtain ⟨⟨_, hreloads, hsecret⟩, _⟩ := saved_states_load secretCodec freshCodec_roundTrip
    initialized_newWorld (cliLife_aliceRan [aliceRegisters, aliceFunds])
  exact ⟨hsecret, hreloads, by decide +kernel⟩

end Alice

end Tinylayer
