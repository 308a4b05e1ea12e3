import Tinylayer.Native.Proofs.InitializationProofs
import Tinylayer.Symbolic

/-!
# Proofs: a directory after an interruption

Saving can be interrupted anywhere: what is found afterwards is the old state or the new one. An
initialization that is interrupted between its two files leaves a directory that is neither opened
nor initialized again.
-/

namespace Tinylayer

open Storage

variable {P : Platform}

/-- A state that can be loaded once it is saved. -/
structure NativeWalletState.Loadable (network : NetworkId) (state : NativeWalletState P) :
    Prop where
  keys : state.KeysValid
  valid : state.validate network = .ok ()

namespace WalletStore

variable {codec : StoreCodec P} {directory password : String} {store : WalletStore}
  {d : Disk WalletPath}

theorem openStore_done (h : store.OpenedFrom codec directory password d.live) {calls : Nat}
    {interruption : Option (Interruption WalletPath)}
    (hcut : ∀ i ∈ interruption, i.after ≠ calls) :
    openStore codec directory password interruption ⟨d, calls⟩ =
      .done store ⟨locked d, calls + 1⟩ := by
  have hdirectory : (locked d).live .directory = some (.directory false) :=
    (locked_live d (by decide)).trans h.private_directory
  have hconfig : (locked d).live .config = d.live .config := locked_live d (by decide)
  have hload : ConfigAt codec (locked d).live store.config := by
    simpa only [ConfigAt, hconfig] using h.config_file
  obtain ⟨synced, bytes, hfile, -⟩ := h.config_file
  unfold openStore
  rw [FileM.bind_done (ensurePrivatePath_done (checkPrivate_directory.2 h.private_directory)),
    FileM.bind_done (ensurePrivatePath_done (checkPrivate_file.2 h.state_file)),
    FileM.bind_done (openLock_done h.lockable hcut),
    FileM.bind_done (ensurePrivatePath_done
      (checkPrivate_file.2 ⟨synced, bytes, hconfig.trans hfile⟩)),
    FileM.bind_done (loadConfig_eq_done.2 ⟨hdirectory, hload, rfl⟩)]
  exact FileM.pure_eq_done.2 ⟨h.store_eq.symm, rfl⟩

theorem openStore_stopped (h : store.OpenedFrom codec directory password d.live) {calls : Nat}
    {i : Interruption WalletPath} (hcut : i.after = calls) :
    openStore codec directory password (some i) ⟨d, calls⟩ = .stopped d := by
  have hlock : openLock (some i) ⟨d, calls⟩ = .stopped d := by
    unfold openLock FileM.openFile
    exact FileM.call_stopped hcut
  unfold openStore
  rw [FileM.bind_done (ensurePrivatePath_done (checkPrivate_directory.2 h.private_directory)),
    FileM.bind_done (ensurePrivatePath_done (checkPrivate_file.2 h.state_file)),
    FileM.bind_stopped hlock]

/-- A directory from which `store` is opened is one for which it is opened after the state was
replaced. -/
theorem OpenedFrom.congr (h : store.OpenedFrom codec directory password d.live)
    {live : WalletPath → Option Node} (hlock : Lockable (live .lock))
    (hdirectory : live .directory = d.live .directory) (hconfig : live .config = d.live .config)
    (hstate : ∃ synced bytes, live .state = some (.file false synced bytes)) :
    store.OpenedFrom codec directory password live where
  private_directory := hdirectory.trans h.private_directory
  lockable := hlock
  state_file := hstate
  config_file := by simpa only [ConfigAt, hconfig] using h.config_file
  store_eq := h.store_eq

/-- What is loaded from a state file that was written. -/
theorem stateAt_of_written (hcodec : codec.RoundTrip) {live : WalletPath → Option Node}
    {state state' : NativeWalletState P} {draws : SealDraws} {bytes : List UInt8}
    (hsealed : codec.sealState state store.password store.aad draws = .ok bytes)
    (hsize : bytes.length ≤ maxStateFileSize) (hfile : live .state = some (.file false true bytes)) :
    store.StateAt codec live state' ↔ state' = state ∧ state.Loadable store.config.network := by
  constructor
  · rintro ⟨_, _, _, hfile', -, hopen, hvalid⟩
    cases hfile.symm.trans hfile'
    obtain ⟨hkeys, rfl⟩ := (hcodec.state _ _ _ _ _ hsealed _).1 hopen
    exact ⟨rfl, hkeys, hvalid⟩
  · rintro ⟨rfl, hkeys, hvalid⟩
    exact ⟨false, true, bytes, hfile, hsize, (hcodec.state _ _ _ _ _ hsealed _).2 ⟨hkeys, rfl⟩,
      hvalid⟩

section Writing

variable {old new : NativeWalletState P} {draws : WriteDraws} {bytes : List UInt8}

/-- A save that is interrupted, of whatever kind, leaves the old state or, once it is in place, the
new one. -/
theorem found_of_interrupted_write (write : WalletStore → FileM WalletPath Unit)
    (hcodec : codec.RoundTrip) (hquiet : Quiet d)
    (hopened : store.OpenedFrom codec directory password d.live)
    (hold : store.StateAt codec d.live old)
    (hsealed : codec.sealState new store.password store.aad draws.sealing = .ok bytes)
    (hsize : bytes.length ≤ maxStateFileSize)
    (hnew : d.live (.temporary .state draws.suffix) = none) (i : Interruption WalletPath)
    (hwrite : ∀ interruption calls, write store interruption ⟨locked d, calls⟩ =
      FileM.replaceFile (.temporary .state draws.suffix) .state bytes interruption
        ⟨locked d, calls⟩) :
    ∃ d', d' = ((openStore codec directory password >>= write) (some i) ⟨d, 0⟩).disk.settle i ∧
      (i.InPlace 1 .state → ∀ state, Found codec directory password d' store state ↔
        state = new ∧ new.Loadable store.config.network) ∧
      (¬ i.InPlace 1 .state → Found codec directory password d' store old) := by
  refine ⟨_, rfl, ?_⟩
  have hlocked := hquiet.locked
  have hstate_live : (locked d).live .state = d.live .state := locked_live d (by decide)
  -- what is found if the state is the old one
  have hfound {d' : Disk WalletPath} (hlock : Lockable (d'.live .lock))
      (hlive : ∀ path, path = .directory ∨ path = .config ∨ path = .state →
        d'.live path = d.live path) : Found codec directory password d' store old := by
    have hstate := hlive .state (by simp)
    refine found_iff.2 ⟨hopened.congr hlock (hlive _ (by simp)) (hlive _ (by simp)) ?_, ?_⟩
    · rw [hstate]
      exact hopened.state_file
    · simpa only [StateAt, hstate] using hold
  -- what is found if it is the new one
  have hfoundNew {d' : Disk WalletPath} (hlock : Lockable (d'.live .lock))
      (hlive : ∀ path, path = .directory ∨ path = .config → d'.live path = d.live path)
      (hfile : d'.live .state = some (.file false true bytes)) (state : NativeWalletState P) :
      Found codec directory password d' store state ↔
        state = new ∧ new.Loadable store.config.network := by
    rw [found_iff, stateAt_of_written hcodec hsealed hsize hfile]
    exact and_iff_right (hopened.congr hlock (hlive _ (by simp)) (hlive _ (by simp))
      ⟨true, bytes, hfile⟩)
  rcases Nat.eq_zero_or_pos i.after with hzero | hpos
  · rw [FileM.bind_stopped (openStore_stopped hopened hzero)]
    refine ⟨fun hin => ?_, fun _ => ?_⟩
    · rcases hin with hin | ⟨hin, -⟩ <;> omega
    · refine hfound (lockable_settle hquiet.lock_live hquiet.lock_durable i) fun path hpath => ?_
      exact hquiet.settle_live i (by rcases hpath with rfl | rfl | rfl <;> decide)
  have hopen : openStore codec directory password (some i) ⟨d, 0⟩ = .done store ⟨locked d, 1⟩ :=
    openStore_done hopened fun i' hi' => by
      obtain rfl := Option.some.inj hi'
      omega
  rw [FileM.bind_done hopen, hwrite]
  have htemporary : (locked d).live (.temporary .state draws.suffix) = none :=
    (locked_live d (by simp)).trans hnew
  have hnode : ∀ shared, (locked d).live .state ≠ some (.directory shared) := by
    obtain ⟨synced, oldBytes, hfile⟩ := hopened.state_file
    intro shared hdirectory
    cases (hstate_live.trans hfile).symm.trans hdirectory
  rcases Nat.lt_or_ge i.after 6 with hcut | hcut
  · obtain ⟨d', hstopped, hlock, hother, hwritten, hkept⟩ := hlocked.settle_replaceFile htemporary
      (by decide) hnode bytes 1 i ⟨hpos, hcut⟩
    rw [hstopped]
    have hlive : ∀ path, path = .directory ∨ path = .config →
        (d'.settle i).live path = d.live path := by
      rintro path (rfl | rfl)
      · exact (hother _ (by decide) (by simp) (by decide)).trans (locked_live d (by decide))
      · exact (hother _ (by decide) (by simp) (by decide)).trans (locked_live d (by decide))
    refine ⟨fun hin => hfoundNew hlock hlive (hwritten hin), fun hout => ?_⟩
    refine hfound hlock ?_
    rintro path (rfl | rfl | rfl)
    · exact hlive _ (by simp)
    · exact hlive _ (by simp)
    · exact (hkept hout).trans hstate_live
  · rw [(FileM.replaceFile_calls bytes (temporary_ne _ _) htemporary hnode _ _).1 fun i' hi' => by
      obtain rfl := Option.some.inj hi'
      exact Or.inr hcut]
    have hfinal : Quiet ((locked d).replaced (.temporary .state draws.suffix) .state bytes) :=
      hlocked.replaced (by simp) (by decide) bytes
    refine ⟨fun _ => ?_, fun hout => absurd (Or.inl hcut) hout⟩
    refine hfoundNew (lockable_settle hfinal.lock_live hfinal.lock_durable i) ?_ ?_
    · rintro path (rfl | rfl)
      · refine (hfinal.settle_live i (by decide)).trans ?_
        simpa [Disk.replaced] using locked_live d (by decide)
      · refine (hfinal.settle_live i (by decide)).trans ?_
        simpa [Disk.replaced] using locked_live d (by decide)
    · refine (hfinal.settle_live i (by decide)).trans ?_
      simp [Disk.replaced]

end Writing

section Saving

variable {old new : NativeWalletState P} {wallet : WalletState P} {draws : WriteDraws}
  {bytes : List UInt8} {interruption : Option (Interruption WalletPath)}
  {m : Machine WalletPath}

theorem saveNative_eq (hdirectory : m.disk.live .directory = some (.directory false))
    (hvalid : new.validate store.config.network = .ok ())
    (hsealed : codec.sealState new store.password store.aad draws.sealing = .ok bytes)
    (hsize : bytes.length ≤ maxStateFileSize) :
    store.saveNative codec new draws interruption m =
      FileM.replaceFile (.temporary .state draws.suffix) .state bytes interruption m := by
  unfold saveNative
  rw [FileM.bind_done (FileM.of_eq_done.2 ⟨hvalid, rfl⟩)]
  exact writeNative_eq hdirectory hsealed hsize

theorem save_eq (hdirectory : m.disk.live .directory = some (.directory false))
    (hversion : wallet.validateVersion = .ok ()) (hold : store.StateAt codec m.disk.live old)
    (hsealed : codec.sealState (old.withWallet wallet) store.password store.aad draws.sealing =
      .ok bytes)
    (hsize : bytes.length ≤ maxStateFileSize) :
    store.save codec wallet draws interruption m =
      FileM.replaceFile (.temporary .state draws.suffix) .state bytes interruption m := by
  unfold save
  rw [FileM.bind_done (FileM.of_eq_done.2 ⟨hversion, rfl⟩),
    FileM.bind_done (loadNative_eq_done.2 ⟨hold, rfl⟩)]
  exact writeNative_eq hdirectory hsealed hsize

/-- A save that is carried out sealed a state of admissible size and had an unused name for the
temporary file. -/
theorem write_of_completes {calls : Nat} {u : Unit}
    (hdirectory : d.live .directory = some (.directory false))
    (h : store.writeNative codec new draws none ⟨locked d, calls⟩ = .done u m) :
    ∃ bytes, codec.sealState new store.password store.aad draws.sealing = .ok bytes ∧
      bytes.length ≤ maxStateFileSize ∧ d.live (.temporary .state draws.suffix) = none := by
  obtain ⟨bytes, hsealed, hsize, hreplace⟩ :=
    (writeNative_eq_done ((locked_live d (by decide)).trans hdirectory)).1 h
  obtain ⟨htemporary, -, -⟩ := (FileM.replaceFile_eq_done (temporary_ne _ _)).1 hreplace
  exact ⟨bytes, hsealed, hsize, (locked_live d (by simp)).symm.trans htemporary⟩

end Saving

end WalletStore

/-! ## The operations -/

variable (P) in
/-- The operations of the store; a save opens it first. -/
inductive StoreOperation
  | initializeStore (config : Config) (draws : InitializeDraws P)
  | save (wallet : WalletState P) (draws : WriteDraws)
  | saveNative (state : NativeWalletState P) (draws : WriteDraws)

namespace StoreOperation

open WalletStore

variable (codec : StoreCodec P) (directory password : String)

def run : StoreOperation P → FileM WalletPath Unit
  | initializeStore config draws =>
    WalletStore.initializeStore codec directory config password draws
  | save wallet draws => openStore codec directory password >>= fun store =>
    store.save codec wallet draws
  | saveNative state draws => openStore codec directory password >>= fun store =>
    store.saveNative codec state draws

/-- The operation can be carried out: it is, if nothing interrupts it; there is a wallet to save
in, and an initialization could be repeated with other temporary files. -/
def Ready (op : StoreOperation P) (d : Disk WalletPath) : Prop :=
  (∃ m, op.run codec directory password none ⟨d, 0⟩ = .done () m) ∧
  match op with
  | initializeStore config draws => ∃ retry : InitializeDraws P,
      CanInitialize codec directory config password retry d ∧
      (∀ suffix, suffix = retry.write.suffix ∨ suffix = retry.configSuffix →
        suffix ≠ draws.write.suffix ∧ suffix ≠ draws.configSuffix)
  | _ => ∃ store state, Found codec directory password d store state

/-- The directory after the operation was interrupted. -/
def interrupted (op : StoreOperation P) (i : Interruption WalletPath) (d : Disk WalletPath) :
    Disk WalletPath :=
  (op.run codec directory password (some i) ⟨d, 0⟩).disk.settle i

/-- The directory `d'` is usable after the operation was interrupted in `d`: as before it, or as
after it. -/
def Usable (op : StoreOperation P) (d d' : Disk WalletPath) : Prop :=
  match op with
  | initializeStore config _ =>
    (∃ draws, CanInitialize codec directory config password draws d') ∨
      ∃ store state, Found codec directory password d' store state
  | save wallet _ => ∃ store old, Found codec directory password d store old ∧
      (Found codec directory password d' store old ∨
        Found codec directory password d' store (old.withWallet wallet))
  | saveNative state _ => ∃ store old, Found codec directory password d store old ∧
      (Found codec directory password d' store old ∨ Found codec directory password d' store state)

/-- The interruption of an initialization does not come between its two files, and what a save puts
in place can be loaded. -/
def Spared (op : StoreOperation P) (d : Disk WalletPath) (i : Interruption WalletPath) : Prop :=
  match op with
  | initializeStore _ _ =>
    i.InPlace (firstCall d) .state → i.InPlace (firstCall d + 5) .config
  | save wallet _ => i.InPlace 1 .state → ∀ store old, Found codec directory password d store old →
      (old.withWallet wallet).Loadable store.config.network
  | saveNative state _ => i.InPlace 1 .state → state.KeysValid

variable {codec directory password} {d : Disk WalletPath} {i : Interruption WalletPath}

theorem initializeStore_usable_iff (hcodec : codec.RoundTrip) (hquiet : Quiet d) {config : Config}
    {draws : InitializeDraws P}
    (hready : (initializeStore config draws).Ready codec directory password d) :
    (initializeStore config draws).Usable codec directory password d
        ((initializeStore config draws).interrupted codec directory password i d) ↔
      (initializeStore config draws).Spared codec directory password d i := by
  obtain ⟨hcan, retry, hretry, hapart⟩ := hready
  obtain ⟨bytes, h⟩ := canInitialize_iff.1 hcan
  obtain ⟨bytes', h'⟩ := canInitialize_iff.1 hretry
  obtain ⟨d', hd'⟩ : ∃ d',
    d' = (initializeStore config draws).interrupted codec directory password i d := ⟨_, rfl⟩
  have hleaves : Leaves draws bytes (codec.configToVecPretty config ++ [10]) d i d'.live := by
    rw [hd']
    exact leaves_initializeStore hquiet h i
  rw [← hd']
  have hinPlace : i.InPlace (firstCall d + 5) .config → i.InPlace (firstCall d) .state := by
    rintro (hin | ⟨hin, -⟩) <;> exact Or.inl (by omega)
  constructor
  · rintro husable hstate
    by_contra hconfig
    have hlive := hleaves.config_kept hconfig
    rcases husable with ⟨draws', hcan'⟩ | ⟨store, state, hfound⟩
    · obtain ⟨_, hagain⟩ := canInitialize_iff.1 hcan'
      have hfree := hagain.state_free
      have hwritten := (hleaves.state_written hstate).2
      rw [hwritten] at hfree
      cases hfree
    · obtain ⟨synced, configBytes, hfile, -⟩ := (found_iff.1 hfound).1.config_file
      have hfree := h.config_free
      rw [← hlive, hfile] at hfree
      cases hfree
  · intro hspared
    by_cases hstate : i.InPlace (firstCall d) .state
    · refine Or.inr ⟨⟨directory, password, config, walletStateAad codec config⟩,
        initialState draws, found_iff.2 ⟨?_, ?_⟩⟩
      · obtain ⟨hdirectory, hfile⟩ := hleaves.state_written hstate
        exact
          { private_directory := hdirectory
            lockable := hleaves.lockable
            state_file := ⟨_, _, hfile⟩
            config_file := ⟨_, _, hleaves.config_written (hspared hstate), h.config_size,
              hcodec.config config, h.version⟩
            store_eq := rfl }
      · exact (stateAt_of_written hcodec h.sealed h.state_size (hleaves.state_written hstate).2).2
          ⟨rfl, ⟨by rintro _ ⟨⟩, fun _ hpending => by cases hpending⟩,
            initialState_validate config.network⟩
    · have hconfig : ¬ i.InPlace (firstCall d + 5) .config := fun hin => hstate (hinPlace hin)
      obtain ⟨hne, hne'⟩ := hapart _ (Or.inl rfl)
      obtain ⟨hne₂, hne₂'⟩ := hapart _ (Or.inr rfl)
      refine Or.inl ⟨retry, canInitialize_iff.2 ⟨bytes', ?_⟩⟩
      refine
        { version := h'.version
          directory_free := hleaves.directory_free
          lockable := hleaves.lockable
          config_free := ?_
          state_free := ?_
          sealed := h'.sealed
          state_size := h'.state_size
          config_size := h'.config_size
          state_temporary := (hleaves.temporary_kept _ _ hne hne').trans h'.state_temporary
          config_temporary := (hleaves.temporary_kept _ _ hne₂ hne₂').trans h'.config_temporary }
      · exact (congrArg pathExists (hleaves.config_kept hconfig)).trans h.config_free
      · exact (congrArg pathExists (hleaves.state_kept hstate)).trans h.state_free

theorem save_usable_iff (hcodec : codec.RoundTrip) (hquiet : Quiet d) {wallet : WalletState P}
    {draws : WriteDraws} (hready : (save wallet draws).Ready codec directory password d) :
    (save wallet draws).Usable codec directory password d
        ((save wallet draws).interrupted codec directory password i d) ↔
      (save wallet draws).Spared codec directory password d i := by
  obtain ⟨⟨m, hrun⟩, store, old, hfound⟩ := hready
  obtain ⟨hopened, hold⟩ := found_iff.1 hfound
  -- there is one store and one old state
  have hunique : ∀ store' old', Found codec directory password d store' old' →
      store' = store ∧ old' = old := by
    rintro store' old' ⟨_, _, hopen', hload'⟩
    obtain ⟨_, _, hopen, hload⟩ := hfound
    cases hopen.symm.trans hopen'
    cases hload.symm.trans hload'
    exact ⟨rfl, rfl⟩
  have hold' : store.StateAt codec (locked d).live old := by
    simpa only [StateAt, locked_live d (show WalletPath.state ≠ .lock by decide)] using hold
  have hdirectory : (locked d).live .directory = some (.directory false) :=
    (locked_live d (by decide)).trans hopened.private_directory
  obtain ⟨bytes, hsealed, hsize, hnew, hversion⟩ : ∃ bytes,
      codec.sealState (old.withWallet wallet) store.password store.aad draws.sealing = .ok bytes ∧
      bytes.length ≤ maxStateFileSize ∧ d.live (.temporary .state draws.suffix) = none ∧
      wallet.validateVersion = .ok () := by
    obtain ⟨store', m', hopen', hsave⟩ := FileM.bind_eq_done.1 hrun
    cases (openStore_done hopened (by simp)).symm.trans hopen'
    obtain ⟨_, _, hcheck, hrest⟩ := FileM.bind_eq_done.1 hsave
    obtain ⟨hversion, rfl⟩ := FileM.of_eq_done.1 hcheck
    obtain ⟨_, _, hload, hwrite⟩ := FileM.bind_eq_done.1 hrest
    cases (loadNative_eq_done.2 ⟨hold', rfl⟩).symm.trans hload
    obtain ⟨bytes, hsealed, hsize, hnew⟩ := write_of_completes hopened.private_directory hwrite
    exact ⟨bytes, hsealed, hsize, hnew, hversion⟩
  obtain ⟨d', hd', hin, hout⟩ := found_of_interrupted_write
    (fun store => store.save codec wallet draws) hcodec hquiet hopened hold hsealed hsize
    hnew i fun interruption calls => save_eq hdirectory hversion hold' hsealed hsize
  rw [show (save wallet draws).interrupted codec directory password i d = d' from hd'.symm]
  constructor
  · rintro ⟨store₁, old₁, hfound₁, husable⟩ hplace store₂ old₂ hfound₂
    obtain ⟨rfl, rfl⟩ := hunique store₁ old₁ hfound₁
    obtain ⟨rfl, rfl⟩ := hunique store₂ old₂ hfound₂
    rcases husable with husable | husable
    · exact ((hin hplace _).1 husable).2
    · exact ((hin hplace _).1 husable).2
  · intro hspared
    refine ⟨store, old, hfound, ?_⟩
    by_cases hplace : i.InPlace 1 .state
    · exact Or.inr ((hin hplace _).2 ⟨rfl, hspared hplace store old hfound⟩)
    · exact Or.inl (hout hplace)

theorem saveNative_usable_iff (hcodec : codec.RoundTrip) (hquiet : Quiet d)
    {state : NativeWalletState P} {draws : WriteDraws}
    (hready : (saveNative state draws).Ready codec directory password d) :
    (saveNative state draws).Usable codec directory password d
        ((saveNative state draws).interrupted codec directory password i d) ↔
      (saveNative state draws).Spared codec directory password d i := by
  obtain ⟨⟨m, hrun⟩, store, old, hfound⟩ := hready
  obtain ⟨hopened, hold⟩ := found_iff.1 hfound
  have hdirectory : (locked d).live .directory = some (.directory false) :=
    (locked_live d (by decide)).trans hopened.private_directory
  obtain ⟨bytes, hsealed, hsize, hnew, hvalid⟩ : ∃ bytes,
      codec.sealState state store.password store.aad draws.sealing = .ok bytes ∧
      bytes.length ≤ maxStateFileSize ∧ d.live (.temporary .state draws.suffix) = none ∧
      state.validate store.config.network = .ok () := by
    obtain ⟨store', m', hopen', hsave⟩ := FileM.bind_eq_done.1 hrun
    cases (openStore_done hopened (by simp)).symm.trans hopen'
    obtain ⟨_, _, hcheck, hwrite⟩ := FileM.bind_eq_done.1 hsave
    obtain ⟨hvalid, rfl⟩ := FileM.of_eq_done.1 hcheck
    obtain ⟨bytes, hsealed, hsize, hnew⟩ := write_of_completes hopened.private_directory hwrite
    exact ⟨bytes, hsealed, hsize, hnew, hvalid⟩
  obtain ⟨d', hd', hin, hout⟩ := found_of_interrupted_write
    (fun store => store.saveNative codec state draws) hcodec hquiet hopened hold hsealed
    hsize hnew i fun interruption calls => saveNative_eq hdirectory hvalid hsealed hsize
  rw [show (saveNative state draws).interrupted codec directory password i d = d' from hd'.symm]
  constructor
  · rintro ⟨store₁, old₁, hfound₁, husable⟩ hplace
    obtain ⟨_, _, hopen₁, -⟩ := hfound₁
    obtain ⟨_, _, hopen, -⟩ := hfound
    cases hopen.symm.trans hopen₁
    rcases husable with husable | husable
    · exact ((hin hplace _).1 husable).2.keys
    · exact ((hin hplace _).1 husable).2.keys
  · intro hspared
    refine ⟨store, old, hfound, ?_⟩
    by_cases hplace : i.InPlace 1 .state
    · exact Or.inr ((hin hplace _).2 ⟨rfl, hspared hplace, hvalid⟩)
    · exact Or.inl (hout hplace)

/-- After an interruption of any operation of the store the directory is usable exactly if the
interruption did not come between the two files of an initialization, and what a save had put in
place can be loaded. -/
theorem interrupted_usable_iff (hcodec : codec.RoundTrip) (op : StoreOperation P)
    (d : Disk WalletPath) (hquiet : Quiet d) (hready : op.Ready codec directory password d)
    (i : Interruption WalletPath) :
    op.Usable codec directory password d (op.interrupted codec directory password i d) ↔
      op.Spared codec directory password d i := by
  cases op with
  | initializeStore config draws => exact initializeStore_usable_iff hcodec hquiet hready
  | save wallet draws => exact save_usable_iff hcodec hquiet hready
  | saveNative state draws => exact saveNative_usable_iff hcodec hquiet hready

end StoreOperation

/-! ## An initialization that is cut short -/

section Fresh

open Symbolic WalletStore StoreOperation

def stringWord (s : String) : List UInt8 := bytesWord (Json.utf8 s)

def enclaveWord : EnclaveConfig → List UInt8
  | .production url pcr0 pcr1 pcr2 => 0 :: listWord stringWord [url, pcr0, pcr1, pcr2]
  | .debug url pcr0 pcr1 pcr2 => 1 :: listWord stringWord [url, pcr0, pcr1, pcr2]
  | .unsafePlaintext url => 2 :: listWord stringWord [url]

def chainWord : ChainConfig → List UInt8
  | .explorer url => 0 :: listWord stringWord [url]
  | .coreRpc rpcUrl cookieFile walletName => 1 :: listWord stringWord [rpcUrl, cookieFile, walletName]

def configWord (config : Config) : List UInt8 :=
  listWord PrefixCode.nat [config.formatVersion, config.protocolVersion, config.minConfirmations,
    config.minReactionBlocks] ++ ([networkByte config.network] ++
    (enclaveWord config.enclave ++ chainWord config.chain))

theorem stringWord_prefixCode : PrefixCode (fun _ => True) stringWord :=
  bytesWord_prefixCode.comap Json.utf8_injective

theorem taggedWord_prefixCode :
    PrefixCode (fun _ => True) fun p : UInt8 × List String => p.1 :: listWord stringWord p.2 :=
  pairCode PrefixCode.symbol (listWord_prefixCode stringWord_prefixCode)

theorem configWord_injective : Function.Injective configWord := by
  have henclave : PrefixCode (fun _ => True) enclaveWord := by
    rintro (_ | _ | _) (_ | _ | _) x y _ _ h <;>
      obtain ⟨h, hxy⟩ := taggedWord_prefixCode (_, _) (_, _) x y trivial trivial h <;>
      simp_all
  have hchain : PrefixCode (fun _ => True) chainWord := by
    rintro (_ | _) (_ | _) x y _ _ h <;>
      obtain ⟨h, hxy⟩ := taggedWord_prefixCode (_, _) (_, _) x y trivial trivial h <;>
      simp_all
  have hnetwork : PrefixCode (fun _ => True) fun network => [networkByte network] :=
    PrefixCode.symbol.comap (by
      rintro (_ | _ | _) (_ | _ | _) h <;> first | rfl | exact absurd h (by decide))
  have hword := (pairCode (listWord_prefixCode PrefixCode.nat_prefixCode) (pairCode hnetwork
    (pairCode henclave hchain))).injective trivial
  rintro ⟨format, version, network, enclave, chain, confirmations, blocks⟩
    ⟨format', version', network', enclave', chain', confirmations', blocks'⟩ h
  have hpair := @hword ([format, version, confirmations, blocks], network, enclave, chain)
    ([format', version', confirmations', blocks'], network', enclave', chain') h
  simp_all

def freshConfig : Config where
  formatVersion := fileFormatVersion
  protocolVersion := Tinylayer.protocolVersion
  network := .regtest
  enclave := .unsafePlaintext "http://127.0.0.1:8080"
  chain := .explorer "http://127.0.0.1:3002"
  minConfirmations := 1
  minReactionBlocks := 20

def freshDraws (b : UInt8) : InitializeDraws platform where
  fundingSecret := bytes 7
  write := ⟨⟨List.Vector.replicate 16 b, List.Vector.replicate 24 b⟩, List.Vector.replicate 8 b⟩
  configSuffix := List.Vector.replicate 8 b

/-- A codec that seals only the state of a fresh wallet. -/
noncomputable def freshCodec : StoreCodec platform where
  configToVec := configWord
  configToVecPretty := configWord
  configFromSlice := Function.partialInv fun config => configWord config ++ [10]
  sealState := fun state _ aad draws =>
    if state = initialState (freshDraws 0) then
      .ok (draws.salt.toList ++ draws.nonce.toList ++ aad)
    else .error "failed to encrypt wallet state"
  openState := fun bytes _ aad =>
    if bytes.drop 40 = aad then .ok (initialState (freshDraws 0))
    else .error "wallet password is incorrect or state is corrupted"

theorem freshCodec_roundTrip : freshCodec.RoundTrip where
  config config := Function.partialInv_left
    (fun a b h => configWord_injective (List.append_cancel_right h)) config
  state state password aad draws bytes h state' := by
    simp only [freshCodec] at h ⊢
    split at h
    · rename_i hstate
      cases h
      have hkeys : (initialState (freshDraws 0)).KeysValid :=
        ⟨by rintro _ ⟨⟩, fun _ hpending => by cases hpending⟩
      have hdrop : (draws.salt.toList ++ draws.nonce.toList ++ aad).drop 40 = aad := by
        rw [List.drop_append_of_le_length (by simp)]
        simp
      rw [hdrop, if_pos rfl, hstate]
      simp [hkeys, eq_comm]
    · cases h

/-- A directory that does not exist yet. -/
def emptyDisk : Disk WalletPath := ⟨fun _ => none, fun _ => none⟩

theorem quiet_emptyDisk : Quiet emptyDisk where
  settled _ _ := ⟨rfl, by rintro _ ⟨⟩⟩
  lock_live _ h := by cases h
  lock_durable _ h := by cases h

theorem ready_fresh : (initializeStore freshConfig (freshDraws 0)).Ready freshCodec "alice" "password"
    emptyDisk := by
  have hlength : (walletStateAad freshCodec freshConfig).length ≤ 1000 := by decide +kernel
  have hcan : ∀ b, CanInitialize freshCodec "alice" freshConfig "password" (freshDraws b) emptyDisk := by
    intro b
    refine canInitialize_iff.2 ⟨(freshDraws b).write.sealing.salt.toList ++
      (freshDraws b).write.sealing.nonce.toList ++ walletStateAad freshCodec freshConfig, ?_⟩
    exact
      { version := rfl
        directory_free := Or.inl rfl
        lockable := fun _ h => by cases h
        config_free := rfl
        state_free := rfl
        sealed := by
          have hstate : initialState (freshDraws b) = initialState (freshDraws 0) := rfl
          simp only [freshCodec, if_pos hstate]
        state_size := by
          simp only [List.length_append, List.Vector.toList_length]
          simp only [maxStateFileSize]
          omega
        config_size := by decide +kernel
        state_temporary := rfl
        config_temporary := rfl }
  refine ⟨hcan 0, freshDraws 1, hcan 1, ?_⟩
  rintro _ (rfl | rfl) <;> decide

/-- A crash after the state was written and before the configuration is. -/
def betweenFiles : Interruption WalletPath := ⟨7, false, some fun _ => true, fun _ => []⟩

/-- The directory of an initialization that was cut short can neither be initialized again nor be
opened. -/
theorem initializeStore_betweenFiles :
    Quiet emptyDisk ∧
    (initializeStore freshConfig (freshDraws 0)).Ready freshCodec "alice" "password" emptyDisk ∧
    ¬ (initializeStore freshConfig (freshDraws 0)).Usable freshCodec "alice" "password" emptyDisk
      ((initializeStore freshConfig (freshDraws 0)).interrupted freshCodec "alice" "password"
        betweenFiles emptyDisk) := by
  refine ⟨quiet_emptyDisk, ready_fresh, fun husable => ?_⟩
  have hspared := (initializeStore_usable_iff freshCodec_roundTrip quiet_emptyDisk ready_fresh).1
    husable (Or.inl (by decide))
  rcases hspared with hin | ⟨hin, -⟩
  · exact absurd hin (by decide)
  · exact absurd hin (by decide)

theorem interrupted_usable_iff_fresh :
    (initializeStore freshConfig (freshDraws 0)).Usable freshCodec "alice" "password" emptyDisk
      ((initializeStore freshConfig (freshDraws 0)).interrupted freshCodec "alice" "password"
        { betweenFiles with after := 4 } emptyDisk) :=
  (interrupted_usable_iff freshCodec_roundTrip (initializeStore freshConfig (freshDraws 0)) emptyDisk
    quiet_emptyDisk ready_fresh { betweenFiles with after := 4 }).2 fun hin => by
      rcases hin with hin | ⟨hin, -⟩
      · exact absurd hin (by decide)
      · exact absurd hin (by decide)

end Fresh

end Tinylayer
