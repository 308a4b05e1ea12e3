import Tinylayer.Native.Proofs.StoreProofs

/-!
# Proofs: initialization

Which directories can be initialized, and what an interruption leaves of one that is being
initialized.
-/

namespace Tinylayer

open Storage

variable {P : Platform}

namespace WalletStore

variable {codec : StoreCodec P} {directory : String} {config : Config} {password : String}
  {draws : InitializeDraws P}

/-- The state that is saved first. -/
def initialState (draws : InitializeDraws P) : NativeWalletState P := .new draws.fundingSecret .empty

theorem initialState_validate (network : NetworkId) :
    (initialState draws).validate network = .ok () := rfl

/-- A directory in which a wallet can be made: the checks pass, the files fit, and the names of the
temporary files are not in use. -/
structure Initializable (codec : StoreCodec P) (config : Config) (password : String)
    (draws : InitializeDraws P) (bytes : List UInt8) (live : WalletPath → Option Node) : Prop where
  version : config.validateVersion = .ok ()
  directory_free : DirectoryFree (live .directory)
  lockable : Lockable (live .lock)
  config_free : pathExists (live .config) = false
  state_free : pathExists (live .state) = false
  sealed : codec.sealState (initialState draws) password (walletStateAad codec config)
    draws.write.sealing = .ok bytes
  state_size : bytes.length ≤ maxStateFileSize
  config_size : (codec.configToVecPretty config ++ [10]).length ≤ maxFileSize
  state_temporary : live (.temporary .state draws.write.suffix) = none
  config_temporary : live (.temporary .config draws.configSuffix) = none

/-- The first call that writes the state. -/
def firstCall (d : Disk WalletPath) : Nat := makingCalls d + 1

/-- The directory when the state is written, and when the configuration is written. -/
def atState (d : Disk WalletPath) : Disk WalletPath := locked (made d)

def atConfig (draws : InitializeDraws P) (bytes : List UInt8) (d : Disk WalletPath) :
    Disk WalletPath :=
  (atState d).replaced (.temporary .state draws.write.suffix) .state bytes

theorem notDirectory_of_free {node : Option Node} (h : pathExists node = false) (shared : Bool) :
    node ≠ some (.directory shared) := by
  rintro rfl
  cases h

theorem atState_live {d : Disk WalletPath} {path : WalletPath} (hlock : path ≠ .lock)
    (hdirectory : path ≠ .directory) : (atState d).live path = d.live path := by
  rw [atState, locked_live _ hlock, made_live _ hdirectory]

theorem atState_directory {d : Disk WalletPath} (h : DirectoryFree (d.live .directory)) :
    (atState d).live .directory = some (.directory false) := by
  rw [atState, locked_live _ (by decide), made_directory h]

theorem atConfig_live {bytes : List UInt8} {d : Disk WalletPath} {path : WalletPath}
    (htemporary : path ≠ .temporary .state draws.write.suffix) (hstate : path ≠ .state) :
    (atConfig draws bytes d).live path = (atState d).live path := by
  simp [atConfig, Disk.replaced, htemporary, hstate]

/-- What comes before the state is written. -/
theorem initializeStore_eq {bytes : List UInt8} {d : Disk WalletPath}
    {interruption : Option (Interruption WalletPath)}
    (h : Initializable codec config password draws bytes d.live)
    (hcut : ∀ i ∈ interruption, firstCall d ≤ i.after) :
    initializeStore codec directory config password draws interruption ⟨d, 0⟩ =
      (do
        FileM.replaceFile (.temporary .state draws.write.suffix) .state bytes
        writeConfigAtomic codec directory config draws.configSuffix : FileM WalletPath Unit)
        interruption ⟨atState d, firstCall d⟩ := by
  have hmade : ensureSecureDirectory directory interruption ⟨d, 0⟩ =
      .done () ⟨made d, 0 + makingCalls d⟩ :=
    ensureSecureDirectory_done h.directory_free fun i hi => by
      have := hcut i hi
      unfold firstCall at this
      omega
  have hlock : openLock interruption ⟨made d, 0 + makingCalls d⟩ =
      .done () ⟨atState d, 0 + makingCalls d + 1⟩ := by
    refine openLock_done ?_ fun i hi => ?_
    · rw [made_live d (by decide)]
      exact h.lockable
    · have := hcut i hi
      unfold firstCall at this
      omega
  have hfree : ensure (pathExists ((atState d).live .config) = false ∧
      pathExists ((atState d).live .state) = false)
      s!"wallet is already initialized at {directory}" = .ok () := by
    rw [atState_live (by decide) (by decide), atState_live (by decide) (by decide)]
    exact Except.ensure_eq_ok.2 ⟨h.config_free, h.state_free⟩
  have hsave : saveNative codec ⟨directory, password, config, walletStateAad codec config⟩
      (initialState draws) draws.write interruption ⟨atState d, firstCall d⟩ =
      FileM.replaceFile (.temporary .state draws.write.suffix) .state bytes interruption
        ⟨atState d, firstCall d⟩ := by
    unfold saveNative
    rw [FileM.bind_done (FileM.of_eq_done.2 ⟨initialState_validate config.network, rfl⟩)]
    exact writeNative_eq (atState_directory h.directory_free) h.sealed h.state_size
  have hcalls : 0 + makingCalls d + 1 = firstCall d := by rw [firstCall, Nat.zero_add]
  rw [hcalls] at hlock
  unfold initializeStore
  rw [FileM.bind_done (FileM.of_eq_done.2 ⟨h.version, rfl⟩), FileM.bind_done hmade,
    FileM.bind_done hlock, FileM.bind_done (view_done _ _ _),
    FileM.bind_done (FileM.of_eq_done.2 ⟨hfree, rfl⟩)]
  exact FileM.bind_congr hsave

/-- A wallet can be made in a directory. -/
def CanInitialize (codec : StoreCodec P) (directory : String) (config : Config) (password : String)
    (draws : InitializeDraws P) (d : Disk WalletPath) : Prop :=
  ∃ m, initializeStore codec directory config password draws none ⟨d, 0⟩ = .done () m

theorem canInitialize_iff {d : Disk WalletPath} :
    CanInitialize codec directory config password draws d ↔
      ∃ bytes, Initializable codec config password draws bytes d.live := by
  constructor
  · rintro ⟨m, h⟩
    simp only [initializeStore, FileM.bind_eq_done, FileM.of_eq_done, openLock_eq_done,
      FileM.view_eq_done, ensureSecureDirectory_eq_done, Except.ensure_eq_ok, saveNative] at h
    obtain ⟨_, _, ⟨hversion, rfl⟩, _, _, ⟨hfree, rfl⟩, _, _, ⟨hlock, rfl⟩, _, _, ⟨rfl, rfl⟩, _, _,
      ⟨⟨hconfig, hstate⟩, rfl⟩, _, _, ⟨_, _, ⟨_, rfl⟩, hwrite⟩, hrest⟩ := h
    rw [made_live d (by decide)] at hlock
    have hdirectory := atState_directory hfree
    obtain ⟨bytes, hsealed, hsize, hreplace⟩ := (writeNative_eq_done hdirectory).1 hwrite
    obtain ⟨htemporary, -, rfl⟩ := (FileM.replaceFile_eq_done (temporary_ne _ _)).1 hreplace
    simp only [writeConfigAtomic, FileM.bind_eq_done, FileM.of_eq_done, Except.ensure_eq_ok] at hrest
    obtain ⟨_, _, ⟨hconfigSize, rfl⟩, hrest⟩ := hrest
    have hdirectory' : (atConfig draws bytes d).live .directory = some (.directory false) :=
      (atConfig_live (by simp) (by decide)).trans hdirectory
    have hreplace' := (writeBytesAtomicInner_eq hdirectory').symm.trans hrest
    obtain ⟨htemporary', -, -⟩ := (FileM.replaceFile_eq_done (temporary_ne _ _)).1 hreplace'
    have hnew : (atConfig draws bytes d).live (.temporary .config draws.configSuffix) = none :=
      htemporary'
    refine ⟨bytes, ?_⟩
    refine
      { version := hversion
        directory_free := hfree
        lockable := hlock
        config_free := ?_
        state_free := ?_
        sealed := hsealed
        state_size := hsize
        config_size := hconfigSize
        state_temporary := ?_
        config_temporary := ?_ }
    · rwa [← atState_live (by decide) (by decide)]
    · rwa [← atState_live (by decide) (by decide)]
    · exact (atState_live (by simp) (by simp)).symm.trans htemporary
    · rwa [atConfig_live (by simp) (by simp), atState_live (by simp) (by simp)] at hnew
  · rintro ⟨bytes, h⟩
    have hdirectory := atState_directory h.directory_free
    refine ⟨⟨(atConfig draws bytes d).replaced (.temporary .config draws.configSuffix) .config
      (codec.configToVecPretty config ++ [10]), firstCall d + 5 + 5⟩, ?_⟩
    rw [initializeStore_eq h (by simp)]
    refine FileM.bind_eq_done.2 ⟨(), ⟨atConfig draws bytes d, firstCall d + 5⟩, ?_, ?_⟩
    · refine (FileM.replaceFile_eq_done (temporary_ne _ _)).2 ⟨?_, ?_, rfl⟩
      · rw [atState_live (by simp) (by simp)]
        exact h.state_temporary
      · rw [atState_live (by decide) (by decide)]
        exact notDirectory_of_free h.state_free
    · rw [writeConfigAtomic_eq ((atConfig_live (by simp) (by decide)).trans hdirectory)
        h.config_size]
      refine (FileM.replaceFile_eq_done (temporary_ne _ _)).2 ⟨?_, ?_, rfl⟩
      · rw [atConfig_live (by simp) (by simp), atState_live (by simp) (by simp)]
        exact h.config_temporary
      · rw [atConfig_live (by simp) (by simp), atState_live (by decide) (by decide)]
        exact notDirectory_of_free h.config_free

/-- What an interrupted initialization leaves. -/
structure Leaves (draws : InitializeDraws P) (stateBytes configBytes : List UInt8)
    (d : Disk WalletPath) (i : Interruption WalletPath) (live : WalletPath → Option Node) :
    Prop where
  directory_free : DirectoryFree (live .directory)
  lockable : Lockable (live .lock)
  state_written : i.InPlace (firstCall d) .state →
    live .directory = some (.directory false) ∧ live .state = some (.file false true stateBytes)
  state_kept : ¬ i.InPlace (firstCall d) .state → live .state = d.live .state
  config_written : i.InPlace (firstCall d + 5) .config →
    live .config = some (.file false true configBytes)
  config_kept : ¬ i.InPlace (firstCall d + 5) .config → live .config = d.live .config
  temporary_kept : ∀ path suffix, suffix ≠ draws.write.suffix → suffix ≠ draws.configSuffix →
    live (.temporary path suffix) = d.live (.temporary path suffix)

section Leaves

variable {bytes : List UInt8} {d : Disk WalletPath} (hquiet : Quiet d)
  (h : Initializable codec config password draws bytes d.live) (i : Interruption WalletPath)

section Facts
include h

theorem Initializable.state_live : (atState d).live .state = d.live .state ∧
    ∀ shared, (atState d).live .state ≠ some (.directory shared) := by
  have hlive : (atState d).live .state = d.live .state := atState_live (by decide) (by decide)
  exact ⟨hlive, by rw [hlive]; exact notDirectory_of_free h.state_free⟩

theorem Initializable.config_live : (atConfig draws bytes d).live .config = d.live .config ∧
    ∀ shared, (atConfig draws bytes d).live .config ≠ some (.directory shared) := by
  have hlive : (atConfig draws bytes d).live .config = d.live .config :=
    (atConfig_live (by simp) (by decide)).trans (atState_live (by decide) (by decide))
  exact ⟨hlive, by rw [hlive]; exact notDirectory_of_free h.config_free⟩

theorem Initializable.temporary_new :
    (atState d).live (.temporary .state draws.write.suffix) = none ∧
      (atConfig draws bytes d).live (.temporary .config draws.configSuffix) = none :=
  ⟨(atState_live (by simp) (by simp)).trans h.state_temporary,
    ((atConfig_live (by simp) (by simp)).trans (atState_live (by simp) (by simp))).trans
      h.config_temporary⟩

theorem Initializable.atConfig_directory :
    (atConfig draws bytes d).live .directory = some (.directory false) :=
  (atConfig_live (by simp) (by decide)).trans (atState_directory h.directory_free)

end Facts

/-- Nothing was written when the interruption comes before the state is written. -/
theorem leaves_of_before {d' : Disk WalletPath} (hd' : Quiet d') (hcut : i.after < firstCall d)
    (hdirectory : DirectoryFree (d'.live .directory))
    (hlive : ∀ path ≠ .directory, d'.live path = d.live path) (configBytes : List UInt8) :
    Leaves draws bytes configBytes d i (d'.settle i).live := by
  have hstate : ¬ i.InPlace (firstCall d) .state := by
    rintro (hin | ⟨hin, -⟩) <;> omega
  have hconfig : ¬ i.InPlace (firstCall d + 5) .config := by
    rintro (hin | ⟨hin, -⟩) <;> omega
  refine
    { directory_free := ?_
      lockable := lockable_settle hd'.lock_live hd'.lock_durable i
      state_written := fun hin => absurd hin hstate
      state_kept := fun _ => ?_
      config_written := fun hin => absurd hin hconfig
      config_kept := fun _ => ?_
      temporary_kept := fun path suffix _ _ => ?_ }
  · rw [hd'.settle_live i (by decide)]
    exact hdirectory
  · rw [hd'.settle_live i (by decide), hlive _ (by decide)]
  · rw [hd'.settle_live i (by decide), hlive _ (by decide)]
  · rw [hd'.settle_live i (by simp), hlive _ (by simp)]

include hquiet h

theorem leaves_before (hcut : i.after < firstCall d) :
    Leaves draws bytes (codec.configToVecPretty config ++ [10]) d i
      ((initializeStore codec directory config password draws (some i) ⟨d, 0⟩).disk.settle i).live := by
  rcases Nat.lt_or_ge i.after (makingCalls d) with hmaking | hmaking
  · have hstopped : ensureSecureDirectory directory (some i) ⟨d, 0⟩ = .stopped d :=
      ensureSecureDirectory_stopped h.directory_free ⟨Nat.zero_le i.after, by omega⟩
    have hrun : initializeStore codec directory config password draws (some i) ⟨d, 0⟩ =
        .stopped d := by
      unfold initializeStore
      rw [FileM.bind_done (FileM.of_eq_done.2 ⟨h.version, rfl⟩), FileM.bind_stopped hstopped]
    rw [hrun]
    exact leaves_of_before i hquiet hcut h.directory_free (fun _ _ => rfl) _
  · have hafter : i.after = 0 + makingCalls d := by
      unfold firstCall at hcut
      omega
    have hdone : ensureSecureDirectory directory (some i) ⟨d, 0⟩ =
        .done () ⟨made d, 0 + makingCalls d⟩ :=
      ensureSecureDirectory_done h.directory_free fun i' hi' => by
        obtain rfl := Option.some.inj hi'
        exact Or.inr (by omega)
    have hstopped : openLock (some i) ⟨made d, 0 + makingCalls d⟩ = .stopped (made d) := by
      unfold openLock FileM.openFile
      exact FileM.call_stopped hafter
    have hrun : initializeStore codec directory config password draws (some i) ⟨d, 0⟩ =
        .stopped (made d) := by
      unfold initializeStore
      rw [FileM.bind_done (FileM.of_eq_done.2 ⟨h.version, rfl⟩), FileM.bind_done hdone,
        FileM.bind_stopped hstopped]
    rw [hrun]
    exact leaves_of_before i (hquiet.made h.directory_free) hcut
      (Or.inr (made_directory h.directory_free)) (fun _ hpath => made_live d hpath) _

theorem leaves_state (hcut : firstCall d ≤ i.after) (hcut' : i.after < firstCall d + 5) :
    Leaves draws bytes (codec.configToVecPretty config ++ [10]) d i
      ((initializeStore codec directory config password draws (some i) ⟨d, 0⟩).disk.settle i).live := by
  have hatState : Quiet (atState d) := (hquiet.made h.directory_free).locked
  obtain ⟨hstate_live, hnode⟩ := h.state_live
  obtain ⟨d', hstopped, hlock, hother, hwritten, hkept⟩ := hatState.settle_replaceFile
    h.temporary_new.1 (by decide) hnode bytes (firstCall d) i ⟨hcut, hcut'⟩
  rw [initializeStore_eq h fun i' hi' => by
    obtain rfl := Option.some.inj hi'
    exact hcut]
  rw [FileM.bind_stopped hstopped]
  have hconfig : ¬ i.InPlace (firstCall d + 5) .config := by
    rintro (hin | ⟨hin, -⟩) <;> omega
  have hroot := (hother .directory (by decide) (by simp) (by decide)).trans
    (atState_directory h.directory_free)
  refine
    { directory_free := Or.inr hroot
      lockable := hlock
      state_written := fun hin => ⟨hroot, hwritten hin⟩
      state_kept := fun hout => (hkept hout).trans hstate_live
      config_written := fun hin => absurd hin hconfig
      config_kept := fun _ => ?_
      temporary_kept := fun path suffix hne _ => ?_ }
  · exact (hother .config (by decide) (by simp) (by decide)).trans
      (atState_live (by decide) (by decide))
  · exact (hother _ (by simp) (by simp [hne]) (by simp)).trans (atState_live (by simp) (by simp))

omit hquiet in
/-- The state was written when the interruption comes while the configuration is, or later. -/
theorem leaves_of_config {d' : Disk WalletPath} (hcut : firstCall d + 5 ≤ i.after)
    (hlock : Lockable ((d'.settle i).live .lock))
    (hother : ∀ path, path ≠ .lock → path ≠ .temporary .config draws.configSuffix →
      path ≠ .config → (d'.settle i).live path = (atConfig draws bytes d).live path)
    {configBytes : List UInt8}
    (hwritten : i.InPlace (firstCall d + 5) .config →
      (d'.settle i).live .config = some (.file false true configBytes))
    (hkept : ¬ i.InPlace (firstCall d + 5) .config →
      (d'.settle i).live .config = (atConfig draws bytes d).live .config) :
    Leaves draws bytes configBytes d i (d'.settle i).live := by
  have hroot := (hother .directory (by decide) (by simp) (by decide)).trans h.atConfig_directory
  have hstateFile : (atConfig draws bytes d).live .state = some (.file false true bytes) := by
    simp [atConfig, Disk.replaced]
  refine
    { directory_free := Or.inr hroot
      lockable := hlock
      state_written := fun _ => ⟨hroot, ?_⟩
      state_kept := fun hout => absurd (Or.inl hcut) hout
      config_written := hwritten
      config_kept := fun hout => (hkept hout).trans h.config_live.1
      temporary_kept := fun path suffix hne hne' => ?_ }
  · exact (hother .state (by decide) (by simp) (by decide)).trans hstateFile
  · exact ((hother _ (by simp) (by simp [hne']) (by simp)).trans
      (atConfig_live (by simp [hne]) (by simp))).trans (atState_live (by simp) (by simp))

theorem leaves_config (hcut : firstCall d + 5 ≤ i.after) :
    Leaves draws bytes (codec.configToVecPretty config ++ [10]) d i
      ((initializeStore codec directory config password draws (some i) ⟨d, 0⟩).disk.settle i).live := by
  have hatState : Quiet (atState d) := (hquiet.made h.directory_free).locked
  have hatConfig : Quiet (atConfig draws bytes d) := hatState.replaced (by simp) (by decide) bytes
  obtain ⟨htemporary, htemporary'⟩ := h.temporary_new
  have hreplaced : FileM.replaceFile (.temporary .state draws.write.suffix) .state bytes (some i)
      ⟨atState d, firstCall d⟩ = .done () ⟨atConfig draws bytes d, firstCall d + 5⟩ := by
    refine (FileM.replaceFile_calls bytes (temporary_ne _ _) htemporary h.state_live.2 _ _).1
      fun i' hi' => ?_
    obtain rfl := Option.some.inj hi'
    exact Or.inr hcut
  rw [initializeStore_eq h fun i' hi' => by
    obtain rfl := Option.some.inj hi'
    omega]
  rw [FileM.bind_done hreplaced, writeConfigAtomic_eq h.atConfig_directory h.config_size]
  rcases Nat.lt_or_ge i.after (firstCall d + 5 + 5) with hcut' | hcut'
  · obtain ⟨d', hstopped, hlock, hother, hwritten, hkept⟩ := hatConfig.settle_replaceFile
      htemporary' (by decide) h.config_live.2 (codec.configToVecPretty config ++ [10])
      (firstCall d + 5) i ⟨hcut, hcut'⟩
    rw [hstopped]
    exact leaves_of_config h i hcut hlock hother hwritten hkept
  · rw [(FileM.replaceFile_calls (codec.configToVecPretty config ++ [10]) (temporary_ne _ _)
      htemporary' h.config_live.2 _ _).1 fun i' hi' => by
        obtain rfl := Option.some.inj hi'
        exact Or.inr hcut']
    have hfinal : Quiet ((atConfig draws bytes d).replaced (.temporary .config draws.configSuffix)
        .config (codec.configToVecPretty config ++ [10])) :=
      hatConfig.replaced (by simp) (by decide) _
    refine leaves_of_config h i hcut (lockable_settle hfinal.lock_live hfinal.lock_durable i)
      (fun path hlock htemp hne => (hfinal.settle_live i hlock).trans ?_)
      (fun _ => (hfinal.settle_live i (by decide)).trans ?_)
      (fun hout => absurd (Or.inl hcut') hout)
    · simp [Disk.replaced, htemp, hne]
    · simp [Disk.replaced]

/-- Where an interruption leaves a directory that is being initialized. -/
theorem leaves_initializeStore :
    Leaves draws bytes (codec.configToVecPretty config ++ [10]) d i
      ((initializeStore codec directory config password draws (some i) ⟨d, 0⟩).disk.settle i).live := by
  rcases Nat.lt_or_ge i.after (firstCall d) with hcut | hcut
  · exact leaves_before hquiet h i hcut
  · rcases Nat.lt_or_ge i.after (firstCall d + 5) with hcut' | hcut'
    · exact leaves_state hquiet h i hcut hcut'
    · exact leaves_config hquiet h i hcut'

end Leaves

end WalletStore

end Tinylayer
