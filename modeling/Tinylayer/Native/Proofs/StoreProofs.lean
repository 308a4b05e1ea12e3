import Tinylayer.Native.Store

/-!
# Proofs: interruptions of the store

Which directories a store is opened from, which ones can be initialized, and where an interruption
leaves a directory in which the store is being written.
-/

namespace Tinylayer

open Storage

variable {P : Platform}

/-! ## Opening -/

theorem checkPrivate_directory {display : String} {node : Option Node} {u : Unit} :
    checkPrivate display node true = .ok u ↔ node = some (.directory false) := by
  rcases node with _ | (_ | shared | _) <;> simp [checkPrivate, Option.context]

theorem checkPrivate_file {display : String} {node : Option Node} {u : Unit} :
    checkPrivate display node false = .ok u ↔
      ∃ synced bytes, node = some (.file false synced bytes) := by
  rcases node with _ | (⟨shared, synced, bytes⟩ | shared | _) <;>
    simp [checkPrivate, Option.context]

@[simp] theorem ensurePrivatePath_eq_done {directory : String} {path : WalletPath}
    {isDirectory : Bool} {interruption : Option (Interruption WalletPath)}
    {m m' : Machine WalletPath} {u : Unit} :
    ensurePrivatePath directory path isDirectory interruption m = .done u m' ↔
      checkPrivate (displayPath directory path) (m.disk.live path) isDirectory = .ok u ∧
        m = m' := by
  simp [ensurePrivatePath, and_comm]

theorem ensurePrivatePath_done {directory : String} {path : WalletPath} {isDirectory : Bool}
    {interruption : Option (Interruption WalletPath)} {m : Machine WalletPath}
    (h : checkPrivate (displayPath directory path) (m.disk.live path) isDirectory = .ok ()) :
    ensurePrivatePath directory path isDirectory interruption m = .done () m :=
  ensurePrivatePath_eq_done.2 ⟨h, rfl⟩

theorem readFile_eq_done {path : WalletPath} {message : String}
    {interruption : Option (Interruption WalletPath)} {m m' : Machine WalletPath}
    {bytes : List UInt8} :
    readFile path message interruption m = .done bytes m' ↔
      (∃ shared synced, m.disk.live path = some (.file shared synced bytes)) ∧ m = m' := by
  have hdata : (m.disk.live path).bind Node.data = some bytes ↔
      ∃ shared synced, m.disk.live path = some (.file shared synced bytes) := by
    rcases m.disk.live path with _ | (_ | _ | _) <;> simp [Node.data]
  simp [readFile, hdata, and_comm]

/-- The lock file does not stand in the way. -/
def Lockable (node : Option Node) : Prop := ∀ shared, node ≠ some (.directory shared)

/-- The directory after the lock was opened. -/
def locked (d : Disk WalletPath) : Disk WalletPath :=
  match d.live .lock with
  | none => d.set .lock (some (.file false false []))
  | some _ => d

theorem locked_live (d : Disk WalletPath) {path : WalletPath} (h : path ≠ .lock) :
    (locked d).live path = d.live path := by
  unfold locked
  split
  · exact Function.update_of_ne h _ _
  · rfl

theorem withFile_eq_ok {d d' : Disk WalletPath} :
    d.withFile .lock = .ok d' ↔ Lockable (d.live .lock) ∧ d' = locked d := by
  unfold Disk.withFile locked Lockable
  rcases d.live .lock with _ | (_ | _ | _) <;> simp [eq_comm]

theorem openLock_eq_done {m m' : Machine WalletPath} {u : Unit} :
    openLock none m = .done u m' ↔
      Lockable (m.disk.live .lock) ∧ m' = ⟨locked m.disk, m.calls + 1⟩ := by
  simp only [openLock, FileM.openFile, FileM.call_none_eq_done, withFile_eq_ok]
  constructor
  · rintro ⟨d, ⟨h, rfl⟩, rfl⟩
    exact ⟨h, rfl⟩
  · rintro ⟨h, rfl⟩
    exact ⟨_, ⟨h, rfl⟩, rfl⟩

/-- A directory holds the configuration. -/
def ConfigAt (codec : StoreCodec P) (live : WalletPath → Option Node) (config : Config) : Prop :=
  ∃ synced bytes, live .config = some (.file false synced bytes) ∧ bytes.length ≤ maxFileSize ∧
    codec.configFromSlice bytes = some config ∧ config.validateVersion = .ok ()

theorem loadConfig_eq_done {codec : StoreCodec P} {directory : String}
    {interruption : Option (Interruption WalletPath)} {m m' : Machine WalletPath}
    {config : Config} :
    loadConfig codec directory interruption m = .done config m' ↔
      m.disk.live .directory = some (.directory false) ∧ ConfigAt codec m.disk.live config ∧
        m = m' := by
  simp only [loadConfig, FileM.bind_eq_done, ensurePrivatePath_eq_done, readFile_eq_done,
    FileM.of_eq_done, FileM.pure_eq_done, checkPrivate_directory, checkPrivate_file,
    Except.ensure_eq_ok, Except.context_eq_ok, exists_unit, ConfigAt]
  constructor
  · rintro ⟨_, ⟨hdirectory, rfl⟩, _, ⟨⟨synced, bytes, hfile⟩, rfl⟩, bytes', _, ⟨⟨_, _, hread⟩, rfl⟩, h⟩
    obtain ⟨_, ⟨hsize, rfl⟩, _, _, ⟨hparse, rfl⟩, _, ⟨hversion, rfl⟩, rfl, rfl⟩ := h
    cases hfile.symm.trans hread
    exact ⟨hdirectory, ⟨synced, bytes, hfile, hsize, hparse, hversion⟩, rfl⟩
  · rintro ⟨hdirectory, ⟨synced, bytes, hfile, hsize, hparse, hversion⟩, rfl⟩
    exact ⟨_, ⟨hdirectory, rfl⟩, _, ⟨⟨synced, bytes, hfile⟩, rfl⟩, bytes, _, ⟨⟨_, _, hfile⟩, rfl⟩,
      _, ⟨hsize, rfl⟩, config, _, ⟨hparse, rfl⟩, _, ⟨hversion, rfl⟩, rfl, rfl⟩

namespace WalletStore

/-- A directory that a store is opened from. -/
structure OpenedFrom (codec : StoreCodec P) (directory password : String)
    (live : WalletPath → Option Node) (store : WalletStore) : Prop where
  private_directory : live .directory = some (.directory false)
  lockable : Lockable (live .lock)
  state_file : ∃ synced bytes, live .state = some (.file false synced bytes)
  config_file : ConfigAt codec live store.config
  store_eq : store = ⟨directory, password, store.config, walletStateAad codec store.config⟩

theorem openStore_eq_done {codec : StoreCodec P} {directory password : String}
    {m m' : Machine WalletPath} {store : WalletStore} :
    openStore codec directory password none m = .done store m' ↔
      store.OpenedFrom codec directory password m.disk.live ∧
        m' = ⟨locked m.disk, m.calls + 1⟩ := by
  have hdirectory : (locked m.disk).live .directory = m.disk.live .directory :=
    locked_live m.disk (by decide)
  have hconfig : (locked m.disk).live .config = m.disk.live .config :=
    locked_live m.disk (by decide)
  simp only [openStore, FileM.bind_eq_done, ensurePrivatePath_eq_done, openLock_eq_done,
    loadConfig_eq_done, FileM.pure_eq_done, checkPrivate_directory, checkPrivate_file, exists_unit]
  constructor
  · rintro ⟨_, ⟨hprivate, rfl⟩, _, ⟨hstate, rfl⟩, _, ⟨hlock, rfl⟩, _, ⟨_, rfl⟩, config, _,
      ⟨_, hload, rfl⟩, rfl, rfl⟩
    simp only [ConfigAt, hconfig] at hload
    exact ⟨⟨hprivate, hlock, hstate, hload, rfl⟩, rfl⟩
  · rintro ⟨⟨hprivate, hlock, hstate, hload, hstore⟩, rfl⟩
    have hload' : ConfigAt codec (locked m.disk).live store.config := by
      simpa only [ConfigAt, hconfig] using hload
    obtain ⟨synced, bytes, hfile, -⟩ := hload
    exact ⟨_, ⟨hprivate, rfl⟩, _, ⟨hstate, rfl⟩, _, ⟨hlock, rfl⟩, _,
      ⟨⟨synced, bytes, hconfig.trans hfile⟩, rfl⟩, store.config, _,
      ⟨hdirectory.trans hprivate, hload', rfl⟩, hstore.symm, rfl⟩

/-- A directory holds a saved state that a store can load. -/
def StateAt (codec : StoreCodec P) (live : WalletPath → Option Node) (store : WalletStore)
    (state : NativeWalletState P) : Prop :=
  ∃ shared synced bytes, live .state = some (.file shared synced bytes) ∧
    bytes.length ≤ maxStateFileSize ∧
    codec.openState bytes store.password store.aad = .ok state ∧
    state.validate store.config.network = .ok ()

theorem loadNative_eq_done {codec : StoreCodec P} {store : WalletStore}
    {interruption : Option (Interruption WalletPath)} {m m' : Machine WalletPath}
    {state : NativeWalletState P} :
    store.loadNative codec interruption m = .done state m' ↔
      store.StateAt codec m.disk.live state ∧ m = m' := by
  simp only [loadNative, FileM.bind_eq_done, readFile_eq_done, FileM.of_eq_done,
    FileM.pure_eq_done, Except.ensure_eq_ok, exists_unit, StateAt]
  constructor
  · rintro ⟨bytes, _, ⟨⟨shared, synced, hfile⟩, rfl⟩, _, ⟨hsize, rfl⟩, _, _, ⟨hopen, rfl⟩, _,
      ⟨hvalid, rfl⟩, rfl, rfl⟩
    exact ⟨⟨shared, synced, bytes, hfile, hsize, hopen, hvalid⟩, rfl⟩
  · rintro ⟨⟨shared, synced, bytes, hfile, hsize, hopen, hvalid⟩, rfl⟩
    exact ⟨bytes, _, ⟨⟨shared, synced, hfile⟩, rfl⟩, _, ⟨hsize, rfl⟩, state, _, ⟨hopen, rfl⟩, _,
      ⟨hvalid, rfl⟩, rfl, rfl⟩

/-- `open`, and then `load_native`, find the store and the state in a directory. -/
def Found (codec : StoreCodec P) (directory password : String) (d : Disk WalletPath)
    (store : WalletStore) (state : NativeWalletState P) : Prop :=
  ∃ m m', openStore codec directory password none ⟨d, 0⟩ = .done store m ∧
    store.loadNative codec none m = .done state m'

theorem found_iff {codec : StoreCodec P} {directory password : String} {d : Disk WalletPath}
    {store : WalletStore} {state : NativeWalletState P} :
    Found codec directory password d store state ↔
      store.OpenedFrom codec directory password d.live ∧ store.StateAt codec d.live state := by
  have hstate : (locked d).live .state = d.live .state := locked_live d (by decide)
  simp only [Found, openStore_eq_done, loadNative_eq_done]
  constructor
  · rintro ⟨_, _, ⟨hopen, rfl⟩, hload, rfl⟩
    simp only [StateAt, hstate] at hload
    exact ⟨hopen, hload⟩
  · rintro ⟨hopen, hload⟩
    exact ⟨_, _, ⟨hopen, rfl⟩, by simpa only [StateAt, hstate] using hload, rfl⟩

end WalletStore

/-! ## Writing -/

/-- Where the data directory can be made, or is there already. -/
def DirectoryFree (node : Option Node) : Prop := node = none ∨ node = some (.directory false)

/-- The directory after it was made. -/
def made (d : Disk WalletPath) : Disk WalletPath :=
  if pathExists (d.live .directory) = false then
    ⟨Function.update d.live .directory (some (.directory false)),
      Function.update d.durable .directory (some (.directory false))⟩
  else d

/-- The number of calls that make it. -/
def makingCalls (d : Disk WalletPath) : Nat :=
  if pathExists (d.live .directory) = false then 1 else 0

theorem made_live (d : Disk WalletPath) {path : WalletPath} (h : path ≠ .directory) :
    (made d).live path = d.live path := by
  unfold made
  split
  · exact Function.update_of_ne h _ _
  · rfl

theorem made_directory {d : Disk WalletPath} (h : DirectoryFree (d.live .directory)) :
    (made d).live .directory = some (.directory false) := by
  unfold made
  rcases h with h | h <;> rw [h] <;> simp [pathExists, h]

theorem view_done (d : Disk WalletPath) (calls : Nat)
    (interruption : Option (Interruption WalletPath)) :
    FileM.view interruption ⟨d, calls⟩ = .done d.live ⟨d, calls⟩ := rfl

theorem ensureSecureDirectory_done {directory : String} {d : Disk WalletPath} {calls : Nat}
    {interruption : Option (Interruption WalletPath)} (h : DirectoryFree (d.live .directory))
    (hcut : ∀ i ∈ interruption, i.after < calls ∨ calls + makingCalls d ≤ i.after) :
    ensureSecureDirectory directory interruption ⟨d, calls⟩ =
      .done () ⟨made d, calls + makingCalls d⟩ := by
  have hprivate : ∀ calls', ensurePrivatePath directory .directory true interruption
      ⟨made d, calls'⟩ = .done () ⟨made d, calls'⟩ := fun calls' =>
    ensurePrivatePath_eq_done.2 ⟨checkPrivate_directory.2 (made_directory h), rfl⟩
  rcases h with h | h
  · have hcalls : makingCalls d = 1 := by rw [makingCalls, h]; rfl
    have hmade : made d = ⟨Function.update d.live .directory (some (.directory false)),
        Function.update d.durable .directory (some (.directory false))⟩ := by
      rw [made, if_pos (by rw [h]; rfl)]
    have hcall : FileM.makeDirectory .directory interruption ⟨d, calls⟩ =
        .done () ⟨made d, calls + 1⟩ := by
      refine FileM.call_done (fun i hi => ?_) (by rw [if_pos h, hmade])
      show i.after ≠ calls
      have hafter := hcut i hi
      omega
    rw [hcalls]
    rw [ensureSecureDirectory, FileM.bind_done (view_done d calls _), if_pos (by rw [h]; rfl),
      FileM.bind_done hcall]
    exact hprivate _
  · have hcalls : makingCalls d = 0 := by rw [makingCalls, h]; rfl
    have hmade : made d = d := by rw [made, if_neg (by rw [h]; decide)]
    rw [hcalls]
    rw [ensureSecureDirectory, FileM.bind_done (view_done d calls _), if_neg (by rw [h]; decide)]
    rw [hmade] at hprivate
    rw [hmade]
    exact hprivate calls

/-- An interruption while the directory is made leaves it as it was. -/
theorem ensureSecureDirectory_stopped {directory : String} {d : Disk WalletPath} {calls : Nat}
    {i : Interruption WalletPath} (h : DirectoryFree (d.live .directory))
    (hcut : calls ≤ i.after ∧ i.after < calls + makingCalls d) :
    ensureSecureDirectory directory (some i) ⟨d, calls⟩ = .stopped d := by
  rcases h with h | h
  · have hcalls : makingCalls d = 1 := by rw [makingCalls, h]; rfl
    have hcall : FileM.makeDirectory .directory (some i) ⟨d, calls⟩ = .stopped d :=
      FileM.call_stopped (show i.after = calls by omega)
    rw [ensureSecureDirectory, FileM.bind_done (view_done d calls _), if_pos (by rw [h]; rfl)]
    exact FileM.bind_stopped hcall
  · have hcalls : makingCalls d = 0 := by rw [makingCalls, h]; rfl
    omega

theorem ensureSecureDirectory_eq_done {directory : String} {m m' : Machine WalletPath} {u : Unit} :
    ensureSecureDirectory directory none m = .done u m' ↔
      DirectoryFree (m.disk.live .directory) ∧
        m' = ⟨made m.disk, m.calls + makingCalls m.disk⟩ := by
  have hdone : DirectoryFree (m.disk.live .directory) → ensureSecureDirectory directory none m =
      .done () ⟨made m.disk, m.calls + makingCalls m.disk⟩ :=
    fun hfree => ensureSecureDirectory_done hfree (by simp)
  constructor
  · intro h
    have hfree : DirectoryFree (m.disk.live .directory) := by
      have hsteps := h
      simp only [ensureSecureDirectory, FileM.bind_eq_done, FileM.view_eq_done] at hsteps
      obtain ⟨_, _, ⟨rfl, rfl⟩, hsteps⟩ := hsteps
      split at hsteps
      · simp only [FileM.bind_eq_done, FileM.makeDirectory, FileM.call_none_eq_done] at hsteps
        obtain ⟨_, _, ⟨d', hmake, rfl⟩, -⟩ := hsteps
        refine Or.inl ?_
        by_contra hnode
        rw [if_neg hnode] at hmake
        cases hmake
      · simp only [ensurePrivatePath_eq_done, checkPrivate_directory] at hsteps
        exact Or.inr hsteps.1
    cases (hdone hfree).symm.trans h
    exact ⟨hfree, rfl⟩
  · rintro ⟨hfree, rfl⟩
    exact hdone hfree

theorem openLock_done {d : Disk WalletPath} {calls : Nat}
    {interruption : Option (Interruption WalletPath)} (h : Lockable (d.live .lock))
    (hcut : ∀ i ∈ interruption, i.after ≠ calls) :
    openLock interruption ⟨d, calls⟩ = .done () ⟨locked d, calls + 1⟩ := by
  unfold openLock FileM.openFile
  exact FileM.call_done hcut (withFile_eq_ok.2 ⟨h, rfl⟩)

theorem writeBytesAtomicInner_eq {directory : String} {path : WalletPath} {bytes : List UInt8}
    {suffix : List.Vector UInt8 8} {interruption : Option (Interruption WalletPath)}
    {m : Machine WalletPath} (h : m.disk.live .directory = some (.directory false)) :
    writeBytesAtomicInner directory path bytes suffix interruption m =
      FileM.replaceFile (.temporary path suffix) path bytes interruption m := by
  have hcheck : ensure (∃ shared, m.disk.live .directory = some (.directory shared))
      s!"output directory does not exist: {directory}" = .ok () :=
    Except.ensure_eq_ok.2 ⟨false, h⟩
  show (FileM.of (ensure _ _) >>= fun _ => _) _ _ = _
  rw [FileM.bind_done (FileM.of_eq_done.2 ⟨hcheck, rfl⟩)]

namespace WalletStore

theorem writeNative_eq {codec : StoreCodec P} {store : WalletStore} {state : NativeWalletState P}
    {draws : WriteDraws} {interruption : Option (Interruption WalletPath)}
    {m : Machine WalletPath} {bytes : List UInt8}
    (hdirectory : m.disk.live .directory = some (.directory false))
    (hsealed : codec.sealState state store.password store.aad draws.sealing = .ok bytes)
    (hsize : bytes.length ≤ maxStateFileSize) :
    store.writeNative codec state draws interruption m =
      FileM.replaceFile (.temporary .state draws.suffix) .state bytes interruption m := by
  unfold writeNative writeStateBytesAtomic
  rw [FileM.bind_done (FileM.of_eq_done.2 ⟨hsealed, rfl⟩),
    FileM.bind_done (a := ()) (FileM.of_eq_done.2 ⟨Except.ensure_eq_ok.2 hsize, rfl⟩)]
  exact writeBytesAtomicInner_eq hdirectory

theorem writeNative_eq_done {codec : StoreCodec P} {store : WalletStore}
    {state : NativeWalletState P} {draws : WriteDraws} {m m' : Machine WalletPath} {u : Unit}
    (hdirectory : m.disk.live .directory = some (.directory false)) :
    store.writeNative codec state draws none m = .done u m' ↔
      ∃ bytes, codec.sealState state store.password store.aad draws.sealing = .ok bytes ∧
        bytes.length ≤ maxStateFileSize ∧
        FileM.replaceFile (.temporary .state draws.suffix) .state bytes none m = .done u m' := by
  constructor
  · intro h
    have hsteps := h
    simp only [writeNative, writeStateBytesAtomic, FileM.bind_eq_done, FileM.of_eq_done,
      Except.ensure_eq_ok] at hsteps
    obtain ⟨bytes, _, ⟨hsealed, rfl⟩, _, _, ⟨hsize, rfl⟩, -⟩ := hsteps
    exact ⟨bytes, hsealed, hsize, (writeNative_eq hdirectory hsealed hsize).symm.trans h⟩
  · rintro ⟨bytes, hsealed, hsize, h⟩
    exact (writeNative_eq hdirectory hsealed hsize).trans h

end WalletStore

theorem writeConfigAtomic_eq {codec : StoreCodec P} {directory : String} {config : Config}
    {suffix : List.Vector UInt8 8} {interruption : Option (Interruption WalletPath)}
    {m : Machine WalletPath} (hdirectory : m.disk.live .directory = some (.directory false))
    (hsize : (codec.configToVecPretty config ++ [10]).length ≤ maxFileSize) :
    writeConfigAtomic codec directory config suffix interruption m =
      FileM.replaceFile (.temporary .config suffix) .config
        (codec.configToVecPretty config ++ [10]) interruption m := by
  unfold writeConfigAtomic
  rw [FileM.bind_done (a := ()) (FileM.of_eq_done.2 ⟨Except.ensure_eq_ok.2 hsize, rfl⟩)]
  exact writeBytesAtomicInner_eq hdirectory

/-! ## Directories at rest -/

theorem temporary_ne (path : WalletPath) (suffix : List.Vector UInt8 8) :
    WalletPath.temporary path suffix ≠ path := by
  induction path generalizing suffix with
  | temporary path suffix' ih =>
    intro h
    rw [WalletPath.temporary.injEq] at h
    exact ih suffix' h.1
  | directory | config | state | lock => exact WalletPath.noConfusion

/-- Everything but the lock file is on the disk. -/
structure Quiet (d : Disk WalletPath) : Prop where
  settled : ∀ path ≠ .lock, d.Settled path
  lock_live : Lockable (d.live .lock)
  lock_durable : Lockable (d.durable .lock)

theorem lockable_settle {d : Disk WalletPath} (hlive : Lockable (d.live .lock))
    (hdurable : Lockable (d.durable .lock)) (i : Interruption WalletPath) :
    Lockable ((d.settle i).live .lock) := by
  have hrecover : ∀ (node : Node) (torn : List UInt8),
      (∃ shared, node.recover torn = .directory shared) → ∃ shared, node = .directory shared := by
    rintro (⟨shared, _ | _, data⟩ | shared | leads) torn ⟨_, h⟩ <;> cases h
    exact ⟨_, rfl⟩
  have hne := Disk.settle_live_ne (p := fun node => ∃ shared, node = .directory shared) hrecover
    (fun node hnode ⟨shared, hshared⟩ => hlive shared (hshared ▸ hnode))
    (fun node hnode ⟨shared, hshared⟩ => hdurable shared (hshared ▸ hnode)) i
  exact fun shared hlock => hne _ hlock ⟨shared, rfl⟩

namespace Quiet

variable {d : Disk WalletPath}

theorem made (h : Quiet d) (hfree : DirectoryFree (d.live .directory)) : Quiet (made d) := by
  have hdirectory := made_directory hfree
  have hother : ∀ path ≠ .directory,
      (Tinylayer.made d).live path = d.live path ∧ (Tinylayer.made d).durable path = d.durable path := by
    intro path hpath
    refine ⟨made_live d hpath, ?_⟩
    unfold Tinylayer.made
    split
    · exact Function.update_of_ne hpath _ _
    · rfl
  refine { settled := fun path hpath => ?_, lock_live := ?_, lock_durable := ?_ }
  · by_cases hdir : path = .directory
    · rw [hdir]
      refine ⟨?_, fun node hnode torn => ?_⟩
      · have hsettled := (h.settled .directory (by decide)).durable_eq
        rw [hdirectory]
        unfold Tinylayer.made
        rcases hfree with hfree | hfree <;> simp [hfree, pathExists, hsettled]
      · rw [hdirectory] at hnode
        obtain rfl := Option.some.inj hnode
        rfl
    · obtain ⟨hlive, hdurable⟩ := hother path hdir
      have hsettled := h.settled path hpath
      exact ⟨by rw [hlive, hdurable, hsettled.durable_eq], by rw [hlive]; exact hsettled.synced⟩
  · rw [(hother .lock (by decide)).1]
    exact h.lock_live
  · rw [(hother .lock (by decide)).2]
    exact h.lock_durable

theorem locked (h : Quiet d) : Quiet (locked d) := by
  have hdurable : (Tinylayer.locked d).durable = d.durable := by
    unfold Tinylayer.locked
    split <;> rfl
  refine { settled := fun path hpath => ?_, lock_live := ?_, lock_durable := ?_ }
  · have hsettled := h.settled path hpath
    have hlive := locked_live d hpath
    exact ⟨by rw [hlive, hdurable, hsettled.durable_eq], by rw [hlive]; exact hsettled.synced⟩
  · unfold Tinylayer.locked
    cases hlock : d.live .lock with
    | none => simp [Disk.set, Lockable]
    | some node =>
      show Lockable (d.live .lock)
      exact h.lock_live
  · rw [hdurable]
    exact h.lock_durable

theorem replaced (h : Quiet d) {temporary target : WalletPath} (htemporary : temporary ≠ .lock)
    (htarget : target ≠ .lock) (data : List UInt8) :
    Quiet (d.replaced temporary target data) := by
  have hlock : (d.replaced temporary target data).live .lock = d.live .lock := by
    simp [Disk.replaced, htemporary.symm, htarget.symm]
  refine { settled := fun path hpath => ?_, lock_live := ?_, lock_durable := ?_ }
  · exact Disk.Settled.replaced (Or.inr (h.settled path hpath).synced)
  · rw [hlock]
    exact h.lock_live
  · show Lockable ((d.replaced temporary target data).live .lock)
    rw [hlock]
    exact h.lock_live

/-- A quiet directory is found again. -/
theorem settle_live (h : Quiet d) (i : Interruption WalletPath) {path : WalletPath}
    (hpath : path ≠ .lock) : (d.settle i).live path = d.live path :=
  (h.settled path hpath).settle_live i

/-- What a replacement that is interrupted leaves. -/
theorem settle_replaceFile (h : Quiet d) {path : WalletPath} {suffix : List.Vector UInt8 8}
    (hnew : d.live (.temporary path suffix) = none) (hpath : path ≠ .lock)
    (hnode : ∀ shared, d.live path ≠ some (.directory shared)) (data : List UInt8) (calls : Nat)
    (i : Interruption WalletPath) (hcut : calls ≤ i.after ∧ i.after < calls + 5) :
    ∃ d', FileM.replaceFile (.temporary path suffix) path data (some i) ⟨d, calls⟩ = .stopped d' ∧
      Lockable ((d'.settle i).live .lock) ∧
      (∀ path', path' ≠ .lock → path' ≠ .temporary path suffix → path' ≠ path →
        (d'.settle i).live path' = d.live path') ∧
      (i.InPlace calls path → (d'.settle i).live path = some (.file false true data)) ∧
      (¬ i.InPlace calls path → (d'.settle i).live path = d.live path) := by
  obtain ⟨d', hstopped, hother, htarget, hviews⟩ :=
    FileM.settle_replaceFile data (temporary_ne path suffix) hnew hnode calls i hcut
  obtain ⟨hlive, hdurable⟩ := hviews .lock (by simp) hpath.symm
  refine ⟨d', hstopped, lockable_settle ?_ ?_ i, fun path' hlock htemporary hne => ?_,
    (htarget (h.settled path hpath)).1, (htarget (h.settled path hpath)).2⟩
  · rw [hlive]
    exact h.lock_live
  · rw [hdurable]
    exact h.lock_durable
  · exact hother path' htemporary (h.settled path' hlock) hne

end Quiet

end Tinylayer
