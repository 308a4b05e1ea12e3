import Tinylayer.Native.Cli
import Tinylayer.Native.Proofs.InterruptionProofs
import Tinylayer.Wallet.Proofs.ExitProofs

/-!
# Proofs: the dry run of an exit

The dry run of an exit looks the recovery up and builds the child by itself. It prints a package
exactly if the exit can be journaled, and then it prints that package.
-/

open MayPanic (Computes)

namespace Tinylayer

open Durable

variable {P : Platform}

/-! ## The fee -/

/-- The child of an exit leaves no more than the coin is worth. -/
theorem buildExitChild_output {recovery : SignedRecovery P} {amountSat : Nat} {key : P.SecretKey}
    {destination : Script} {feeRateSatVb : Nat} {child : P.Tx}
    (h : buildExitChild recovery amountSat key destination feeRateSatVb = .ok child) :
    ∃ output, child.output = [output] ∧ output.value ≤ amountSat := by
  simp only [buildExitChild, Except.bind_eq_ok, Except.ensure_eq_ok, exists_unit,
    Except.context_eq_ok, Except.pure_eq_ok, checkedSub_eq_some] at h
  obtain ⟨_, _, _, _, _, value, ⟨_, hvalue⟩, _, _, _, _, rfl⟩ := h
  refine ⟨_, rfl, ?_⟩
  dsimp only
  omega

/-- The subtraction of the dry run is the checked one of the journal. -/
theorem dryRunFee_computes {recovery : SignedRecovery P} {metadata : CoinMetadata P}
    {key : P.SecretKey} {destination : Script} {feeRateSatVb : Nat} {child : P.Tx}
    (h : buildExitChild recovery metadata.amountSat key destination feeRateSatVb = .ok child) :
    Computes (dryRunFee metadata child) (exitFee metadata child) := by
  obtain ⟨output, houtput, hle⟩ := buildExitChild_output h
  have hfee : exitFee metadata child = .ok (metadata.amountSat - output.value) := by
    simp only [exitFee, Except.bind_eq_ok, Except.context_eq_ok, checkedSub_eq_some]
    exact ⟨output, by rw [houtput]; rfl, hle, rfl⟩
  rw [hfee]
  refine Computes.index (by rw [houtput]; rfl) ?_
  rw [MayPanic.sub, if_pos hle]
  exact .pure _

/-- The dry run does not panic, and computes what it computes with a checked subtraction. -/
theorem dryRunPackage_computes (metadata : CoinMetadata P) (recovery : SignedRecovery P)
    (key : P.SecretKey) (address : P.Address) (rate maxFeeSat : Nat) :
    Computes (dryRunPackage metadata recovery key address rate maxFeeSat) (do
      ensure (0 < rate) "exit fee rate must be positive"
      let child ← Client.lift (buildExitChild recovery metadata.amountSat key
        (P.addressScript address) rate)
      let feeSat ← exitFee metadata child
      ensure (feeSat ≤ maxFeeSat) s!"exit fee {feeSat} sat exceeds maximum {maxFeeSat} sat"
      return .exitPrepared recovery.transaction child (P.addressToString address) rate feeSat) := by
  unfold dryRunPackage
  refine .check fun _ _ => .check fun child hchild => ?_
  exact (dryRunFee_computes (Client.lift_eq_ok.1 hchild)).bind fun _ _ => .check fun _ _ => .pure _

/-! ## The two lookups -/

theorem dryRunRecovery_eq_ok {config : Config} {wallet : WalletState P} {coin : WalletCoin P}
    (hcoin : wallet.coin = some coin) {metadata : CoinMetadata P}
    (hmetadata : coin.metadata = some metadata) (hnetwork : metadata.network = config.network)
    {destination : String} {m : CoinMetadata P} {recovery : SignedRecovery P} {key : P.SecretKey}
    {address : P.Address} :
    dryRunRecovery config wallet destination = .ok (m, recovery, key, address) ↔
      m = metadata ∧ ownedRecovery coin config.network = .ok (metadata, recovery, key) ∧
        P.addressFromStr destination = some address ∧
        P.addressOnNetwork address config.network = true := by
  simp only [dryRunRecovery, hcoin, hmetadata, Except.bind_eq_ok, Except.context_eq_ok,
    Except.ensure_eq_ok, exists_unit, Client.lift_eq_ok, Except.pure_eq_ok, parseDestination_eq_ok,
    Prod.mk.injEq, Option.some.injEq, exists_eq_left', ownedRecovery_eq_ok]
  constructor
  · rintro ⟨key', hkey, index, hindex, r, hr, hpays, hverify, hfunding, a, ha, rfl, rfl, rfl, rfl⟩
    exact ⟨rfl, ⟨trivial, hnetwork, hfunding, hkey, index, hindex, hr, hpays.symm, hverify⟩, ha⟩
  · rintro ⟨rfl, ⟨_, _, hfunding, hkey, index, hindex, hr, hpays, hverify⟩, ha⟩
    exact ⟨key, hkey, index, hindex, recovery, hr, hpays.symm, hverify, hfunding, address, ha, rfl, rfl,
      rfl, rfl⟩

/-- What a package is prepared from. Its own check repeats the checks that were made before. -/
theorem ExitPackage.prepare_eq_ok (haddress : P.AddressCodec) {coin : WalletCoin P}
    {network : NetworkId} {destination : String} {confirmations rate maxFeeSat : Nat}
    {package : ExitPackage P} :
    prepare coin network destination confirmations rate maxFeeSat = .ok package ↔
      0 < rate ∧ ∃ address metadata recovery key child feeSat,
        P.addressFromStr destination = some address ∧ P.addressOnNetwork address network = true ∧
        ownedRecovery coin network = .ok (metadata, recovery, key) ∧
        recovery.delayBlocks ≤ confirmations ∧
        buildExitChild recovery metadata.amountSat key (P.addressScript address) rate = .ok child ∧
        exitFee metadata child = .ok feeSat ∧ feeSat ≤ maxFeeSat ∧
        package = {
          formatVersion := fileFormatVersion
          network
          destination := P.addressToString address
          feeRateSatVb := rate
          maxFeeSat
          feeSat
          recoveryDelayBlocks := recovery.delayBlocks
          parent := recovery.transaction
          child } := by
  simp only [prepare, validate, Except.bind_eq_ok, Except.ensure_eq_ok, exists_unit,
    Client.lift_eq_ok, parseDestination_eq_ok, Except.pure_eq_ok, Prod.exists]
  constructor
  · rintro ⟨hrate, address, ⟨hparse, hon⟩, metadata, recovery, key, howned, hfinal, child, hchild,
      feeSat, hfee, hmax, _, rfl⟩
    exact ⟨hrate, address, metadata, recovery, key, child, feeSat, hparse, hon, howned, hfinal, hchild,
      hfee, hmax, rfl⟩
  · rintro ⟨hrate, address, metadata, recovery, key, child, feeSat, hparse, hon, howned, hfinal, hchild,
      hfee, hmax, rfl⟩
    exact ⟨hrate, address, ⟨hparse, hon⟩, metadata, recovery, key, howned, hfinal, child, hchild,
      feeSat, hfee, hmax, ⟨trivial, hrate, address, ⟨haddress.fromStr_toString address, hon⟩, metadata,
        recovery, key, howned, ⟨rfl, rfl⟩, child, hchild, rfl, feeSat, hfee, rfl, hmax⟩, rfl⟩

/-! ## The dry run and the exit -/

variable {E : Type} {oracle : E → (query : Query P) → query.Reply × E} {config : Config}
  {wallet : WalletState P} {coin : WalletCoin P} {metadata : CoinMetadata P} {c : Command P}
  {w v u : CliWorld P E} {observation : FundingObservation}

theorem exitFeeRate_run {destination : String} {rate maxFeeSat r : Nat} :
    (exitFeeRate (P := P) { destination, feeRate := some rate, maxFeeSat }).run oracle c w =
        (.ok r, v) ↔ rate = r ∧ w = v := by
  change ((.ok rate, w) : Except String Nat × CliWorld P E) = (.ok r, v) ↔ _
  rw [Prod.mk.injEq, Except.ok.injEq]

/-- The dry run with a given rate, on a chain that shows the funding. -/
theorem exitCoinDryRun_eq_ok (hcoin : wallet.coin = some coin)
    (hmetadata : coin.metadata = some metadata) (hnetwork : metadata.network = config.network)
    (hconnect : (connectChain config).run oracle c w = (.ok (), v))
    (hverify : (call (.verifyFunding metadata 1)).run oracle c v = (.ok observation, u))
    {destination : String} {rate maxFeeSat : Nat} {report : Report P} :
    ((exitCoinDryRun config wallet destination (some rate) maxFeeSat).run oracle c w).1 =
        .ok report ↔
      ∃ recovery key address, ownedRecovery coin config.network = .ok (metadata, recovery, key) ∧
        P.addressFromStr destination = some address ∧
        P.addressOnNetwork address config.network = true ∧
        recovery.delayBlocks ≤ observation.confirmations ∧ 0 < rate ∧
        ∃ child feeSat, buildExitChild recovery metadata.amountSat key (P.addressScript address)
            rate = .ok child ∧
          exitFee metadata child = .ok feeSat ∧ feeSat ≤ maxFeeSat ∧
          report = .exitPrepared recovery.transaction child (P.addressToString address) rate
            feeSat := by
  have hrun : ∀ (r : Except String (Report P) × CliWorld P E),
      r.1 = .ok report ↔ ∃ z, r = (.ok report, z) :=
    fun r => ⟨fun h => ⟨r.2, Prod.ext h rfl⟩, fun ⟨z, h⟩ => by rw [h]⟩
  have hconnected : ∀ {a z}, (connectChain config).run oracle c w = (.ok a, z) ↔ z = v := by
    intro a z
    rw [hconnect, Prod.mk_inj]
    exact ⟨fun h => h.2.symm, fun h => ⟨rfl, h.symm⟩⟩
  have hverified : ∀ {a z}, (call (.verifyFunding metadata 1)).run oracle c v = (.ok a, z) ↔
      a = observation ∧ z = u := by
    intro a z
    rw [hverify, Prod.mk_inj]
    exact ⟨fun ⟨h, h'⟩ => ⟨(Except.ok.inj h).symm, h'.symm⟩, fun ⟨h, h'⟩ => by rw [h, h']; trivial⟩
  rw [hrun]
  simp only [exitCoinDryRun, Program.run_bind_eq_ok, Program.run_of_eq, Prod.exists,
    (dryRunPackage_computes _ _ _ _ _ _).orElse, Except.bind_eq_ok, Except.ensure_eq_ok, exists_unit,
    Client.lift_eq_ok, Except.pure_eq_ok]
  constructor
  · rintro ⟨_, _, recovery, key, address, _, ⟨hlookup, rfl⟩, _, hc, o, _, ho, _, ⟨hfinal, rfl⟩, _, _,
      hrate, ⟨hpositive, child, hchild, feeSat, hfee, hmax, rfl⟩, _⟩
    obtain ⟨rfl, howned, hparse, hon⟩ :=
      (dryRunRecovery_eq_ok hcoin hmetadata hnetwork).1 hlookup
    obtain rfl := hconnected.1 hc
    obtain ⟨rfl, _⟩ := hverified.1 ho
    obtain ⟨rfl, _⟩ := exitFeeRate_run.1 hrate
    exact ⟨recovery, key, address, howned, hparse, hon, hfinal, hpositive, child, feeSat, hchild, hfee,
      hmax, rfl⟩
  · rintro ⟨recovery, key, address, howned, hparse, hon, hfinal, hpositive, child, feeSat, hchild, hfee,
      hmax, rfl⟩
    have hlookup := (dryRunRecovery_eq_ok hcoin hmetadata hnetwork).2 ⟨rfl, howned, hparse, hon⟩
    exact ⟨u, metadata, recovery, key, address, w, ⟨hlookup, rfl⟩, v, hconnect, observation, u, hverify,
      u, ⟨hfinal, rfl⟩, rate, u, exitFeeRate_run.2 ⟨rfl, rfl⟩,
      ⟨hpositive, child, hchild, feeSat, hfee, hmax, rfl⟩, rfl⟩

/-- The dry run shows what the exit would journal: on a chain that shows the funding, it prints a
package exactly if one can be prepared, and then it prints that package. Its subtraction never
underflows. -/
theorem dry_run_shows_exit (haddress : P.AddressCodec) (hcoin : wallet.coin = some coin)
    (hmetadata : coin.metadata = some metadata) (hnetwork : metadata.network = config.network)
    (hconnect : (connectChain config).run oracle c w = (.ok (), v))
    (hverify : (call (.verifyFunding metadata 1)).run oracle c v = (.ok observation, u))
    (destination : String) (rate maxFeeSat : Nat) :
    (∀ report, ((exitCoinDryRun config wallet destination (some rate) maxFeeSat).run oracle c w).1 =
        .ok report ↔
      ∃ journal, ExitJournal.prepare coin config.network destination observation.confirmations
          rate maxFeeSat = .ok journal ∧
        report = .exitPrepared journal.package.parent journal.package.child
          journal.package.destination rate journal.package.feeSat) ∧
    ∀ recovery key address,
      (dryRunPackage metadata recovery key address rate maxFeeSat).run ≠ none ∧
      ∀ child, buildExitChild recovery metadata.amountSat key (P.addressScript address) rate =
          .ok child →
        ∃ output, child.output[0]? = some output ∧ output.value ≤ metadata.amountSat := by
  refine ⟨fun report => ?_, fun recovery key address => ⟨?_, fun child hchild => ?_⟩⟩
  · rw [exitCoinDryRun_eq_ok hcoin hmetadata hnetwork hconnect hverify]
    simp only [ExitJournal.prepare, Except.bind_eq_ok, Except.pure_eq_ok,
      ExitPackage.prepare_eq_ok haddress]
    constructor
    · rintro ⟨recovery, key, address, howned, hparse, hon, hfinal, hpositive, child, feeSat, hchild,
        hfee, hmax, rfl⟩
      exact ⟨_, ⟨_, ⟨hpositive, address, metadata, recovery, key, child, feeSat, hparse, hon, howned,
        hfinal, hchild, hfee, hmax, rfl⟩, rfl⟩, rfl⟩
    · rintro ⟨_, ⟨_, ⟨hpositive, address, m, recovery, key, child, feeSat, hparse, hon, howned, hfinal,
        hchild, hfee, hmax, rfl⟩, rfl⟩, rfl⟩
      obtain rfl : metadata = m :=
        Option.some.inj (hmetadata.symm.trans (ownedRecovery_eq_ok.1 howned).1)
      exact ⟨recovery, key, address, howned, hparse, hon, hfinal, hpositive, child, feeSat, hchild,
        hfee, hmax, rfl⟩
  · rw [dryRunPackage_computes metadata recovery key address rate maxFeeSat]
    exact Option.some_ne_none _
  · obtain ⟨output, houtput, hle⟩ := buildExitChild_output hchild
    exact ⟨output, by rw [houtput]; rfl, hle⟩

section Demo

open Symbolic

/-- A chain that shows every funding with 100 confirmations. -/
def confirmedChain (_ : Unit) : (query : Query exactPlatform) → query.Reply × Unit
  | .connectChain => (.ok (), ())
  | .verifyFunding .. => (.ok { tipHeight := 200, confirmations := 100 }, ())
  | _ => (.error "unavailable", ())

def exitingWallet (coin : WalletCoin exactPlatform) : WalletState exactPlatform :=
  { WalletState.empty with coin := some coin }

/-- The dry run of the exit of the funded coin. -/
theorem dry_run_shows_exit_funded : ∃ coin journal, exactExit = some (coin, journal) ∧
    ∀ (c : Command exactPlatform) (w : CliWorld exactPlatform Unit),
      ((exitCoinDryRun freshConfig (exitingWallet coin) journal.package.destination (some 1)
        500).run confirmedChain c w).1 =
      .ok (.exitPrepared journal.package.parent journal.package.child journal.package.destination 1
        journal.package.feeSat) := by
  have hexits : ∀ exit ∈ exactExit,
      (∃ metadata ∈ exit.1.metadata, metadata.network = .regtest) ∧
        ExitJournal.prepare exit.1 .regtest exit.2.package.destination 100 1 500 = .ok exit.2 := by
    decide +kernel
  obtain ⟨⟨coin, journal⟩, hexit⟩ := Option.isSome_iff_exists.1 exactExit_observed.1
  obtain ⟨⟨metadata, hmetadata, hnetwork⟩, hprepared⟩ := hexits _ hexit
  refine ⟨coin, journal, hexit, fun c w => ?_⟩
  have hcoin : (exitingWallet coin).coin = some coin := rfl
  have hconnect : (connectChain freshConfig).run confirmedChain c w =
      (.ok (), w.asked c .connectChain (.ok ()) ()) := rfl
  have hverify : ∀ v, (call (.verifyFunding metadata 1)).run confirmedChain c v =
      (.ok { tipHeight := 200, confirmations := 100 }, v.asked c _ _ ()) := fun _ => rfl
  obtain ⟨hshows, _⟩ := dry_run_shows_exit exactAddressCodec hcoin hmetadata hnetwork hconnect
    (hverify _) journal.package.destination 1 500
  exact (hshows _).2 ⟨journal, hprepared, rfl⟩

end Demo

end Tinylayer
