import Tinylayer.System.Account
import Tinylayer.System.Proofs.OnceProofs

/-!
# Proofs: accounts

No operation replaces an account by one that it was not given a status for. The account of a wallet
was therefore reported by the signer, and that of the owner is the present one: the owner's saved
history is as long as the list of the signatures that were issued.
-/

namespace Tinylayer

open WalletState

variable {P : Platform} {LIMIT : Nat}

namespace WalletState

variable {s s' : WalletState P}

theorem account_congr (h : s'.coin = s.coin) : s'.account = s.account := by
  unfold account held
  rw [h]

theorem account_of_coin {coin : WalletCoin P} (hcoin : s.coin = some coin) :
    s.account = some ⟨coin.keys.coinId, coin.keys.enclavePubkey, s.held, coin.history.length⟩ := by
  simp only [account, hcoin, Option.map_some]

theorem held_of_account {account : Account P} (h : s.account = some account) :
    s.held = account.held := by
  obtain ⟨coin, _, rfl⟩ := Option.map_eq_some_iff.1 h
  rfl

/-- What a wallet holds opens the authorization of its own coin. -/
theorem coinId_of_held {account : Account P} (h : s.account = some account) {held : Held}
    (hheld : s.held = some held) : held.coinId = account.coinId := by
  obtain ⟨coin, hcoin, rfl⟩ := Option.map_eq_some_iff.1 h
  obtain ⟨coin', hcoin', hid, _⟩ := held_eq_some.1 hheld
  cases hcoin.symm.trans hcoin'
  exact hid.symm

/-- A wallet that has not handed its coin on can open its authorization. -/
theorem held_eq_none_iff {coin : WalletCoin P} (hinv : CoinInv coin) (hcoin : s.coin = some coin) :
    s.held = none ↔ coin.outgoing.isSome = true := by
  constructor
  · intro hnone
    by_contra hout
    obtain ⟨capability, hcapability⟩ := Option.ne_none_iff_exists'.1 (mt hinv.capability.1 hout)
    obtain ⟨handoff, hhandoff⟩ := Option.ne_none_iff_exists'.1 (mt hinv.handoff.1 hout)
    cases hnone.symm.trans (held_of_coin hcoin hcapability hhandoff)
  · intro hout
    simp only [held, hcoin, Option.bind_some, hinv.capability.2 hout]

end WalletState

/-! ## The operations -/

namespace Settles

variable {s s' : WalletState P} {given : Option (CoinStatus P)}

theorem of_coin (h : s'.coin = s.coin) : Settles given s.account s'.account :=
  .kept (account_congr h)

/-- An update that leaves the state alone when it fails. -/
theorem of_update {α : Type} {x : Update String (WalletState P) α} (hatomic : x.Atomic s)
    (hok : ∀ a s', x s = .ok a s' → Settles given s.account s'.account) :
    Settles given s.account (x.stateAfter s).account := by
  rcases hatomic.stateAfter_eq with ⟨a, ha⟩ | hs
  · exact hok a _ ha
  · rw [hs]
    exact .kept rfl

/-- A coin that the given status reports. -/
theorem of_status {before : Option (Account P)} {status : CoinStatus P} {coin : WalletCoin P}
    (hcoin : s'.coin = some coin) {capability : Capability} {handoff : HandoffToken}
    (hcapability : coin.currentCapability = some capability)
    (hhandoff : coin.currentHandoff = some handoff)
    (hstatus : status.coinId = coin.keys.coinId ∧ status.signingPubkey = coin.keys.enclavePubkey)
    (hauth : status.authorization =
      authorization coin.keys.coinId (capabilityHash capability) handoff)
    (hcount : status.signatureCount = coin.history.length) :
    Settles (some status) before s'.account := by
  have hheld : s'.held = some ⟨coin.keys.coinId, capability, handoff⟩ :=
    held_of_coin hcoin hcapability hhandoff
  refine .reported status _ rfl (account_of_coin hcoin)
    { coinId := hstatus.1, signingPubkey := hstatus.2, held := ?_, handed := ?_ }
  · intro held hmem
    cases hheld.symm.trans hmem
    exact ⟨hauth, hcount⟩
  · intro hnone
    cases hheld.symm.trans hnone

theorem completeRegistration (hinv : WalletInv s) {status : CoinStatus P} {u : Unit}
    (hok : WalletState.completeRegistration status s = .ok u s') :
    Settles (some status) s.account s'.account := by
  obtain ⟨_, secret, capability, registration, keys, hpending, hkeys, rfl⟩ :=
    completeRegistration_ok hok
  obtain ⟨_, _, coinId, rfl⟩ := hinv.registration secret capability registration hpending
  obtain ⟨_, ⟨hid, hcount, hauth⟩, _, rfl⟩ := completeRegistration_eq_ok.1 hkeys
  exact of_status rfl rfl rfl ⟨hid, rfl⟩ hauth hcount

theorem beginFunding {draws : FundingDraws P} {network : NetworkId} {sourceSecret : P.SecretKey}
    {source : SourceUtxo P} {status : CoinStatus P}
    {amountSat delayBlocks feeRateSatVb maxFeeSat minimumReactionBlocks : Nat}
    {request : SignRequest P}
    (hok : WalletState.beginFunding draws network sourceSecret source status amountSat delayBlocks
      feeRateSatVb maxFeeSat minimumReactionBlocks s = .ok request s') :
    Settles (some status) s.account s'.account := by
  obtain ⟨_, coin, _, _, _, hcoin, _, _, _, _, _, rfl⟩ := beginFunding_ok hok
  refine .kept ?_
  unfold account held
  rw [hcoin]
  rfl

theorem completeFundingRecovery (hinv : WalletInv s) {status : CoinStatus P} {u : Unit}
    (hok : WalletState.completeFundingRecovery status s = .ok u s') :
    Settles (some status) s.account s'.account := by
  obtain ⟨nextCapability, secret, attempt, response, coin, recovery, funding, hp, hzero, hcoin,
    hstatus, hresponse, _, _, _, _, rfl⟩ := completeFundingRecovery_ok.1 hok
  obtain ⟨coin', hcoin', metadata, hattempt, _, hhash, _⟩ := hinv.recovery _ hp
  cases hcoin.symm.trans hcoin'
  have hlength : coin.history.length = 0 := hattempt.count.symm.trans hzero
  obtain ⟨_, hid, hkey⟩ := verifyStatus_eq_ok.1 hstatus
  obtain ⟨_, ⟨_, hcount, hauth⟩, _⟩ := verifySignResponse_eq_ok.1 hresponse
  have hauth' : status.authorization = authorization coin.keys.coinId
      (capabilityHash nextCapability) response.nextHandoff := by
    rw [hauth]
    exact congrArg₂ (fun coinId hash => authorization coinId hash response.nextHandoff)
      hattempt.coinId hhash
  have hcount' : status.signatureCount = (coin.history ++ [recovery]).length := by
    rw [hcount, List.length_append, hlength, List.length_singleton]
  exact of_status rfl rfl rfl ⟨hid, hkey⟩ hauth' hcount'

theorem markFundingBroadcast {txid : P.Txid} {u : Unit}
    (hok : WalletState.markFundingBroadcast txid s = .ok u s') :
    Settles given s.account s'.account := by
  obtain ⟨_, _, _, rfl⟩ := markFundingBroadcast_ok.1 hok
  refine .kept ?_
  unfold account held
  cases s.coin <;> rfl

theorem acceptTransfer {reader : PayloadReader P} {network : NetworkId} {request : TransferRequest}
    {envelope : TransferEnvelope} {status : CoinStatus P} {observed : ObservedFunding P}
    {minimumConfirmations minimumReactionBlocks : Nat} {accepted : Bool}
    (hok : WalletState.acceptTransfer reader network request envelope status observed
      minimumConfirmations minimumReactionBlocks s = .ok accepted s') :
    Settles (some status) s.account s'.account := by
  obtain ⟨_, _, ⟨_, _, _, _, _, rfl⟩ | ⟨_, coin, haccept, _, rfl⟩⟩ := acceptTransfer_ok.1 hok
  · exact .kept rfl
  · obtain ⟨_, incoming, payload, _, _, _, hacceptable, rfl⟩ := acceptCoin_eq_ok.1 haccept
    obtain ⟨_, _, _, _, _, hverify, _⟩ := hacceptable.withdrawal
    obtain ⟨⟨_, hid, hkey⟩, _, ⟨hauth, hcount, _⟩, _⟩ := verifyHistory_eq_ok.1 hverify
    exact of_status rfl rfl rfl ⟨hid, hkey⟩ hauth hcount

/-- The sender keeps one recovery of a coin for which one more was just signed. -/
theorem completeTransfer (hinv : WalletInv s) {draws : EnvelopeDraws P} {status : CoinStatus P}
    {envelope : TransferEnvelope}
    (hok : WalletState.completeTransfer draws status s = .ok envelope s') :
    Settles (some status) s.account s'.account := by
  obtain ⟨_, attempt, response, coin, _, _, index, retained, _, hpending, hcoin, _, _, _, hstatus,
    hresponse, _, _, _, hretained, _, _, rfl⟩ := completeTransfer_ok.1 hok
  obtain ⟨coin', hcoin', _, hattempt, _⟩ := hinv.recovery _ hpending
  cases hcoin.symm.trans hcoin'
  obtain ⟨_, hid, hkey⟩ := verifyStatus_eq_ok.1 hstatus
  obtain ⟨_, ⟨_, hcount, _⟩, _⟩ := verifySignResponse_eq_ok.1 hresponse
  have hsigned : status.signatureCount = coin.history.length + 1 :=
    hcount.trans (congrArg (· + 1) hattempt.count)
  have hlast : index < coin.history.length := (List.getElem?_eq_some_iff.1 hretained).1
  refine .reported status _ rfl (account_of_coin rfl)
    { coinId := hid, signingPubkey := hkey, held := nofun, handed := fun _ => ?_ }
  change 1 < status.signatureCount
  omega

/-- What every operation does to the account. -/
theorem after (hinv : WalletInv s) (op : Operation P) :
    Settles op.status s.account (s.after op).account := by
  cases op with
  | beginRegistration draws =>
    refine of_update (beginRegistration_atomic draws s) fun _ _ hok => ?_
    obtain ⟨_, _, ⟨_, _, _, _, rfl, _⟩ | ⟨_, rfl, _⟩⟩ := beginRegistration_ok hok
    · exact .kept rfl
    · exact of_coin rfl
  | completeRegistration status =>
    exact of_update (completeRegistration_atomic status s) fun _ _ => completeRegistration hinv
  | beginFunding => exact of_update (by apply beginFunding_atomic) fun _ _ => beginFunding
  | recordSignResponse response =>
    rcases after_recordSignResponse s response with hs | ⟨_, _, _, hs⟩
    · rw [hs]
      exact .kept rfl
    · exact of_coin (by rw [hs])
  | completeFundingRecovery status =>
    exact of_update (completeFundingRecovery_atomic status s)
      fun _ _ => completeFundingRecovery hinv
  | markFundingBroadcast txid =>
    exact of_update (markFundingBroadcast_atomic txid s) fun _ _ => markFundingBroadcast
  | beginTransferRequest =>
    refine of_update (by apply beginTransferRequest_atomic) fun _ _ hok => ?_
    obtain ⟨_, _, _, _, ⟨_, _, _, rfl⟩ | ⟨_, _, _, rfl⟩⟩ := beginTransferRequest_ok hok
    · exact .kept rfl
    · exact of_coin rfl
  | beginTransfer =>
    refine of_update (by apply beginTransfer_atomic) fun _ _ hok => ?_
    obtain ⟨_, _, _, _, _, _, _, _, _, _, _, _, _, _, _, _, _, _, _, _, rfl⟩ := beginTransfer_ok.1 hok
    exact of_coin rfl
  | completeTransfer draws status =>
    exact of_update (completeTransfer_atomic draws status s) fun _ _ => completeTransfer hinv
  | acceptTransfer => exact of_update (by apply acceptTransfer_atomic) fun _ _ => acceptTransfer

/-- A funding through Bitcoin Core does not touch the account. -/
theorem coreFunds {drawn : Option Capability} (h : CoreFunds s given drawn s') :
    Settles given s.account s'.account := by
  cases h with
  | funding network prepared amountSat delayBlocks feeRateSatVb maxFeeSat hcoin =>
    refine .kept ?_
    unfold account held
    rw [hcoin]
    rfl
  | attempt => exact of_coin rfl

end Settles

namespace World

variable {ι : Type} {w w' : World ι P LIMIT} {i : ι} {s s' : WalletState P} {coinId : CoinId}

/-! ## Runs -/

namespace Attested

theorem extend (h : w.Attested s) (hextends : Extends w w') : w'.Attested s := by
  intro account haccount
  obtain ⟨status, hreported, hreports⟩ := h account haccount
  obtain ⟨later, hlater⟩ := hextends.calls
  exact ⟨status, hlater ▸ hreported.append later, hreports⟩

/-- The wallet goes on with a status that the signer reported. -/
theorem settles (h : w.Attested s) {given : Option (CoinStatus P)}
    (hsettles : Settles given s.account s'.account)
    (hgiven : ∀ status, given = some status → Signer.Reported LIMIT w.calls status) :
    w.Attested s' := by
  intro account haccount
  cases hsettles with
  | kept same => exact h account (same ▸ haccount)
  | reported status _ given_eq account_eq reports =>
    cases account_eq.symm.trans haccount
    exact ⟨status, hgiven status given_eq, reports⟩

end Attested

/-- The record of the signer that an account was taken from, and what was issued since. -/
structure TakenFrom (w : World ι P LIMIT) (account : Account P) (request : RegisterRequest P)
    (log rest : List (Signer.Issuance P)) (record : Signer.Coin P) : Prop where
  log_eq : w.log account.coinId = log ++ rest
  lookup_eq : w.signer.coins.lookup account.coinId = some record
  record_eq : record = Signer.Coin.summary record.signingKey request (log ++ rest)
  signingKey : P.xOnlyPublicKey record.signingKey = account.enclavePubkey
  held : ∀ held ∈ account.held, held.authorization =
    Rotation.key Signer.committed (Signer.initialAuthorization request) log ∧
      log.length = account.count
  handed : account.held = none → account.count < log.length

theorem Attested.takenFrom (h : w.Attested s) {account : Account P}
    (haccount : s.account = some account) :
    ∃ request log rest record, w.TakenFrom account request log rest record := by
  obtain ⟨status, hreported, hid, hkey, hheld, hhanded⟩ := h account haccount
  obtain ⟨request, log, rest, record, _, hlog, hlookup, hrecord, hkey', hauth, hcount⟩ :=
    hreported.spec
  rw [hid] at hlog hlookup
  refine ⟨request, log, rest, record, hlog, hlookup, hrecord, hkey'.symm.trans hkey, ?_, ?_⟩
  · intro held hmem
    obtain ⟨hsame, hsigned⟩ := hheld held hmem
    exact ⟨hsame.symm.trans hauth, hcount.symm.trans hsigned⟩
  · intro hnone
    rw [← hcount]
    exact hhanded hnone

/-- The wallet that holds the opening of an account owns the coin if nothing was issued since. -/
theorem TakenFrom.owns_iff (hcf : P.CollisionFree) (hfresh : Fresh w) {account : Account P}
    (haccount : (w.disk i).account = some account) {request : RegisterRequest P}
    {log rest : List (Signer.Issuance P)} {record : Signer.Coin P}
    (h : w.TakenFrom account request log rest record) {held : Held} (hheld : account.held = some held) :
    w.Owns i account.coinId ↔ rest = [] := by
  have hopen : (w.disk i).held = some held := (held_of_account haccount).trans hheld
  have hauth := (h.held held hheld).1
  have hrecord : record.authorization =
      Rotation.key Signer.committed (Signer.initialAuthorization request) (log ++ rest) := by
    rw [h.record_eq]
    rfl
  constructor
  · rintro ⟨held', record', hheld', _, hlookup', hauth'⟩
    cases hopen.symm.trans hheld'
    cases h.lookup_eq.symm.trans hlookup'
    have hlog := hfresh account.coinId
    rw [h.log_eq] at hlog
    have hnodup : (Signer.initialAuthorization request ::
        (log ++ rest).map Signer.committed).Nodup := hlog.nodup hcf
    exact Rotation.key_unchanged hnodup (hauth.symm.trans (hauth'.trans hrecord))
  · rintro rfl
    rw [List.append_nil] at hrecord
    exact ⟨held, record, hopen, coinId_of_held haccount hopen, h.lookup_eq,
      hauth.trans hrecord.symm⟩

/-- An account counts all that was issued exactly if its wallet owns the coin. -/
theorem TakenFrom.complete (hcf : P.CollisionFree) (hfresh : Fresh w) {account : Account P}
    (haccount : (w.disk i).account = some account) {request : RegisterRequest P}
    {log rest : List (Signer.Issuance P)} {record : Signer.Coin P}
    (h : w.TakenFrom account request log rest record) :
    account.count ≤ (w.log account.coinId).length ∧
      (w.Owns i account.coinId ↔ account.count = (w.log account.coinId).length) := by
  rw [h.log_eq, List.length_append]
  cases hheld : account.held with
  | none =>
    have hcount := h.handed hheld
    refine ⟨by omega, fun ⟨_, _, hopen, _⟩ => ?_, fun _ => by omega⟩
    cases ((held_of_account haccount).trans hheld).symm.trans hopen
  | some held =>
    have hcount := (h.held held hheld).2
    rw [h.owns_iff hcf hfresh haccount hheld, ← List.length_eq_zero_iff]
    omega

/-- The owner has not handed its coin on. -/
theorem Owns.outgoing_eq_none (howns : w.Owns i coinId) (hinv : WalletInv (w.disk i))
    {coin : WalletCoin P} (hcoin : (w.disk i).coin = some coin) :
    coin.outgoing = none ∧ coin.keys.coinId = coinId := by
  obtain ⟨held, _, hheld, rfl, _⟩ := howns
  obtain ⟨coin', hcoin', hid, _⟩ := held_eq_some.1 hheld
  cases hcoin.symm.trans hcoin'
  refine ⟨Option.not_isSome_iff_eq_none.1 fun hout => ?_, hid⟩
  cases ((held_eq_none_iff (hinv.coin coin hcoin) hcoin).2 hout).symm.trans hheld

variable [DecidableEq ι]

/-- In every step, the accounts of the wallets stay reported. -/
theorem Step.attested (h : Step w w') (hinv : Inv w) (hmem : ∀ j, w.Attested (w.mem j))
    (hdisk : ∀ j, w.Attested (w.disk j)) :
    (∀ j, w'.Attested (w'.mem j)) ∧ ∀ j, w'.Attested (w'.disk j) := by
  have hextends := h.extends
  have hset : ∀ {i : ι} {s : WalletState P} {f : ι → WalletState P}, w'.Attested s →
      (∀ j, w.Attested (f j)) → ∀ j, w'.Attested (Function.update f i s j) := by
    intro i s f hs hf j
    by_cases hj : j = i
    · rw [hj, Function.update_self]
      exact hs
    · rw [Function.update_of_ne hj]
      exact (hf j).extend hextends
  have hkeep : ∀ j, w'.Attested (w.disk j) := fun j => (hdisk j).extend hextends
  cases h with
  | operate i op response status =>
    exact ⟨hset (((hmem i).settles (.after (hinv.mem i).wallet op) status).extend hextends) hmem,
      hkeep⟩
  | fundCore i given drawn s funds status =>
    exact ⟨hset (((hmem i).settles (.coreFunds funds) status).extend hextends) hmem, hkeep⟩
  | save i =>
    exact ⟨fun j => (hmem j).extend hextends, hset ((hmem i).extend hextends) hdisk⟩
  | crash i => exact ⟨hset (hkeep i) hmem, hkeep⟩
  | reply i request response =>
    have hsettles : Settles none (w.mem i).account
        ((w.mem i).after (.recordSignResponse response)).account :=
      .after (hinv.mem i).wallet (.recordSignResponse response)
    exact ⟨hset (((hmem i).settles hsettles nofun).extend hextends) hmem, hkeep⟩
  | _ => exact ⟨fun j => (hmem j).extend hextends, hkeep⟩

/-- The accounts of the wallets were reported by the signer, in every run. -/
theorem Reachable.attested (hsecret : P.SecretCodec) (h : Reachable w) (hfresh : Fresh w) :
    (∀ j, w.Attested (w.mem j)) ∧ ∀ j, w.Attested (w.disk j) := by
  induction h with
  | refl => exact ⟨fun _ _ => nofun, fun _ _ => nofun⟩
  | tail hsteps hstep ih =>
    have hfresh' := hstep.extends.fresh hfresh
    obtain ⟨hmem, hdisk⟩ := ih hfresh'
    exact hstep.attested (Reachable.inv hsecret hsteps hfresh') hmem hdisk

/-- What a saved history counts of the signatures that were issued, and the record at the signer. -/
theorem Reachable.counts (hsecret : P.SecretCodec) (hcf : P.CollisionFree) (h : Reachable w)
    (hfresh : Fresh w) {coin : WalletCoin P} (hcoin : (w.disk i).coin = some coin) :
    (coin.history.length ≤ (w.log coin.keys.coinId).length ∧
      (w.Owns i coin.keys.coinId ↔
        coin.history.length = (w.log coin.keys.coinId).length)) ∧
      ∃ live, w.signer.status coin.keys.coinId = .ok live ∧
        live.signingPubkey = coin.keys.enclavePubkey ∧
        live.signatureCount = (w.log coin.keys.coinId).length := by
  have haccount := account_of_coin hcoin
  obtain ⟨request, log, rest, record, htaken⟩ :=
    ((h.attested hsecret hfresh).2 i).takenFrom haccount
  refine ⟨htaken.complete hcf hfresh haccount, record.status coin.keys.coinId,
    Signer.status_ok.2 ⟨record, htaken.lookup_eq, rfl⟩, htaken.signingKey, ?_⟩
  rw [htaken.record_eq, (htaken.log_eq : w.log coin.keys.coinId = log ++ rest)]
  rfl

end World

end Tinylayer
