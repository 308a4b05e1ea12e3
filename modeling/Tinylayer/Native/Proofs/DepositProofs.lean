import Tinylayer.Native.Proofs.BroadcastProofs

/-!
# No deposit is spent twice

On a chain that lists no output which a confirmed transaction spends, the funding and the sweeps of
a wallet never conflict: a deposit that one of them has reserved is not available to the others, and
a sweep is only replaced after it was confirmed.
-/

namespace Tinylayer

open Durable

variable {P : Platform} {E : Type} {services : Services P E} {reader : PayloadReader P}
  {config : Config} {fundingSecret : P.SecretKey} {w v : CliWorld P E}
  {confirmed : E → P.Tx → Prop}

/-- What is confirmed stays confirmed, only what is confirmed is shown with confirmations, and no
output is listed that a confirmed transaction spends. -/
structure StableChain (services : Services P E) (confirmed : E → P.Tx → Prop) : Prop where
  stays : ∀ {e : E} {query : Query P} {reply : query.Reply} {e' : E} {transaction : P.Tx},
    services e query reply e' → confirmed e transaction → confirmed e' transaction
  shown : ∀ {e : E} {txid : P.Txid} {observed : TransactionObservation P} {e' : E},
    services e (.transaction txid) (.ok (some observed)) e' → 0 < observed.confirmations →
    confirmed e' observed.transaction
  unlisted : ∀ {e : E} {address : P.Address} {sources : List (SourceUtxo P)} {e' : E}
      {transaction : P.Tx}, services e (.confirmedSourceUtxos address) (.ok sources) e' →
    confirmed e' transaction → ∀ source ∈ sources, source.outpoint ∉ spentOutputs transaction

/-- Two transactions that are the same or spend different outputs. -/
def Compatible (a b : P.Tx) : Prop :=
  a = b ∨ List.Disjoint (spentOutputs a) (spentOutputs b)

theorem Compatible.refl (a : P.Tx) : Compatible a a := Or.inl rfl

theorem Compatible.symm {a b : P.Tx} (h : Compatible a b) : Compatible b a :=
  h.imp Eq.symm List.Disjoint.symm

/-- A funding transaction or a sweep is handed to the chain. -/
def SpendsDeposits (event : CliEvent P) (transaction : P.Tx) : Prop :=
  BroadcastsFunding event transaction ∨ BroadcastsSweep event transaction

/-- The transaction is the one of the saved funding. -/
def IsFunding (s : NativeWalletState P) (transaction : P.Tx) : Prop :=
  ∃ funding, s.wallet.funding = some funding ∧ funding.transaction = transaction

/-- The transaction is the one of the saved sweep. -/
def IsSweep (s : NativeWalletState P) (transaction : P.Tx) : Prop :=
  ∃ sweep, s.sourceSweep = some sweep ∧ sweep.transaction = transaction

/-- The transaction is the one of the saved sweep, which was armed. -/
def IsArmedSweep (s : NativeWalletState P) (transaction : P.Tx) : Prop :=
  ∃ sweep, s.sourceSweep = some sweep ∧ sweep.stage ≠ .prepared ∧ sweep.transaction = transaction

/-- What holds of the deposits at any time. -/
structure DepositsInv (config : Config) (confirmed : E → P.Tx → Prop) (w : CliWorld P E) :
    Prop where
  shown : ∀ transaction, Confirmed config w transaction → confirmed w.env transaction
  listed : ∀ input transaction, Listed w input → confirmed w.env transaction →
    input ∉ spentOutputs transaction
  place : ∀ event ∈ w.log, ∀ transaction, SpendsDeposits event transaction →
    IsFunding w.saved transaction ∨ IsArmedSweep w.saved transaction ∨
      Confirmed config w transaction
  funding : ∀ event ∈ w.log, ∀ transaction, SpendsDeposits event transaction →
    ∀ funding, IsFunding w.saved funding → Compatible transaction funding
  sweep : ∀ event ∈ w.log, ∀ transaction, SpendsDeposits event transaction →
    ∀ sweep, IsSweep w.saved sweep → Compatible transaction sweep
  apart : ∀ event ∈ w.log, ∀ event' ∈ w.log, ∀ transaction transaction',
    SpendsDeposits event transaction → SpendsDeposits event' transaction' →
    Compatible transaction transaction'

/-- The saved funding and the saved sweep spend different outputs. -/
theorem NativeInv.compatible {s : NativeWalletState P} (h : NativeInv config s)
    {funding sweep : P.Tx} (hfunding : IsFunding s funding) (hsweep : IsSweep s sweep) :
    Compatible funding sweep := by
  obtain ⟨journal, hjournal, rfl⟩ := hfunding
  obtain ⟨saved, hsaved, rfl⟩ := hsweep
  refine Or.inr fun input hinput hspent => ?_
  exact h.reserved saved hsaved input (NativeWalletState.mem_fundingInputs.2
    ⟨journal, hjournal, hinput⟩) hspent

theorem IsArmedSweep.isSweep {s : NativeWalletState P} {transaction : P.Tx}
    (h : IsArmedSweep s transaction) : IsSweep s transaction := by
  obtain ⟨sweep, hsweep, _, htransaction⟩ := h
  exact ⟨sweep, hsweep, htransaction⟩

/-- The transaction is the one of the saved funding, or of the saved and armed sweep. -/
def IsPlaced (s : NativeWalletState P) (transaction : P.Tx) : Prop :=
  IsFunding s transaction ∨ IsArmedSweep s transaction

theorem NativeInv.compatible_funding {s : NativeWalletState P} (h : NativeInv config s)
    {transaction funding : P.Tx} (hplaced : IsPlaced s transaction)
    (hfunding : IsFunding s funding) : Compatible transaction funding := by
  rcases hplaced with ⟨journal, hjournal, rfl⟩ | harmed
  · obtain ⟨saved, hsaved, rfl⟩ := hfunding
    obtain rfl := Option.some.inj (hjournal.symm.trans hsaved)
    exact .refl _
  · exact (h.compatible hfunding harmed.isSweep).symm

theorem NativeInv.compatible_sweep {s : NativeWalletState P} (h : NativeInv config s)
    {transaction sweep : P.Tx} (hplaced : IsPlaced s transaction) (hsweep : IsSweep s sweep) :
    Compatible transaction sweep := by
  rcases hplaced with hfunding | ⟨journal, hjournal, _, rfl⟩
  · exact h.compatible hfunding hsweep
  · obtain ⟨saved, hsaved, rfl⟩ := hsweep
    obtain rfl := Option.some.inj (hjournal.symm.trans hsaved)
    exact .refl _

theorem NativeInv.compatible_placed {s : NativeWalletState P} (h : NativeInv config s)
    {transaction transaction' : P.Tx} (hplaced : IsPlaced s transaction)
    (hplaced' : IsPlaced s transaction') : Compatible transaction transaction' := by
  rcases hplaced' with hfunding | harmed
  · exact h.compatible_funding hplaced hfunding
  · exact h.compatible_sweep hplaced harmed.isSweep

/-- What is handed to the chain is in its place in the saved state. -/
theorem isPlaced_of_allows {event : CliEvent P} {transaction : P.Tx} {u : CliWorld P E}
    (h : SpendsDeposits event transaction) (hallows : (cliContract E config).Allows u event) :
    IsPlaced u.saved transaction := by
  rcases h with hfunding | ⟨hasked, hcommand⟩
  · obtain ⟨funding, hfunding, _, htransaction⟩ := secured_of_broadcast hfunding hallows
    exact Or.inl ⟨funding, hfunding, htransaction⟩
  · have hpermitted : Permitted _ _ _ := hallows.of_asked hasked
    cases hc : event.command with
    | sweep =>
      simp only [hc, Permitted] at hpermitted
      obtain ⟨sweep, hsweep, hstage, htransaction⟩ := hpermitted
      exact Or.inr ⟨sweep, hsweep, by simp [hstage], htransaction⟩
    | _ =>
      rw [hc] at hcommand
      exact hcommand.elim

theorem not_spendsDeposits_of_wrote {event : CliEvent P} {state : NativeWalletState P}
    (h : event.Wrote state) {transaction : P.Tx} : ¬ SpendsDeposits event transaction := by
  rintro (hbroadcast | ⟨⟨reply, hasked⟩, _⟩)
  · exact not_broadcasts_of_wrote h hbroadcast
  · exact absurd (h.symm.trans hasked) (by simp)

namespace DepositsInv

variable {u : CliWorld P E} {c : Command P}

/-- Listed outputs are not spent by what was confirmed. -/
theorem compatible_of_listed (h : DepositsInv config confirmed u) {transaction fresh : P.Tx}
    (hconfirmed : Confirmed config u transaction)
    (hlisted : ∀ input ∈ spentOutputs fresh, Listed u input) : Compatible transaction fresh :=
  Or.inr fun input hspent hinput =>
    h.listed input transaction (hlisted input hinput) (h.shown transaction hconfirmed) hspent

/-! ### Writes -/

/-- A change of the funding journal keeps its transaction, or makes one of outputs that are listed. -/
theorem funding_of_change {state : NativeWalletState P} (h : Change config c u state)
    (hexplorer : config.chain.isExplorer = true) {funding : P.Tx} (hfunding : IsFunding state funding) :
    IsFunding u.saved funding ∨ u.saved.wallet.funding = none ∧
      state.sourceSweep = u.saved.sourceSweep ∧
      ∀ input ∈ spentOutputs funding, Listed u input := by
  cases h with
  | wallet hchange =>
    obtain ⟨journal, hjournal, rfl⟩ := hfunding
    rcases hchange.funding.transaction hjournal with hnone | ⟨old, hold, htransaction⟩
    · exact Or.inr ⟨hnone, rfl, hchange.listed hexplorer hnone journal hjournal⟩
    · exact Or.inl ⟨old, hold, htransaction⟩
  | exit => exact Or.inl hfunding
  | sweep => exact Or.inl hfunding

/-- A change of the sweep journal keeps its transaction, or makes one of outputs that are listed
once the transaction before it was confirmed. -/
theorem sweep_of_change {state : NativeWalletState P} (h : Change config c u state) {sweep : P.Tx}
    (hsweep : IsSweep state sweep) :
    IsSweep u.saved sweep ∨ (∀ old, IsArmedSweep u.saved old → Confirmed config u old) ∧
      state.wallet = u.saved.wallet ∧ ∀ input ∈ spentOutputs sweep, Listed u input := by
  cases h with
  | wallet => exact Or.inl hsweep
  | exit => exact Or.inl hsweep
  | sweep hstep =>
    obtain ⟨journal, hjournal, rfl⟩ := hsweep
    obtain rfl := Option.some.inj hjournal
    obtain ⟨saved, hsaved⟩ : ∃ saved, u.saved.sourceSweep = saved := ⟨_, rfl⟩
    rw [hsaved] at hstep
    cases hstep with
    | prepare hreplaced _ hlisted =>
      refine Or.inr ⟨?_, rfl, hlisted⟩
      rintro old ⟨before, hbefore, hstage, rfl⟩
      exact (hreplaced before (hsaved.symm.trans hbefore)).resolve_left hstage
    | arm => exact Or.inl ⟨_, hsaved, rfl⟩
    | observe => exact Or.inl ⟨_, hsaved, rfl⟩

/-- What was handed to the chain keeps its place, or was confirmed. -/
theorem place_of_change {state : NativeWalletState P} (h : Change config c u state)
    {transaction : P.Tx} (hplaced : IsPlaced u.saved transaction) :
    IsPlaced state transaction ∨ Confirmed config u transaction := by
  cases h with
  | exit => exact Or.inl hplaced
  | @wallet wallet hchange =>
    rcases hplaced with ⟨journal, hjournal, rfl⟩ | harmed
    · left
      left
      obtain ⟨later, hlater⟩ : ∃ later, wallet.funding = later := ⟨_, rfl⟩
      have hstep := hchange.funding
      rw [hjournal, hlater] at hstep
      cases hstep with
      | same => exact ⟨journal, hlater, rfl⟩
      | secured => exact ⟨_, hlater, rfl⟩
      | broadcast => exact ⟨_, hlater, rfl⟩
    · exact Or.inl (Or.inr harmed)
  | sweep hstep =>
    rcases hplaced with hfunding | ⟨before, hbefore, hstage, rfl⟩
    · exact Or.inl (Or.inl hfunding)
    · rw [hbefore] at hstep
      cases hstep with
      | prepare hreplaced => exact Or.inr ((hreplaced before rfl).resolve_left hstage)
      | arm => exact Or.inl (Or.inr ⟨_, rfl, by simp, rfl⟩)
      | observe => exact Or.inl (Or.inr ⟨_, rfl, by simp, rfl⟩)

theorem wrote (h : DepositsInv config confirmed u) {state : NativeWalletState P}
    (hstate : NativeInv config state) (hchange : Change config c u state)
    (hexplorer : config.chain.isExplorer = true) :
    DepositsInv config confirmed (u.wrote c state) := by
  have hold : ∀ event ∈ (u.wrote c state).log, ∀ transaction, SpendsDeposits event transaction →
      event ∈ u.log := by
    intro event hevent transaction hspends
    rcases List.mem_append.1 hevent with hevent | hevent
    · exact hevent
    · obtain rfl := List.mem_singleton.1 hevent
      have hwrote : Event.Wrote (⟨c, u.saved, .wrote state⟩ : CliEvent P) state := rfl
      exact absurd hspends (not_spendsDeposits_of_wrote hwrote)
  have hconfirmed : ∀ transaction, Confirmed config u transaction →
      Confirmed config (u.wrote c state) transaction := fun transaction ht =>
    ht.of_prefix (List.prefix_append _ _)
  refine { shown := ?_, listed := ?_, place := ?_, funding := ?_, sweep := ?_, apart := ?_ }
  · rintro transaction ⟨event, hevent, observed, hasked, hrest⟩
    rcases List.mem_append.1 hevent with hevent | hevent
    · exact h.shown transaction ⟨event, hevent, observed, hasked, hrest⟩
    · obtain rfl := List.mem_singleton.1 hevent
      cases hasked
  · rintro input transaction ⟨event, address, sources, hlast, hasked, _⟩
    rw [World.wrote_log, List.getLast?_concat] at hlast
    obtain rfl := Option.some.inj hlast
    cases hasked
  · intro event hevent transaction hspends
    rw [← or_assoc]
    rcases or_assoc.2 (h.place event (hold event hevent transaction hspends) transaction hspends)
      with hplaced | hshown
    · exact (place_of_change hchange hplaced).imp_right (hconfirmed transaction)
    · exact Or.inr (hconfirmed transaction hshown)
  · intro event hevent transaction hspends funding hfunding
    have hevent := hold event hevent transaction hspends
    rcases funding_of_change hchange hexplorer hfunding with hsame | ⟨hnone, hsweep, hlisted⟩
    · exact h.funding event hevent transaction hspends funding hsame
    · rcases h.place event hevent transaction hspends with ⟨journal, hjournal, _⟩ | harmed | hshown
      · rw [hnone] at hjournal
        cases hjournal
      · have harmed' : IsArmedSweep state transaction := by rwa [IsArmedSweep, hsweep]
        exact hstate.compatible_funding (Or.inr harmed') hfunding
      · exact h.compatible_of_listed hshown hlisted
  · intro event hevent transaction hspends sweep hsweep
    have hevent := hold event hevent transaction hspends
    rcases sweep_of_change hchange hsweep with hsame | ⟨hreplaced, hwallet, hlisted⟩
    · exact h.sweep event hevent transaction hspends sweep hsame
    · rcases h.place event hevent transaction hspends with hfunding | harmed | hshown
      · have hfunding' : IsFunding state transaction := by rwa [IsFunding, hwallet]
        exact hstate.compatible hfunding' hsweep
      · exact h.compatible_of_listed (hreplaced transaction harmed) hlisted
      · exact h.compatible_of_listed hshown hlisted
  · intro event hevent event' hevent' transaction transaction' hspends hspends'
    exact h.apart event (hold event hevent transaction hspends) event'
      (hold event' hevent' transaction' hspends') transaction transaction' hspends hspends'

/-! ### Questions -/

theorem asked (h : DepositsInv config confirmed u) (hinv : NativeInv config u.saved)
    (hchain : StableChain services confirmed) (hmin : 0 < config.minConfirmations)
    {query : Query P} {reply : query.Reply} {e : E} (hpermitted : Permitted c u.saved query)
    (hanswer : services u.env query reply e) :
    DepositsInv config confirmed (u.asked c query reply e) := by
  obtain ⟨new, hnew⟩ : ∃ new : CliEvent P, new = ⟨c, u.saved, .asked query reply⟩ := ⟨_, rfl⟩
  have hcases : ∀ event ∈ (u.asked c query reply e).log, event ∈ u.log ∨ event = new := by
    intro event hevent
    rw [hnew]
    simpa using hevent
  have hplaced : ∀ transaction, SpendsDeposits new transaction → IsPlaced u.saved transaction := by
    intro transaction hspends
    have hallows : (cliContract E config).Allows u new := by
      rw [hnew]
      exact hpermitted
    exact isPlaced_of_allows hspends hallows
  -- what is asked now against what was handed to the chain before
  have hagainst : ∀ event ∈ u.log, ∀ transaction transaction', SpendsDeposits event transaction →
      SpendsDeposits new transaction' → Compatible transaction transaction' := by
    intro event hevent transaction transaction' hspends hspends'
    rcases hplaced transaction' hspends' with hfunding | harmed
    · exact h.funding event hevent transaction hspends transaction' hfunding
    · exact h.sweep event hevent transaction hspends transaction' harmed.isSweep
  refine { shown := ?_, listed := ?_, place := ?_, funding := ?_, sweep := ?_, apart := ?_ }
  · rintro transaction ⟨event, hevent, observed, hasked, hsame, hdeep⟩
    rcases hcases event hevent with hevent | rfl
    · exact hchain.stays hanswer (h.shown transaction ⟨event, hevent, observed, hasked, hsame, hdeep⟩)
    · rw [hnew] at hasked
      cases hasked
      rw [← hsame]
      exact hchain.shown hanswer (Nat.lt_of_lt_of_le hmin hdeep)
  · rintro input transaction ⟨event, address, sources, hlast, hasked, source, hsource, rfl⟩
      hconfirmed
    rw [World.asked_log, List.getLast?_concat] at hlast
    obtain rfl := Option.some.inj hlast
    cases hasked
    exact hchain.unlisted hanswer hconfirmed source hsource
  · intro event hevent transaction hspends
    rcases hcases event hevent with hevent | rfl
    · exact (h.place event hevent transaction hspends).imp_right
        fun hlater => hlater.imp_right fun hshown => hshown.of_prefix (List.prefix_append _ _)
    · exact or_assoc.1 (Or.inl (hplaced transaction hspends))
  · intro event hevent transaction hspends funding hfunding
    rcases hcases event hevent with hevent | rfl
    · exact h.funding event hevent transaction hspends funding hfunding
    · exact hinv.compatible_funding (hplaced transaction hspends) hfunding
  · intro event hevent transaction hspends sweep hsweep
    rcases hcases event hevent with hevent | rfl
    · exact h.sweep event hevent transaction hspends sweep hsweep
    · exact hinv.compatible_sweep (hplaced transaction hspends) hsweep
  · intro event hevent event' hevent' transaction transaction' hspends hspends'
    rcases hcases event hevent with hevent | rfl <;> rcases hcases event' hevent' with hevent' | rfl
    · exact h.apart event hevent event' hevent' transaction transaction' hspends hspends'
    · exact hagainst event hevent transaction transaction' hspends hspends'
    · exact (hagainst event' hevent' transaction' transaction hspends' hspends).symm
    · exact hinv.compatible_placed (hplaced transaction hspends) (hplaced transaction' hspends')

theorem of_log_nil (h : w.log = []) : DepositsInv config confirmed w where
  shown := by simp [Confirmed, h]
  listed := by simp [Listed, h]
  place := by simp [h]
  funding := by simp [h]
  sweep := by simp [h]
  apart := by simp [h]

theorem of_guarded (h : Guarded services (cliContract E config) w v) (hw : w.log = [])
    (hchain : StableChain services confirmed) (hexplorer : config.chain.isExplorer = true)
    (hmin : 0 < config.minConfirmations) : DepositsInv config confirmed v := by
  refine h.keeps (DepositsInv config confirmed) (of_log_nil hw) ?_ ?_
  · intro u c state _ hwrite hu
    exact hu.wrote hwrite.1 hwrite.2.2 hexplorer
  · intro u c query reply e hinv hask hanswer hu
    exact hu.asked hinv hchain hmin hask hanswer

end DepositsInv

/-- A sweep that was armed is only replaced after the chain has shown it deep enough. -/
theorem Change.sweep_replaced {c : Command P} {u : CliWorld P E} {state : NativeWalletState P}
    (h : Change config c u state) {sweep : SourceSweepJournal P}
    (hsweep : u.saved.sourceSweep = some sweep) (hstage : sweep.stage ≠ .prepared) :
    (∃ stage, state.sourceSweep = some { sweep with stage }) ∨
      Confirmed config u sweep.transaction := by
  cases h with
  | wallet => exact Or.inl ⟨sweep.stage, hsweep⟩
  | exit => exact Or.inl ⟨sweep.stage, hsweep⟩
  | sweep hstep =>
    rw [hsweep] at hstep
    cases hstep with
    | prepare hreplaced => exact Or.inr ((hreplaced sweep rfl).resolve_left hstage)
    | arm => exact Or.inl ⟨_, rfl⟩
    | observe => exact Or.inl ⟨_, rfl⟩

/-- The saved funding and the saved sweep never share a deposit, two different transactions that are
handed to the chain never do, and a sweep that was armed is replaced only once it was confirmed. -/
theorem deposits_spent_once (hsecret : P.SecretCodec) (hchain : StableChain services confirmed)
    (hexplorer : config.chain.isExplorer = true) (hw : Initialized config fundingSecret w)
    (h : CliLife services reader config w v) :
    (∀ event ∈ v.log, ∀ state, event.Wrote state → ∀ sweep ∈ state.sourceSweep,
      ∀ input ∈ state.fundingInputs, input ∉ spentOutputs sweep.transaction) ∧
    (∀ event ∈ v.log, ∀ event' ∈ v.log, ∀ transaction transaction',
      SpendsDeposits event transaction → SpendsDeposits event' transaction' →
      transaction ≠ transaction' →
      List.Disjoint (spentOutputs transaction) (spentOutputs transaction')) ∧
    ∀ before event after state, v.log = before ++ event :: after → event.Wrote state →
      ∀ sweep, event.saved.sourceSweep = some sweep → sweep.stage ≠ .prepared →
      (∃ stage, state.sourceSweep = some { sweep with stage }) ∨
        ∃ earlier ∈ before, ∃ observed : TransactionObservation P,
          earlier.action = .asked (.transaction (P.computeTxid sweep.transaction))
            (.ok (some observed)) ∧
          observed.transaction = sweep.transaction ∧
          config.minConfirmations ≤ observed.confirmations := by
  have hguarded := hw.guarded hsecret h
  have hmin := Config.minConfirmations_pos hw.config
  refine ⟨?_, ?_, ?_⟩
  · intro event hevent state hwrote
    obtain ⟨before, after, hlog⟩ := List.append_of_mem hevent
    obtain ⟨_, _, _, _, _, hallows⟩ := hguarded.allows hw.log hlog
    obtain ⟨hinv, _⟩ := hallows.of_wrote hwrote
    exact hinv.reserved
  · intro event hevent event' hevent' transaction transaction' hspends hspends' hne
    have hinv := DepositsInv.of_guarded hguarded hw.log hchain hexplorer hmin
    exact (hinv.apart event hevent event' hevent' transaction transaction' hspends
      hspends').resolve_left hne
  · intro before event after state hlog hwrote sweep hsweep hstage
    obtain ⟨u, _, _, hbefore, hsaved, hallows⟩ := hguarded.allows hw.log hlog
    obtain ⟨_, _, hchange⟩ := hallows.of_wrote hwrote
    rw [← hsaved] at hsweep
    rcases hchange.sweep_replaced hsweep hstage with hkept | hshown
    · exact Or.inl hkept
    · rw [Confirmed, hbefore] at hshown
      exact Or.inr hshown

/-! ## A life -/

namespace Backend

theorem enclave_confirmed {α : Type} (self : Backend P)
    (call : Update Signer.Error (Signer P 1) α) :
    (self.enclave call).2.confirmed = self.confirmed := by
  unfold enclave
  split
  · split <;> rfl
  · rfl

/-- What is confirmed stays confirmed. -/
theorem confirmed_subset (draws : Signer.Draws P) (self : Backend P) (query : Query P) :
    self.confirmed ⊆ (self.answer draws query).2.confirmed := by
  have henclave : ∀ {α : Type} (call : Update Signer.Error (Signer P 1) α),
      self.confirmed ⊆ (self.enclave call).2.confirmed := by
    intro α call
    rw [enclave_confirmed]
    exact List.Subset.refl _
  cases query with
  | connectEnclave => exact henclave _
  | status => exact henclave _
  | register => exact henclave _
  | sign => exact henclave _
  | broadcastFunding => exact List.subset_append_left _ _
  | broadcastExact => exact List.subset_append_left _ _
  | _ => exact List.Subset.refl _

theorem stableChain (draws : Signer.Draws P) :
    StableChain (answering (Backend.answer draws)) fun backend transaction =>
      transaction ∈ backend.confirmed where
  stays := by
    intro e query reply e' transaction h hconfirmed
    have hsubset := confirmed_subset draws e query
    rw [show e.answer draws query = (reply, e') from h] at hsubset
    exact hsubset hconfirmed
  shown := by
    intro e txid observed e' h _
    obtain ⟨hreply, rfl⟩ := Prod.mk.inj h
    have hobserved : (e.find txid).map observe = some observed := Except.ok.inj hreply
    obtain ⟨transaction, hfind, rfl⟩ := Option.map_eq_some_iff.1 hobserved
    exact List.mem_of_find?_eq_some hfind
  unlisted := by
    intro e address sources e' transaction h hconfirmed source hsource hspent
    obtain ⟨hreply, rfl⟩ := Prod.mk.inj h
    obtain rfl : e.unspent = sources := Except.ok.inj hreply
    have hfree := (List.mem_filter.1 hsource).2
    rw [Option.isNone_iff_eq_none, spender, List.find?_eq_none] at hfree
    exact hfree transaction hconfirmed (by simpa using hspent)

end Backend

section Alice

open Symbolic

/-- The transaction that the event hands to the chain. -/
def broadcastOf (event : CliEvent P) : Option P.Tx :=
  match event.command, event.action with
  | .fund .., .asked (.broadcastExact transaction) _ => some transaction
  | .sweep .., .asked (.broadcastExact transaction) _ => some transaction
  | _, _ => none

theorem spendsDeposits_of_broadcastOf {event : CliEvent P} {transaction : P.Tx}
    (h : broadcastOf event = some transaction) : SpendsDeposits event transaction := by
  obtain ⟨command, saved, action⟩ := event
  unfold broadcastOf at h
  split at h
  · rename_i hcommand haction
    obtain rfl := Option.some.inj h
    exact Or.inl (Or.inr ⟨⟨_, haction⟩, by simp_all [Command.IsFund]⟩)
  · rename_i hcommand haction
    obtain rfl := Option.some.inj h
    exact Or.inr ⟨⟨_, haction⟩, by simp_all [Command.IsSweep]⟩
  · cases h

/-- Alice funds a coin with one deposit and sweeps the other two. -/
def aliceSweeps : Command platform := .sweep (Hex.encode [3, 1, 1, 1]) 1 500

theorem deposits_spent_once_both :
    ∃ event ∈ (aliceRan [aliceRegisters, aliceFunds, aliceSweeps]).log,
      ∃ event' ∈ (aliceRan [aliceRegisters, aliceFunds, aliceSweeps]).log,
      ∃ funding sweep, broadcastOf event = some funding ∧ broadcastOf event' = some sweep ∧
        funding ≠ sweep ∧ List.Disjoint (spentOutputs funding) (spentOutputs sweep) := by
  have hmem : ∃ event ∈ (aliceRan [aliceRegisters, aliceFunds, aliceSweeps]).log,
      ∃ event' ∈ (aliceRan [aliceRegisters, aliceFunds, aliceSweeps]).log,
      (broadcastOf event).isSome = true ∧ (broadcastOf event').isSome = true ∧
        broadcastOf event ≠ broadcastOf event' := by decide +kernel
  obtain ⟨event, hevent, event', hevent', hsome, hsome', hne⟩ := hmem
  obtain ⟨funding, hfunding⟩ := Option.isSome_iff_exists.1 hsome
  obtain ⟨sweep, hsweep⟩ := Option.isSome_iff_exists.1 hsome'
  have hne' : funding ≠ sweep := by
    rintro rfl
    exact hne (hfunding.trans hsweep.symm)
  refine ⟨event, hevent, event', hevent', funding, sweep, hfunding, hsweep, hne', ?_⟩
  exact (deposits_spent_once secretCodec (Backend.stableChain aliceDraws) rfl initialized_newWorld
    (cliLife_aliceRan [aliceRegisters, aliceFunds, aliceSweeps])).2.1 event hevent event' hevent'
    funding sweep (spendsDeposits_of_broadcastOf hfunding) (spendsDeposits_of_broadcastOf hsweep)
    hne'

end Alice

end Tinylayer
