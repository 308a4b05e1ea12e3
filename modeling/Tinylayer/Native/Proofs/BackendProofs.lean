import Tinylayer.Native.Backend
import Tinylayer.Native.ChainView

/-!
# The backend as a chain

The backend without its enclave is a chain that takes what spends the deposits of an address.
-/

namespace Tinylayer

open Durable

variable {P : Platform}

namespace Backend

/-- The answers of the backend after its enclave is gone. -/
def deserted (draws : Signer.Draws P) (self : Backend P) (query : Query P) :
    query.Reply × Backend P :=
  answer draws { self with running := false } query

theorem deserted_silent (draws : Signer.Draws P) : EnclaveSilent (answering (deserted draws)) := by
  intro e query e' hquery reply hanswer
  cases query with
  | connectEnclave => cases hanswer
  | status => cases hanswer
  | register => cases hanswer
  | sign => cases hanswer
  | _ => exact hquery

/-- What the deposits and the confirmed transactions are like. -/
structure Sound (address : P.Address) (backend : Backend P) : Prop where
  length_le : backend.deposits.length ≤ maxSourceUtxoCandidates
  distinct : (backend.deposits.map SourceUtxo.outpoint).Nodup
  deposits : ∀ deposit ∈ backend.deposits, 0 < deposit.confirmations ∧
    P.isNull deposit.outpoint = false ∧ deposit.output.scriptPubkey = P.addressScript address
  money : (backend.deposits.map fun deposit => deposit.output.value).sum ≤ maxMoney
  confirmed : (backend.confirmed.map P.computeTxid).Nodup

theorem mem_unspent {self : Backend P} {deposit : SourceUtxo P} :
    deposit ∈ self.unspent ↔ deposit ∈ self.deposits ∧
      ∀ transaction ∈ self.confirmed, deposit.outpoint ∉ spentOutputs transaction := by
  simp [unspent, spender, List.mem_filter]

theorem unspent_sublist (self : Backend P) : self.unspent.Sublist self.deposits :=
  List.filter_sublist

theorem unspent_confirm (self : Backend P) (transaction : P.Tx) :
    (self.confirm transaction).unspent =
      self.unspent.filter fun deposit => deposit.outpoint ∉ spentOutputs transaction := by
  unfold unspent confirm spender
  rw [List.filter_filter]
  refine List.filter_congr fun deposit _ => ?_
  rw [List.find?_append, Option.isNone_or, List.find?_singleton, Bool.and_comm]
  split
  · simp_all
  · simp_all

/-- A transaction of unspent deposits is not confirmed, nor is one with its id. -/
theorem find_eq_none (hcollision : P.TxidCollisionFree) {self : Backend P} {transaction : P.Tx}
    (h : SpendsSigned self.unspent transaction) :
    ∀ other ∈ self.confirmed, P.computeTxid other ≠ P.computeTxid transaction := by
  intro other hother htxid
  obtain ⟨sources, hnonempty, hlisted, _, hspent, _⟩ := h
  obtain ⟨source, hsource⟩ := List.exists_mem_of_ne_nil _ hnonempty
  obtain ⟨deposit, hdeposit, houtpoint, _⟩ := hlisted source hsource
  refine (mem_unspent.1 hdeposit).2 other hother ?_
  have hinputs : spentOutputs other = spentOutputs transaction := by
    have hstrip := congrArg spentOutputs (hcollision _ _ htxid)
    simpa [spentOutputs, Transaction.stripWitness, Function.comp_def] using hstrip
  rw [hinputs, hspent, houtpoint]
  exact List.mem_map_of_mem hsource

theorem find_of_mem {self : Backend P} (h : (self.confirmed.map P.computeTxid).Nodup)
    {transaction : P.Tx} (hmem : transaction ∈ self.confirmed) :
    self.find (P.computeTxid transaction) = some transaction := by
  obtain ⟨found, hfound⟩ : ∃ found, self.find (P.computeTxid transaction) = some found := by
    rw [← Option.isSome_iff_exists, find, List.find?_isSome]
    exact ⟨transaction, hmem, decide_eq_true rfl⟩
  have hsame : P.computeTxid found = P.computeTxid transaction := by
    simpa using List.find?_some hfound
  rw [hfound, List.inj_on_of_nodup_map h (List.mem_of_find?_eq_some hfound) hmem hsame]

theorem depositChain (hcollision : P.TxidCollisionFree) (draws : Signer.Draws P) {config : Config}
    (hconfirmations : config.minConfirmations ≤ depth) (address : P.Address) :
    DepositChain (deserted draws) config address (Sound address) unspent unspent
      (fun self transaction => transaction ∈ self.confirmed) fun _ _ => 0 where
  stays := by
    intro e query hview hquery
    cases query with
    | broadcastFunding => exact absurd trivial hquery
    | broadcastExact => exact absurd trivial hquery
    | submitPackage => exact absurd trivial hquery
    | _ => exact ⟨⟨hview.length_le, hview.distinct, hview.deposits, hview.money, hview.confirmed⟩,
        rfl, rfl, fun _ h => ⟨h, le_rfl⟩⟩
  connects := fun _ _ => rfl
  lists := fun _ _ => rfl
  listed := by
    intro e hview
    refine ⟨List.Subperm.refl _, ?_⟩
    rw [Nat.min_eq_right ((unspent_sublist e).length_le.trans hview.length_le)]
  distinct := fun e hview => ((unspent_sublist e).map _).nodup hview.distinct
  deposits := fun e hview deposit hmem =>
    hview.deposits deposit ((unspent_sublist e).subset hmem)
  money := fun e hview => (((unspent_sublist e).map _).sum_le_sum fun _ _ => Nat.zero_le _).trans
    hview.money
  confirms := by
    intro e transaction hview hmem
    refine Or.inl ⟨observe transaction, ?_, rfl, hconfirmations⟩
    have hfind := find_of_mem hview.confirmed hmem
    change Except.ok ((e.find (P.computeTxid transaction)).map observe) = _
    rw [hfind]
    rfl
  unseen := by
    intro e transaction hview hsigned
    have hnone : e.find (P.computeTxid transaction) = none := by
      rw [find, List.find?_eq_none]
      intro other hother
      simpa using find_eq_none hcollision hsigned other hother
    change Except.ok ((e.find (P.computeTxid transaction)).map observe) = _
    rw [hnone]
    rfl
  takes := by
    intro e transaction hview hsigned
    refine ⟨P.computeTxid transaction, rfl, ?_, List.mem_append_right _ (List.mem_singleton_self _),
      unspent_confirm e transaction⟩
    refine ⟨hview.length_le, hview.distinct, hview.deposits, hview.money, ?_⟩
    change ((e.confirmed ++ [transaction]).map P.computeTxid).Nodup
    rw [List.map_append, List.map_singleton, ← List.concat_eq_append, List.nodup_concat]
    refine ⟨fun hmem => ?_, hview.confirmed⟩
    obtain ⟨other, hother, htxid⟩ := List.mem_map.1 hmem
    exact find_eq_none hcollision hsigned other hother htxid

end Backend

end Tinylayer
