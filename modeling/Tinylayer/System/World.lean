import Mathlib.Logic.Function.Basic
import Mathlib.Logic.Relation
import Tinylayer.Native.FundCommand
import Tinylayer.Wallet.Journal

/-!
# Wallets and the signer

Any number of honest wallets, one live signer and the network between them. A wallet has a copy of
its state in memory and a saved one, to which a crash returns it. It carries out the operations of
the wallet, and what `fund_coin` does itself with Bitcoin Core, in any order. It sends the request
of its journal only from a state that is saved, as the commands do, and what it sent may be
delivered at any time, many times or never; answers come from the signer and are kept with their
requests, since each belongs to one connection. Everybody else may call the signer too.

The history of a run is kept beside the state: the calls of the signer, what was sent and answered,
what others asked to be signed, what was drawn at random and which transfer requests went around.
-/

namespace Tinylayer

/-- The request in a call of the signer, if it asks for a signature. -/
def Request.toSign {P : Platform} : Request P → Option (SignRequest P)
  | .sign request => some request
  | _ => none

/-- What `fund_coin` saves with Bitcoin Core after its own checks: first the funding, then the
attempt, with the status that it is given and the capability that it draws. -/
inductive CoreFunds {P : Platform} (s : WalletState P) :
    Option (CoinStatus P) → Option Capability → WalletState P → Prop
  | funding {coin : WalletCoin P} (network : NetworkId) (prepared : PreparedSourceFunding P)
      (amountSat delayBlocks feeRateSatVb maxFeeSat : Nat) (hcoin : s.coin = some coin)
      (hfunding : coin.funding = none) (hpending : s.pending = none)
      (hcapability : coin.currentCapability.isSome = true)
      (hhandoff : coin.currentHandoff = some initialHandoff) (hmetadata : coin.metadata = none)
      (hhistory : coin.history = []) :
      CoreFunds s none none { s with coin := some { coin with
        metadata := some (coin.keys.metadata network prepared.outpoint amountSat)
        funding := some (coreFunding prepared delayBlocks feeRateSatVb maxFeeSat) } }
  | attempt {coin : WalletCoin P} {metadata : CoinMetadata P} {funding : FundingJournal P}
      {status : CoinStatus P} {pending : PendingRecovery P} (draws : WalletState.FundingDraws P)
      (hcoin : s.coin = some coin) (hmetadata : coin.metadata = some metadata)
      (hfunding : coin.funding = some funding) (hstage : funding.stage = .prepared)
      (hpending : s.pending = none)
      (hattempt : coreAttempt draws coin metadata status funding.delayBlocks = .ok pending) :
      CoreFunds s (some status) (some draws.nextCapability)
        { s with pending := some (.recovery pending) }

/-- A sign request that a wallet sent, with the pair of capability and handoff token that it held
then. -/
structure Sent (ι : Type) (P : Platform) where
  wallet : ι
  pair : Option (Capability × HandoffToken)
  request : SignRequest P

/-- The state of all parties, with the history of the run. -/
structure World (ι : Type) (P : Platform) (LIMIT : Nat) where
  mem : ι → WalletState P
  disk : ι → WalletState P
  calls : List (Signer.Call P)
  sent : List (Sent ι P)
  replies : List (Signer.Issuance P)
  /-- What others asked the signer to sign. -/
  others : List (SignRequest P)
  drawn : List (ι × Capability)
  published : List IncomingTransfer
  /-- Transfer requests in a journal that no wallet had published. -/
  forged : List TransferRequest

namespace World

variable {ι : Type} [DecidableEq ι] {P : Platform} {LIMIT : Nat}

/-- Nothing has happened yet. -/
def init : World ι P LIMIT where
  mem := fun _ => .empty
  disk := fun _ => .empty
  calls := []
  sent := []
  replies := []
  others := []
  drawn := []
  published := []
  forged := []

/-- The signer after its calls. -/
def signer (w : World ι P LIMIT) : Signer P LIMIT := Signer.new.run w.calls

/-- The signatures issued for a coin. -/
def log (w : World ι P LIMIT) (coinId : CoinId) : List (Signer.Issuance P) :=
  Signer.issuances coinId (Signer.new : Signer P LIMIT) w.calls

/-! ## What can happen -/

/-- The transfer request in the journal, if no wallet published it. -/
def unpublished (published : List IncomingTransfer) (s : WalletState P) : List TransferRequest :=
  s.pendingTransferRequest.toOption.toList.filter fun request =>
    request ∉ published.map (·.request)

/-- A wallet carries out an operation. -/
def operate (w : World ι P LIMIT) (i : ι) (op : Operation P) : World ι P LIMIT :=
  { w with
    mem := Function.update w.mem i ((w.mem i).after op)
    drawn := w.drawn ++ (op.drawn.map fun capability => (i, capability)).toList
    published := w.published ++ op.published.toList
    forged := w.forged ++ unpublished w.published ((w.mem i).after op) }

/-- A wallet goes on with a funding through Bitcoin Core. -/
def fundCore (w : World ι P LIMIT) (i : ι) (drawn : Option Capability) (s : WalletState P) :
    World ι P LIMIT :=
  { w with
    mem := Function.update w.mem i s
    drawn := w.drawn ++ (drawn.map fun capability => (i, capability)).toList }

/-- A wallet saves its state. -/
def save (w : World ι P LIMIT) (i : ι) : World ι P LIMIT :=
  { w with disk := Function.update w.disk i (w.mem i) }

/-- A wallet goes back to its saved state. -/
def crash (w : World ι P LIMIT) (i : ι) : World ι P LIMIT :=
  { w with mem := Function.update w.mem i (w.disk i) }

/-- A wallet sends a request. -/
def send (w : World ι P LIMIT) (i : ι) (request : SignRequest P) : World ι P LIMIT :=
  let pair := (w.mem i).held.map fun held => (held.capability, held.handoff)
  { w with sent := w.sent ++ [⟨i, pair, request⟩] }

/-- The signer's answer to a request. -/
def answer (σ : Signer P LIMIT) (draws : Signer.Draws P) (request : SignRequest P) :
    List (Signer.Issuance P) :=
  match Signer.sign draws request σ with
  | .ok response _ => [(request, response)]
  | .error _ _ => []

/-- A request reaches the signer. -/
def deliver (w : World ι P LIMIT) (request : SignRequest P) (draws : Signer.Draws P) :
    World ι P LIMIT :=
  { w with
    calls := w.calls ++ [⟨.sign request, draws⟩]
    replies := w.replies ++ answer w.signer draws request }

/-- An answer reaches a wallet. -/
def reply (w : World ι P LIMIT) (i : ι) (response : SignResponse P) : World ι P LIMIT :=
  { w with mem := Function.update w.mem i ((w.mem i).after (.recordSignResponse response)) }

/-- Somebody else calls the signer. -/
def other (w : World ι P LIMIT) (call : Signer.Call P) : World ι P LIMIT :=
  { w with
    calls := w.calls ++ [call]
    others := w.others ++ call.request.toSign.toList }

section

variable (w : World ι P LIMIT) (i : ι) {j : ι}

@[simp] theorem mem_operate (op : Operation P) : (w.operate i op).mem i = (w.mem i).after op :=
  Function.update_self ..

@[simp] theorem mem_operate_of_ne (h : j ≠ i) (op : Operation P) :
    (w.operate i op).mem j = w.mem j := Function.update_of_ne h ..

@[simp] theorem disk_operate (op : Operation P) : (w.operate i op).disk = w.disk := rfl

@[simp] theorem calls_operate (op : Operation P) : (w.operate i op).calls = w.calls := rfl

@[simp] theorem mem_save : (w.save i).mem = w.mem := rfl

@[simp] theorem disk_save : (w.save i).disk i = w.mem i := Function.update_self ..

@[simp] theorem disk_save_of_ne (h : j ≠ i) : (w.save i).disk j = w.disk j :=
  Function.update_of_ne h ..

@[simp] theorem calls_save : (w.save i).calls = w.calls := rfl

@[simp] theorem mem_reply (response : SignResponse P) :
    (w.reply i response).mem i = (w.mem i).after (.recordSignResponse response) :=
  Function.update_self ..

@[simp] theorem mem_reply_of_ne (h : j ≠ i) (response : SignResponse P) :
    (w.reply i response).mem j = w.mem j := Function.update_of_ne h ..

@[simp] theorem disk_reply (response : SignResponse P) : (w.reply i response).disk = w.disk := rfl

@[simp] theorem calls_reply (response : SignResponse P) :
    (w.reply i response).calls = w.calls := rfl

omit [DecidableEq ι]

@[simp] theorem mem_init : (init : World ι P LIMIT).mem i = .empty := rfl

@[simp] theorem mem_send (request : SignRequest P) : (w.send i request).mem = w.mem := rfl

@[simp] theorem disk_send (request : SignRequest P) : (w.send i request).disk = w.disk := rfl

@[simp] theorem mem_deliver (request : SignRequest P) (draws : Signer.Draws P) :
    (w.deliver request draws).mem = w.mem := rfl

@[simp] theorem disk_deliver (request : SignRequest P) (draws : Signer.Draws P) :
    (w.deliver request draws).disk = w.disk := rfl

@[simp] theorem mem_other (call : Signer.Call P) : (w.other call).mem = w.mem := rfl

end

/-- One step of a run. -/
inductive Step (w : World ι P LIMIT) : World ι P LIMIT → Prop
  /-- A wallet is given a status only after the signer reported it. -/
  | operate (i : ι) (op : Operation P) (response : op.response = none)
      (status : ∀ status, op.status = some status → Signer.Reported LIMIT w.calls status) :
      Step w (w.operate i op)
  | fundCore (i : ι) (given : Option (CoinStatus P)) (drawn : Option Capability)
      (s : WalletState P) (funds : CoreFunds (w.mem i) given drawn s)
      (status : ∀ status, given = some status → Signer.Reported LIMIT w.calls status) :
      Step w (w.fundCore i drawn s)
  | save (i : ι) : Step w (w.save i)
  | crash (i : ι) : Step w (w.crash i)
  | send (i : ι) (request : SignRequest P) (saved : w.mem i = w.disk i)
      (pending : (w.mem i).pendingSignRequest = .ok request) : Step w (w.send i request)
  | deliver (a : Sent ι P) (draws : Signer.Draws P) (sent : a ∈ w.sent) :
      Step w (w.deliver a.request draws)
  | reply (i : ι) (request : SignRequest P) (response : SignResponse P)
      (pending : (w.mem i).pendingSignRequest = .ok request)
      (replied : (request, response) ∈ w.replies) : Step w (w.reply i response)
  | other (call : Signer.Call P) : Step w (w.other call)

/-- One world is reached from another. -/
abbrev Steps : World ι P LIMIT → World ι P LIMIT → Prop := Relation.ReflTransGen Step

/-- The worlds of all runs. -/
def Reachable (w : World ι P LIMIT) : Prop := Steps init w

/-! ## Assumptions -/

/-- The handoff tokens of every coin are fresh. -/
def Fresh (w : World ι P LIMIT) : Prop := ∀ coinId, Signer.FreshHandoffs (w.log coinId)

/-- Capabilities are drawn only once, and others do not know them. -/
structure Secret (w : World ι P LIMIT) : Prop where
  distinct : (w.drawn.map (·.2)).Nodup
  unknown : ∀ request ∈ w.others, ∀ entry ∈ w.drawn, request.currentCapability ≠ entry.2

/-- The coin was registered by a wallet, and no wallet hands it on to somebody else. -/
structure Honest (w : World ι P LIMIT) (coinId : CoinId) : Prop where
  registered : ∃ request entry,
    Signer.registration coinId (Signer.new : Signer P LIMIT) w.calls = some request ∧
      entry ∈ w.drawn ∧ request.initialCapabilityHash = capabilityHash entry.2
  genuine : ∀ request ∈ w.forged, request.parseCoinId ≠ .ok coinId

/-! ## Ownership -/

/-- The saved coin of the wallet opens the present authorization of the coin. -/
def Owns (w : World ι P LIMIT) (i : ι) (coinId : CoinId) : Prop :=
  ∃ held coin, (w.disk i).held = some held ∧ held.coinId = coinId ∧
    w.signer.coins.lookup coinId = some coin ∧ held.authorization = coin.authorization

/-- The request is the one in the saved journal of the wallet. -/
def Journaled (w : World ι P LIMIT) (i : ι) (request : SignRequest P) : Prop :=
  ∃ pending, (w.disk i).signing = some pending ∧ pending.stage.attempt.request = request

/-- A step that newly issues a signature for the coin. -/
structure Issues (w w' : World ι P LIMIT) (coinId : CoinId) (entry : Signer.Issuance P) : Prop where
  step : Step w w'
  log : w'.log coinId = w.log coinId ++ [entry]

end World

end Tinylayer
