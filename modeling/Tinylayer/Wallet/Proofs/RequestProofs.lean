import Tinylayer.Symbolic
import Tinylayer.Wallet.Proofs.PayloadProofs

/-!
# Proofs: transfer requests are canonical

A request holds six values as text. `validate` accepts exactly the texts that `new` writes, so a
valid request and the values that are read from it determine each other.
-/

namespace Tinylayer

variable {P : Platform}

namespace TransferRequest

variable (P) in
/-- The values that a request stands for. -/
structure Values where
  id : Bytes32
  coinId : CoinId
  network : NetworkId
  outpoint : OutPoint P.Txid
  expectedAmountSat : Nat
  withdrawalKey : P.XOnlyPublicKey
  nextCapabilityHash : P.Digest
  transportKey : P.PublicKey
  minReactionBlocks : Nat

/-- `TransferRequest::new` of these values. -/
def Values.request (v : Values P) : TransferRequest :=
  new v.id v.coinId v.network v.outpoint v.expectedAmountSat v.withdrawalKey v.nextCapabilityHash
    v.transportKey v.minReactionBlocks

/-- The values that `validate` admits. -/
structure Values.Admissible (v : Values P) : Prop where
  outpoint : P.isNull v.outpoint = false
  amount : v.expectedAmountSat ≤ maxMoney

/-- The accessors and the plain fields of a request give these values. -/
structure Reads (request : TransferRequest) (v : Values P) : Prop where
  parsed : Parsed request v.id v.coinId v.outpoint v.withdrawalKey v.nextCapabilityHash
    v.transportKey
  network : request.network = v.network
  amount : request.expectedAmountSat = v.expectedAmountSat
  margin : request.minReactionBlocks = v.minReactionBlocks

theorem Values.request_reads (htext : P.TextCodec) (v : Values P) : v.request.Reads v where
  parsed := parsed_new htext ..
  network := rfl
  amount := rfl
  margin := rfl

/-- A request gives one value to each accessor. -/
theorem Reads.unique {request : TransferRequest} {v w : Values P} (hv : request.Reads v)
    (hw : request.Reads w) : v = w := by
  obtain ⟨id, coinId, network, outpoint, amount, key, hash, transport, margin⟩ := v
  obtain ⟨id', coinId', network', outpoint', amount', key', hash', transport', margin'⟩ := w
  cases hv.parsed.id.symm.trans hw.parsed.id
  cases hv.parsed.coinId.symm.trans hw.parsed.coinId
  cases hv.network.symm.trans hw.network
  cases hv.parsed.outpoint.symm.trans hw.parsed.outpoint
  cases hv.amount.symm.trans hw.amount
  cases hv.parsed.withdrawalKey.symm.trans hw.parsed.withdrawalKey
  cases hv.parsed.nextCapabilityHash.symm.trans hw.parsed.nextCapabilityHash
  cases hv.parsed.transportKey.symm.trans hw.parsed.transportKey
  cases hv.margin.symm.trans hw.margin
  rfl

/-- A valid request is the canonical one of the values it is read as. -/
theorem reads_of_validate {request : TransferRequest} (h : request.validate P = .ok ()) :
    ∃ v : Values P, request.Reads v ∧ v.Admissible ∧ request = v.request := by
  obtain ⟨hformat, hversion, id, hid, coinId, hcoinId, ⟨hidText, hcoinIdText⟩, outpoint, hout,
    hnull, houtText, hamount, key, hkey, hash, hhash, transport, htransport, hkeyText, hhashText,
    htransportText⟩ := validate_eq_ok.1 h
  refine ⟨⟨id, coinId, request.network, outpoint, request.expectedAmountSat, key, hash, transport,
    request.minReactionBlocks⟩, ⟨⟨hid, hcoinId, hout, hkey, hhash, htransport⟩, rfl, rfl, rfl⟩,
    ⟨hnull, hamount⟩, ?_⟩
  apply TransferRequest.ext
  case formatVersion => exact hformat
  case protocolVersion => exact hversion
  case requestId => exact hidText
  case coinId => exact hcoinIdText
  case network => rfl
  case outpoint => exact houtText
  case expectedAmountSat => rfl
  case withdrawalXonlyPubkey => exact hkeyText
  case nextCapabilityHash => exact hhashText
  case transportPublicKey => exact htransportText
  case minReactionBlocks => rfl

theorem Values.Admissible.validate (htext : P.TextCodec) {v : Values P} (h : v.Admissible) :
    v.request.validate P = .ok () :=
  validate_new htext _ _ _ _ _ _ _ _ _ h.outpoint h.amount

/-- Exactly the canonical encodings of admissible values are valid, the accessors return these
values, and two valid requests with the same values are equal. -/
theorem valid_requests_are_canonical (htext : P.TextCodec) (request : TransferRequest) :
    (request.validate P = .ok () ↔ ∃ v : Values P, v.Admissible ∧ request = v.request) ∧
      (∀ v : Values P, request = v.request → request.Reads v) ∧
      ∀ (request' : TransferRequest) (v v' : Values P), request.validate P = .ok () →
        request'.validate P = .ok () → request.Reads v → request'.Reads v' →
        (request = request' ↔ v = v') := by
  refine ⟨⟨fun h => ?_, ?_⟩, ?_, fun request' v v' h h' hreads hreads' => ?_⟩
  · obtain ⟨v, _, hadmissible, heq⟩ := reads_of_validate h
    exact ⟨v, hadmissible, heq⟩
  · rintro ⟨v, hadmissible, rfl⟩
    exact hadmissible.validate htext
  · rintro v rfl
    exact v.request_reads htext
  · obtain ⟨w, hw, _, heq⟩ := reads_of_validate h
    obtain ⟨w', hw', _, heq'⟩ := reads_of_validate h'
    have hv := hreads.unique hw
    have hv' := hreads'.unique hw'
    constructor
    · intro hsame
      rw [hsame] at hreads
      exact hreads.unique hreads'
    · intro hsame
      rw [heq, heq', ← hv, ← hv', hsame]

section Demo

open Symbolic

/-- The values of a receiver's request. -/
def receiverValues : Values platform where
  id := bytes 0xab
  coinId := bytes 1
  network := .regtest
  outpoint := { txid := Nat.succ 4, vout := 0 }
  expectedAmountSat := 100000
  withdrawalKey := (bytes 21).toList
  nextCapabilityHash := (bytes 20).toList
  transportKey := (bytes 22).toList
  minReactionBlocks := 20

/-- The request with the digits of its id in upper case. -/
def upperCaseRequest : TransferRequest :=
  { receiverValues.request with
    requestId := String.ofList (List.replicate 32 ['A', 'B']).flatten }

/-- The receiver's request is valid and read as its values. In upper case the same id is read, but
the request is no longer valid. -/
theorem receiverRequest_canonical :
    (receiverValues.request.validate platform = .ok () ∧
      receiverValues.request.Reads receiverValues) ∧
      upperCaseRequest.id = .ok receiverValues.id ∧
      ¬ ∃ v : Values platform, v.Admissible ∧ upperCaseRequest = v.request := by
  have hinvalid : upperCaseRequest.validate platform ≠ .ok () := by decide +kernel
  obtain ⟨hvalid, hreads, _⟩ := valid_requests_are_canonical textCodec receiverValues.request
  refine ⟨⟨hvalid.2 ⟨receiverValues, ⟨by decide, by decide⟩, rfl⟩, hreads receiverValues rfl⟩,
    by decide +kernel, fun h => hinvalid ?_⟩
  exact (valid_requests_are_canonical textCodec upperCaseRequest).1.2 h

end Demo

end TransferRequest

end Tinylayer
