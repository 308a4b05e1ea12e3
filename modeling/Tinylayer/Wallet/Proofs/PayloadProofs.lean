import Tinylayer.Wallet.Invariant

/-!
# Proofs: requests, payloads and envelopes

Which requests are valid and what is read from them, how long a payload is, and that the receiver
opens the envelope that was sealed for it.
-/

namespace Tinylayer

variable {P : Platform}

open WalletState

/-! ## Requests -/

/-- A valid request is one whose six texts are the canonical texts of the values read from them. -/
theorem TransferRequest.validate_eq_ok {request : TransferRequest} {u : Unit} :
    request.validate P = .ok u ↔
      request.formatVersion = fileFormatVersion ∧
      request.protocolVersion = Tinylayer.protocolVersion ∧
      ∃ id, request.id = .ok id ∧ ∃ coinId, request.parseCoinId = .ok coinId ∧
      (request.requestId = Hex.encode id.toList ∧ request.coinId = Hex.encode coinId.toList) ∧
      ∃ outpoint, request.parseOutpoint P = .ok outpoint ∧ P.isNull outpoint = false ∧
      request.outpoint = P.outPointToString outpoint ∧ request.expectedAmountSat ≤ maxMoney ∧
      ∃ withdrawal, request.withdrawalKey P = .ok withdrawal ∧
      ∃ hash, request.parseNextCapabilityHash P = .ok hash ∧
      ∃ transport, request.transportKey P = .ok transport ∧
      request.withdrawalXonlyPubkey = P.xOnlyToString withdrawal ∧
      request.nextCapabilityHash = Hex.encode (P.digestBytes hash) ∧
      request.transportPublicKey = P.publicKeyToString transport := by
  simp only [TransferRequest.validate, Except.bind_eq_ok, Except.ensure_eq_ok, exists_unit]

theorem TransferRequest.aad_isOk {request : TransferRequest} (h : request.validate P = .ok ()) :
    ∃ aad, request.aad P = .ok aad := by
  obtain ⟨_, _, id, hid, coinId, hcoinId, _, outpoint, hout, _, _, _, withdrawal, hwithdrawal, hash,
    hhash, transport, htransport, _⟩ := TransferRequest.validate_eq_ok.1 h
  simp only [TransferRequest.aad, Except.bind_eq_ok, exists_unit]
  exact ⟨_, h, outpoint, hout, id, hid, coinId, hcoinId, withdrawal, hwithdrawal, hash, hhash,
    transport, htransport, rfl⟩

/-- What is read from a request that was put together by `new`. -/
structure TransferRequest.Parsed (request : TransferRequest) (id coinId : Bytes32)
    (outpoint : OutPoint P.Txid) (withdrawal : P.XOnlyPublicKey) (hash : P.Digest)
    (transport : P.PublicKey) : Prop where
  id : request.id = .ok id
  coinId : request.parseCoinId = .ok coinId
  outpoint : request.parseOutpoint P = .ok outpoint
  withdrawalKey : request.withdrawalKey P = .ok withdrawal
  nextCapabilityHash : request.parseNextCapabilityHash P = .ok hash
  transportKey : request.transportKey P = .ok transport

theorem parseHex32_encode {label : String} {bytes : Bytes32} :
    parseHex32 label (Hex.encode bytes.toList) = .ok bytes := by
  simp only [parseHex32, Hex.decode_encode, Except.bind_eq_ok, Except.context_eq_ok]
  exact ⟨bytes.toList, rfl, (dif_pos bytes.toList_length).trans rfl⟩

section New

variable (htext : P.TextCodec) (id coinId : Bytes32) (network : NetworkId)
  (outpoint : OutPoint P.Txid) (amountSat : Nat) (withdrawal : P.XOnlyPublicKey) (hash : P.Digest)
  (transport : P.PublicKey) (margin : Nat)
include htext

theorem TransferRequest.parsed_new :
    Parsed (P := P) (new id coinId network outpoint amountSat withdrawal hash transport margin) id
      coinId outpoint withdrawal hash transport where
  id := parseHex32_encode
  coinId := parseHex32_encode
  outpoint := by simp [new, parseOutpoint, htext.outPointFromStr_toString]
  withdrawalKey := by simp [new, TransferRequest.withdrawalKey, htext.xOnlyFromStr_toString]
  nextCapabilityHash := by
    simp [new, parseNextCapabilityHash, parseHexDigest, htext.digestOfBytes_bytes]
  transportKey := by simp [new, TransferRequest.transportKey, htext.publicKeyFromStr_toString]

/-- A new request for a possible funding output is valid. -/
theorem TransferRequest.validate_new (houtpoint : P.isNull outpoint = false)
    (hamount : amountSat ≤ maxMoney) :
    (new id coinId network outpoint amountSat withdrawal hash transport margin).validate P =
      .ok () := by
  have h := parsed_new htext id coinId network outpoint amountSat withdrawal hash transport margin
  exact validate_eq_ok.2 ⟨rfl, rfl, id, h.id, coinId, h.coinId, ⟨rfl, rfl⟩, outpoint, h.outpoint,
    houtpoint, rfl, hamount, withdrawal, h.withdrawalKey, hash, h.nextCapabilityHash, transport,
    h.transportKey, rfl, rfl, rfl⟩

end New

/-- What the receiver asked for is what the sender reads. -/
structure Readable (incoming : IncomingTransfer) (transport withdrawal : P.SecretKey) : Prop where
  transportSecret : incoming.transportSecret = P.secretBytes transport
  transportKey : incoming.request.transportKey P = .ok (P.publicKeyOf transport)
  withdrawalSecret : P.secretKeyFromSlice incoming.withdrawalSecret = some withdrawal
  withdrawalKey : incoming.request.withdrawalKey P = .ok (secretXonly withdrawal)
  capability : incoming.request.parseNextCapabilityHash P =
    .ok (capabilityHash incoming.capability)

theorem IncomingInv.readable (htext : P.TextCodec) (hsecret : P.SecretCodec)
    {incoming : IncomingTransfer} (h : IncomingInv P incoming) :
    ∃ transport withdrawal : P.SecretKey, Readable incoming transport withdrawal := by
  obtain ⟨draws, network, coinId, outpoint, amount, margin, rfl, _, _⟩ := h
  have hparsed := TransferRequest.parsed_new htext draws.requestId coinId network outpoint amount
    (secretXonly draws.withdrawal) (capabilityHash draws.capability)
    (P.publicKeyOf draws.transport) margin
  exact ⟨draws.transport, draws.withdrawal, rfl, hparsed.transportKey, hsecret _,
    hparsed.withdrawalKey, hparsed.nextCapabilityHash⟩

/-! ## Sizes -/

theorem length_bytes32Json_le (bytes : Bytes32) :
    (bytes32Json bytes).length ≤ (bytes32Json Bytes32.max).length := by
  refine Json.length_array_le ?_
  have hlen : bytes.toList.length = Bytes32.max.toList.length := by
    rw [List.Vector.toList_length, List.Vector.toList_length]
  have hmax : ∀ b ∈ Bytes32.max.toList, b = 255 := fun b hb => List.eq_of_mem_replicate hb
  refine List.forall₂_map_left_iff.2 (List.forall₂_map_right_iff.2 ?_)
  refine List.forall₂_iff_zip.2 ⟨hlen, fun {a b} hab => ?_⟩
  rw [hmax b (List.of_mem_zip hab).2]
  exact Json.length_number_byte a

theorem length_hexJson {a b : List UInt8} (h : a.length = b.length) :
    (hexJson a).length = (hexJson b).length := by
  simp only [hexJson, Json.length_text, Hex.utf8ByteSize_encode, h]

/-- Signatures are as long as what stands for them in the template. -/
theorem length_signedRecoveryJson (hcodec : P.SignatureCodec) (metadata : CoinMetadata P)
    (key : P.XOnlyPublicKey) (delay : Nat) (signature : P.Signature) (secret : P.SecretKey)
    (sighash : P.Digest) :
    (signedRecoveryJson (signedRecovery metadata key delay signature secret sighash)).length ≤
      (signedRecoveryJson (templateRecovery metadata key delay)).length := by
  have hsig : ∀ sig : P.Signature,
      (hexJson (P.signatureBytes sig)).length ≤ (hexJson (List.replicate 64 0xff)).length :=
    fun sig => Nat.le_of_eq (length_hexJson (by simp [hcodec.length_eq]))
  have hwitness := Json.length_array_le (k := [hexJson (P.signatureBytes signature),
      hexJson (P.signatureBytes (P.signSchnorr secret sighash)),
      hexJson (fundingTapscript metadata.keys),
      hexJson (P.controlBlockSerialize (fundingControlBlock metadata.keys))])
    (.cons (hsig _) (.cons (hsig _) (.cons (Nat.le_refl _) (.cons (Nat.le_refl _) .nil))))
  refine Json.length_object_le (.cons (Json.length_field_le ?_)
    (.cons (Nat.le_refl _) (.cons (Nat.le_refl _) .nil)))
  refine Json.length_object_le (.cons (Nat.le_refl _) (.cons (Nat.le_refl _)
    (.cons (Json.length_field_le ?_) (.cons (Nat.le_refl _) .nil))))
  refine Json.length_array_le (.cons ?_ .nil)
  exact Json.length_object_le (.cons (Nat.le_refl _) (.cons (Nat.le_refl _) (.cons (Nat.le_refl _)
    (.cons (Json.length_field_le hwitness) .nil))))

/-- The payload of a completed transfer is no longer than the one that was projected for it. -/
theorem length_transferPayload_le (hcodec : P.SignatureCodec) (coin : WalletCoin P)
    (metadata : CoinMetadata P) (requestId : Bytes32) (handoff : HandoffToken)
    (key : P.XOnlyPublicKey) (delay : Nat) (signature : P.Signature) (secret : P.SecretKey)
    (sighash : P.Digest) :
    (transferPayload coin metadata requestId handoff
      (coin.history ++ [signedRecovery metadata key delay signature secret sighash])).toVec.length ≤
    (transferPayload coin metadata Bytes32.max Bytes32.max
      (coin.history ++ [templateRecovery metadata key delay])).toVec.length := by
  refine Json.length_object_le (.cons (Nat.le_refl _) (.cons (Nat.le_refl _)
    (.cons (Json.length_field_le (length_bytes32Json_le _)) (.cons (Nat.le_refl _)
    (.cons (Json.length_field_le (length_bytes32Json_le _)) (.cons (Nat.le_refl _)
    (.cons (Json.length_field_le (Json.length_array_le ?_)) .nil)))))))
  simp only [transferPayload, List.map_append, List.map_cons, List.map_nil]
  refine List.rel_append (R := fun a b : List UInt8 => a.length ≤ b.length)
    (List.forall₂_same.2 fun _ _ => Nat.le_refl _) (.cons ?_ .nil)
  exact length_signedRecoveryJson hcodec metadata key delay signature secret sighash

/-! ## Payloads can be told apart -/

/-- A text encoding whose texts are distinct and need no escapes. -/
structure PlainText {α : Type} (toText : α → String) : Prop where
  injective : Function.Injective toText
  no_quote : ∀ a, 0x22 ∉ Json.utf8 (toText a)

theorem PlainText.prefixCode {α : Type} {toText : α → String} (h : PlainText toText) :
    PrefixCode (fun _ => True) fun a => Json.text (toText a) :=
  Json.text_prefixCode h.injective h.no_quote

theorem plainText_hex : PlainText Hex.encode where
  injective := Hex.encode_injective
  no_quote := Hex.quote_notMem_encode

theorem hexJson_prefixCode : PrefixCode (fun _ => True) hexJson := plainText_hex.prefixCode

theorem plainText_networkName : PlainText networkName where
  injective := by rintro (_ | _ | _) (_ | _ | _) h <;> first | rfl | exact absurd h (by decide)
  no_quote := by rintro (_ | _ | _) <;> decide +kernel

/-- A code that may be followed by anything may be followed by what ends a value. -/
theorem separable {α : Type} {v : α → List UInt8} (h : PrefixCode (fun _ => True) v) :
    Json.Separable v := .of_prefixCode h.mono

theorem bytes32Json_prefixCode : PrefixCode (fun _ => True) bytes32Json := by
  have hbytes : PrefixCode (fun _ => True) fun l : List UInt8 =>
      Json.array (l.map fun b => Json.number b.toNat) := by
    refine Json.array_prefixCode (Json.number_prefixCode.comap fun a b h => UInt8.toNat_inj.1 h) ?_
    intro b
    obtain ⟨c, w, hw, h1, h2⟩ := Json.head_number b.toNat
    refine ⟨c, w, hw, ?_⟩
    rintro rfl
    revert h2
    decide
  exact hbytes.comap List.Vector.toList_injective

theorem hexListJson_prefixCode :
    PrefixCode (fun _ => True) fun l : List (List UInt8) => Json.array (l.map hexJson) :=
  Json.array_prefixCode hexJson_prefixCode.mono fun _ => ⟨_, _, rfl, by decide⟩

theorem txOutJson_prefixCode : PrefixCode (fun _ => True) txOutJson := by
  refine Json.object_prefixCode [("value", fun o : TxOut => Json.number o.value),
    ("script_pubkey", fun o => hexJson o.scriptPubkey)] ?_ ?_
  · simp only [List.forall_mem_cons, List.not_mem_nil, false_imp_iff, implies_true, and_true]
    exact ⟨(Json.Separable.of_prefixCode Json.number_prefixCode).comap _,
      (separable hexJson_prefixCode).comap _⟩
  · rintro ⟨value, script⟩ ⟨value', script'⟩ h
    simp only [List.forall_mem_cons, List.not_mem_nil, false_imp_iff, implies_true, and_true] at h
    obtain ⟨h1, h2⟩ := h
    rw [Json.number_injective h1, hexJson_prefixCode.injective trivial h2]

section PlainText

variable (houtpoint : PlainText P.outPointToString) (hxonly : PlainText P.xOnlyToString)
  (hsecret : PlainText P.secretToString)

include houtpoint in
theorem txInJson_prefixCode : PrefixCode (fun _ => True) (txInJson (P := P)) := by
  refine Json.object_prefixCode [
    ("previous_output", fun i : TxIn P.Txid => Json.text (P.outPointToString i.previousOutput)),
    ("script_sig", fun i => hexJson i.scriptSig), ("sequence", fun i => Json.number i.sequence),
    ("witness", fun i => Json.array (i.witness.map hexJson))] ?_ ?_
  · simp only [List.forall_mem_cons, List.not_mem_nil, false_imp_iff, implies_true, and_true]
    exact ⟨(separable houtpoint.prefixCode).comap _, (separable hexJson_prefixCode).comap _,
      (Json.Separable.of_prefixCode Json.number_prefixCode).comap _,
      (separable hexListJson_prefixCode).comap _⟩
  · rintro ⟨output, script, sequence, witness⟩ ⟨output', script', sequence', witness'⟩ h
    simp only [List.forall_mem_cons, List.not_mem_nil, false_imp_iff, implies_true, and_true] at h
    obtain ⟨h1, h2, h3, h4⟩ := h
    rw [houtpoint.prefixCode.injective trivial h1, hexJson_prefixCode.injective trivial h2,
      Json.number_injective h3, hexListJson_prefixCode.injective trivial h4]

include houtpoint in
theorem transactionJson_prefixCode : PrefixCode (fun _ => True) (transactionJson (P := P)) := by
  have hinputs : PrefixCode (fun _ => True) fun l : List (TxIn P.Txid) =>
      Json.array (l.map txInJson) :=
    Json.array_prefixCode (txInJson_prefixCode houtpoint).mono fun _ => ⟨_, _, rfl, by decide⟩
  have houtputs : PrefixCode (fun _ => True) fun l : List TxOut => Json.array (l.map txOutJson) :=
    Json.array_prefixCode txOutJson_prefixCode.mono fun _ => ⟨_, _, rfl, by decide⟩
  refine Json.object_prefixCode [("version", fun t : P.Tx => Json.int t.version),
    ("lock_time", fun t => Json.number t.lockTime),
    ("input", fun t => Json.array (t.input.map txInJson)),
    ("output", fun t => Json.array (t.output.map txOutJson))] ?_ ?_
  · simp only [List.forall_mem_cons, List.not_mem_nil, false_imp_iff, implies_true, and_true]
    exact ⟨(Json.Separable.of_prefixCode Json.int_prefixCode).comap _,
      (Json.Separable.of_prefixCode Json.number_prefixCode).comap _, (separable hinputs).comap _,
      (separable houtputs).comap _⟩
  · rintro ⟨version, lockTime, input, output⟩ ⟨version', lockTime', input', output'⟩ h
    simp only [List.forall_mem_cons, List.not_mem_nil, false_imp_iff, implies_true, and_true] at h
    obtain ⟨h1, h2, h3, h4⟩ := h
    rw [Json.int_prefixCode.injective (by simp [Json.Ends]) h1, Json.number_injective h2,
      hinputs.injective trivial h3, houtputs.injective trivial h4]

include hxonly in
theorem coinKeysJson_prefixCode : PrefixCode (fun _ => True) (coinKeysJson (P := P)) := by
  refine Json.object_prefixCode [
    ("protocol_version", fun k : CoinKeys P => Json.number k.protocolVersion),
    ("coin_id", fun k => bytes32Json k.coinId),
    ("client_pubkey", fun k => Json.text (P.xOnlyToString k.clientPubkey)),
    ("enclave_pubkey", fun k => Json.text (P.xOnlyToString k.enclavePubkey))] ?_ ?_
  · simp only [List.forall_mem_cons, List.not_mem_nil, false_imp_iff, implies_true, and_true]
    exact ⟨(Json.Separable.of_prefixCode Json.number_prefixCode).comap _,
      (separable bytes32Json_prefixCode).comap _, (separable hxonly.prefixCode).comap _,
      (separable hxonly.prefixCode).comap _⟩
  · rintro ⟨version, coinId, client, enclave⟩ ⟨version', coinId', client', enclave'⟩ h
    simp only [List.forall_mem_cons, List.not_mem_nil, false_imp_iff, implies_true, and_true] at h
    obtain ⟨h1, h2, h3, h4⟩ := h
    rw [Json.number_injective h1, bytes32Json_prefixCode.injective trivial h2,
      hxonly.prefixCode.injective trivial h3, hxonly.prefixCode.injective trivial h4]

include houtpoint hxonly

theorem coinMetadataJson_prefixCode : PrefixCode (fun _ => True) (coinMetadataJson (P := P)) := by
  refine Json.object_prefixCode [("keys", fun m : CoinMetadata P => coinKeysJson m.keys),
    ("network", fun m => Json.text (networkName m.network)),
    ("outpoint", fun m => Json.text (P.outPointToString m.outpoint)),
    ("amount_sat", fun m => Json.number m.amountSat)] ?_ ?_
  · simp only [List.forall_mem_cons, List.not_mem_nil, false_imp_iff, implies_true, and_true]
    exact ⟨(separable (coinKeysJson_prefixCode hxonly)).comap _,
      (separable plainText_networkName.prefixCode).comap _,
      (separable houtpoint.prefixCode).comap _,
      (Json.Separable.of_prefixCode Json.number_prefixCode).comap _⟩
  · rintro ⟨keys, network, outpoint, amount⟩ ⟨keys', network', outpoint', amount'⟩ h
    simp only [List.forall_mem_cons, List.not_mem_nil, false_imp_iff, implies_true, and_true] at h
    obtain ⟨h1, h2, h3, h4⟩ := h
    rw [(coinKeysJson_prefixCode hxonly).injective trivial h1,
      plainText_networkName.prefixCode.injective trivial h2,
      houtpoint.prefixCode.injective trivial h3, Json.number_injective h4]

theorem signedRecoveryJson_prefixCode :
    PrefixCode (fun _ => True) (signedRecoveryJson (P := P)) := by
  refine Json.object_prefixCode [
    ("transaction", fun r : SignedRecovery P => transactionJson r.transaction),
    ("withdrawal_xonly_pubkey", fun r => Json.text (P.xOnlyToString r.withdrawalXonlyPubkey)),
    ("delay_blocks", fun r => Json.number r.delayBlocks)] ?_ ?_
  · simp only [List.forall_mem_cons, List.not_mem_nil, false_imp_iff, implies_true, and_true]
    exact ⟨(separable (transactionJson_prefixCode houtpoint)).comap _,
      (separable hxonly.prefixCode).comap _,
      (Json.Separable.of_prefixCode Json.number_prefixCode).comap _⟩
  · rintro ⟨transaction, key, delay⟩ ⟨transaction', key', delay'⟩ h
    simp only [List.forall_mem_cons, List.not_mem_nil, false_imp_iff, implies_true, and_true] at h
    obtain ⟨h1, h2, h3⟩ := h
    rw [(transactionJson_prefixCode houtpoint).injective trivial h1,
      hxonly.prefixCode.injective trivial h2, Json.number_injective h3]

include hsecret in
/-- Different payloads are written as different bytes. -/
theorem TransferPayload.toVec_injective : Function.Injective (toVec (P := P)) := by
  have hhistory : PrefixCode (fun _ => True) fun l : List (SignedRecovery P) =>
      Json.array (l.map signedRecoveryJson) :=
    Json.array_prefixCode (signedRecoveryJson_prefixCode houtpoint hxonly).mono
      fun _ => ⟨_, _, rfl, by decide⟩
  have hword := Json.object_prefixCode [
    ("format_version", fun p : TransferPayload P => Json.number p.formatVersion),
    ("protocol_version", fun p => Json.number p.protocolVersion),
    ("request_id", fun p => bytes32Json p.requestId),
    ("client_secret", fun p => Json.text (P.secretToString p.clientSecret)),
    ("current_handoff", fun p => bytes32Json p.currentHandoff),
    ("metadata", fun p => coinMetadataJson p.metadata),
    ("history", fun p => Json.array (p.history.map signedRecoveryJson))] ?_ ?_
  · exact hword.injective trivial
  · simp only [List.forall_mem_cons, List.not_mem_nil, false_imp_iff, implies_true, and_true]
    exact ⟨(Json.Separable.of_prefixCode Json.number_prefixCode).comap _,
      (Json.Separable.of_prefixCode Json.number_prefixCode).comap _,
      (separable bytes32Json_prefixCode).comap _, (separable hsecret.prefixCode).comap _,
      (separable bytes32Json_prefixCode).comap _,
      (separable (coinMetadataJson_prefixCode houtpoint hxonly)).comap _,
      (separable hhistory).comap _⟩
  · rintro ⟨format, version, id, secret, handoff, metadata, history⟩
      ⟨format', version', id', secret', handoff', metadata', history'⟩ h
    simp only [List.forall_mem_cons, List.not_mem_nil, false_imp_iff, implies_true, and_true] at h
    obtain ⟨h1, h2, h3, h4, h5, h6, h7⟩ := h
    rw [Json.number_injective h1, Json.number_injective h2,
      bytes32Json_prefixCode.injective trivial h3, hsecret.prefixCode.injective trivial h4,
      bytes32Json_prefixCode.injective trivial h5,
      (coinMetadataJson_prefixCode houtpoint hxonly).injective trivial h6,
      hhistory.injective trivial h7]

end PlainText

/-! ## The envelope -/

section Envelope

variable (htext : P.TextCodec) (hsecret : P.SecretCodec) (hecdh : P.EcdhSymmetric)
  (haead : P.AeadCorrect) {reader : PayloadReader P} (hreader : reader.RoundTrip)
include htext hsecret hecdh haead hreader

/-- The receiver opens the envelope that was sealed for it. -/
theorem decryptTransfer_encryptTransfer {draws : EnvelopeDraws P} {request : TransferRequest}
    {payload : TransferPayload P} {envelope : TransferEnvelope} {transport : P.SecretKey}
    (htransport : request.transportKey P = .ok (P.publicKeyOf transport))
    (hkeys : payload.metadata.keys.Valid)
    (h : encryptTransfer draws request payload = .ok envelope) :
    decryptTransfer reader request (P.secretBytes transport) envelope = .ok payload := by
  simp only [encryptTransfer, Except.bind_eq_ok, exists_unit, Except.ensure_eq_ok,
    Except.context_eq_ok, Except.pure_eq_ok, htransport, Except.ok.injEq, exists_eq_left',
    validateTransferPlaintextSize] at h
  obtain ⟨hrequest, hpayload, id, hid, hrid, key, hkey, hsize, aad, haad, ciphertext, hsealed,
    rfl⟩ := h
  rw [hrid, hecdh] at hkey
  have hlength := haead.length_encrypt _ _ _ _ _ hsealed
  simp only [decryptTransfer, Except.bind_eq_ok, exists_unit, Except.ensure_eq_ok,
    Except.context_eq_ok, Except.pure_eq_ok, htext.publicKeyFromStr_toString, hsecret transport,
    Hex.decode_encode, Option.some.injEq, exists_eq_left', hid, Except.ok.injEq]
  refine ⟨hrequest, trivial, trivial, key, hkey, draws.nonce.toList_length, ?_, aad, haad,
    payload.toVec, haead.decrypt_encrypt _ _ _ _ _ hsealed, payload, hreader payload hkeys,
    hpayload, hrid, rfl⟩
  rw [Hex.utf8ByteSize_encode, hlength]
  omega

end Envelope

/-- A payload of admissible size can be sealed for any valid request. -/
theorem encryptTransfer_isOk (htotal : P.CipherTotal) (draws : EnvelopeDraws P)
    {request : TransferRequest} (payload : TransferPayload P)
    (hrequest : request.validate P = .ok ()) (hpayload : payload.validate = .ok ())
    (hid : request.id = .ok payload.requestId)
    (hsize : validateTransferPlaintextSize payload.toVec.length = .ok ()) :
    ∃ envelope, encryptTransfer draws request payload = .ok envelope := by
  obtain ⟨_, _, _, _, _, _, _, _, _, _, _, _, _, _, _, _, transport, htransport, _⟩ :=
    TransferRequest.validate_eq_ok.1 hrequest
  obtain ⟨aad, haad⟩ := TransferRequest.aad_isOk hrequest
  obtain ⟨key, hkey⟩ := Option.isSome_iff_exists.1 (htotal.hkdfExpand_isSome payload.requestId
    (P.sharedSecret transport draws.ephemeral) transferInfo)
  have hlength : payload.toVec.length < 2 ^ 32 := by
    have hle := Except.ensure_eq_ok.1 hsize
    simp only [maxTransferCiphertextSize] at hle
    omega
  obtain ⟨ciphertext, hsealed⟩ := Option.isSome_iff_exists.1
    (htotal.aeadEncrypt_isSome key draws.nonce.toList payload.toVec aad draws.nonce.toList_length
      hlength)
  simp only [encryptTransfer, Except.bind_eq_ok, exists_unit, Except.ensure_eq_ok, transferKey,
    Except.context_eq_ok, Except.pure_eq_ok]
  exact ⟨_, hrequest, hpayload, _, hid, rfl, transport, htransport, key, hkey, hsize, aad, haad,
    ciphertext, hsealed, rfl⟩

/-- For a valid request, a payload of admissible size never fails the size check. -/
theorem encryptTransfer_ne_tooLarge (draws : EnvelopeDraws P) {request : TransferRequest}
    {payload : TransferPayload P} (hrequest : request.validate P = .ok ())
    (hpayload : payload.validate = .ok ())
    (hsize : validateTransferPlaintextSize payload.toVec.length = .ok ()) :
    encryptTransfer draws request payload ≠
      .error "transfer package exceeds 8 MiB ciphertext limit" := by
  obtain ⟨_, _, id, hid, _, _, _, _, _, _, _, _, _, _, _, _, transport, htransport, _⟩ :=
    TransferRequest.validate_eq_ok.1 hrequest
  obtain ⟨aad, haad⟩ := TransferRequest.aad_isOk hrequest
  unfold encryptTransfer
  refine Except.bind_ne_error (Except.ne_error_of_ok hrequest) fun _ _ => ?_
  refine Except.bind_ne_error (Except.ne_error_of_ok hpayload) fun _ _ => ?_
  refine Except.bind_ne_error (Except.ne_error_of_ok hid) fun _ _ => ?_
  refine Except.bind_ne_error (Except.ensure_ne_error (by decide)) fun _ _ => ?_
  refine Except.bind_ne_error (Except.ne_error_of_ok htransport) fun _ _ => ?_
  refine Except.bind_ne_error (Except.context_ne_error (by decide)) fun _ _ => ?_
  refine Except.bind_ne_error (Except.ne_error_of_ok hsize) fun _ _ => ?_
  refine Except.bind_ne_error (Except.ne_error_of_ok haad) fun _ _ => ?_
  refine Except.bind_ne_error (Except.context_ne_error (by decide)) fun _ _ => ?_
  simp [pure, Except.pure]

end Tinylayer
