import Tinylayer.Wallet.Proofs.PayloadProofs

/-!
# Proofs: what a transfer request is bound to

The associated data of a transfer package is the concatenation of eleven fields. Each of them is
written with a fixed number of bytes, so the fields are told apart, and the texts of a valid request
are determined by the values that are read from them.
-/

namespace Tinylayer

variable {P : Platform}

/-! ## Fields of fixed width -/

theorem length_beBytes (width n : Nat) : (beBytes width n).length = width := by
  simp [beBytes]

/-- The digits of a number to the base 256 determine it. -/
theorem eq_of_digits_eq {width m n : Nat} (hm : m < 256 ^ width) (hn : n < 256 ^ width)
    (h : ∀ i < width, m / 256 ^ i % 256 = n / 256 ^ i % 256) : m = n := by
  induction width generalizing m n with
  | zero =>
    rw [Nat.pow_zero] at hm hn
    omega
  | succ width ih =>
    rw [Nat.pow_succ, Nat.mul_comm] at hm hn
    have hlow : m % 256 = n % 256 := by simpa using h 0 (Nat.succ_pos width)
    have hhigh : m / 256 = n / 256 := by
      refine ih (Nat.div_lt_of_lt_mul hm) (Nat.div_lt_of_lt_mul hn) fun i hi => ?_
      have hdigit := h (i + 1) (Nat.succ_lt_succ hi)
      rwa [Nat.pow_succ, Nat.mul_comm, ← Nat.div_div_eq_div_mul, ← Nat.div_div_eq_div_mul]
        at hdigit
    omega

theorem beBytes_inj {width m n : Nat} (hm : m < 256 ^ width) (hn : n < 256 ^ width)
    (h : beBytes width m = beBytes width n) : m = n := by
  refine eq_of_digits_eq hm hn fun i hi => ?_
  have hbyte := List.map_inj_left.1 h i (by simpa using hi)
  simpa [← UInt8.toNat_inj] using hbyte

/-- A code all of whose words have the same length can be read in front of anything. -/
theorem prefixCode_of_length {α S : Type} {word : α → List S} {width : Nat}
    (hlength : ∀ a, (word a).length = width) (hinj : Function.Injective word) :
    PrefixCode (fun _ => True) word := by
  intro a b x y _ _ h
  obtain ⟨hword, hrest⟩ := List.append_inj h ((hlength a).trans (hlength b).symm)
  exact ⟨hinj hword, hrest⟩

theorem beBytes_append_inj {width m n : Nat} {x y : List UInt8} (hm : m < 256 ^ width)
    (hn : n < 256 ^ width) (h : beBytes width m ++ x = beBytes width n ++ y) :
    m = n ∧ x = y := by
  obtain ⟨hbytes, hrest⟩ :=
    List.append_inj h ((length_beBytes width m).trans (length_beBytes width n).symm)
  exact ⟨beBytes_inj hm hn hbytes, hrest⟩

theorem bytes32_prefixCode : PrefixCode (fun _ => True) fun bytes : Bytes32 => bytes.toList :=
  prefixCode_of_length List.Vector.toList_length List.Vector.toList_injective

theorem networkByte_injective : Function.Injective TransferRequest.networkByte := by
  rintro (_ | _ | _) (_ | _ | _) h <;> first | rfl | exact absurd h (by decide)

/-! ## The associated data -/

variable (P) in
/-- The numbers of a request that no check bounds fit in their integer types. -/
structure TransferRequest.InRange (request : TransferRequest) : Prop where
  minReactionBlocks : request.minReactionBlocks ≤ u32Max
  vout : ∀ outpoint, request.parseOutpoint P = .ok outpoint → outpoint.vout ≤ u32Max

/-- Requests with the same associated data are the same, all texts included. -/
theorem TransferRequest.aad_injective (hwire : P.WireCodec) {request request' : TransferRequest}
    (hrange : request.InRange P) (hrange' : request'.InRange P) {aad : List UInt8}
    (h : request.aad P = .ok aad) (h' : request'.aad P = .ok aad) : request' = request := by
  simp only [TransferRequest.aad, Except.bind_eq_ok, exists_unit, Except.pure_eq_ok] at h h'
  obtain ⟨hvalid, outpoint, hout, id, hid, coinId, hcoinId, key, hkey, hash, hhash, transport,
    htransport, rfl⟩ := h
  obtain ⟨hvalid', outpoint', hout', id', hid', coinId', hcoinId', key', hkey', hash', hhash',
    transport', htransport', haad⟩ := h'
  obtain ⟨hformat, hversion, _, hid₁, _, hcoinId₁, htexts, _, hout₁, _, houtText, hamount, _,
    hkey₁, _, hhash₁, _, htransport₁, hkeyText, hhashText, htransportText⟩ :=
    validate_eq_ok.1 hvalid
  obtain ⟨hformat', hversion', _, hid₂, _, hcoinId₂, htexts', _, hout₂, _, houtText', hamount', _,
    hkey₂, _, hhash₂, _, htransport₂, hkeyText', hhashText', htransportText'⟩ :=
    validate_eq_ok.1 hvalid'
  cases hid.symm.trans hid₁
  cases hid'.symm.trans hid₂
  cases hcoinId.symm.trans hcoinId₁
  cases hcoinId'.symm.trans hcoinId₂
  cases hout.symm.trans hout₁
  cases hout'.symm.trans hout₂
  cases hkey.symm.trans hkey₁
  cases hkey'.symm.trans hkey₂
  cases hhash.symm.trans hhash₁
  cases hhash'.symm.trans hhash₂
  cases htransport.symm.trans htransport₁
  cases htransport'.symm.trans htransport₂
  have hmoney : maxMoney < 256 ^ 8 := by decide
  have hu32 : u32Max < 256 ^ 4 := by decide
  -- the fields of the associated data are read one after the other
  rw [hversion, hversion'] at haad
  simp only [List.append_assoc] at haad
  have haad := List.append_cancel_left (List.append_cancel_left haad)
  obtain ⟨hidEq, haad⟩ := bytes32_prefixCode _ _ _ _ trivial trivial haad
  obtain ⟨hcoinIdEq, haad⟩ := bytes32_prefixCode _ _ _ _ trivial trivial haad
  obtain ⟨hnetwork, haad⟩ := PrefixCode.symbol _ _ _ _ trivial trivial haad
  obtain ⟨htxid, haad⟩ :=
    prefixCode_of_length hwire.txid_length hwire.txid_inj _ _ _ _ trivial trivial haad
  obtain ⟨hvout, haad⟩ := beBytes_append_inj (Nat.lt_of_le_of_lt (hrange'.vout _ hout') hu32)
    (Nat.lt_of_le_of_lt (hrange.vout _ hout) hu32) haad
  obtain ⟨hamountEq, haad⟩ := beBytes_append_inj (Nat.lt_of_le_of_lt hamount' hmoney)
    (Nat.lt_of_le_of_lt hamount hmoney) haad
  obtain ⟨hkeyEq, haad⟩ :=
    prefixCode_of_length hwire.xOnly_length hwire.xOnly_inj _ _ _ _ trivial trivial haad
  obtain ⟨hhashEq, haad⟩ :=
    prefixCode_of_length hwire.digest_length hwire.digest_inj _ _ _ _ trivial trivial haad
  obtain ⟨htransportEq, haad⟩ :=
    prefixCode_of_length hwire.publicKey_length hwire.publicKey_inj _ _ _ _ trivial trivial haad
  have hmarginEq := beBytes_inj (Nat.lt_of_le_of_lt hrange'.minReactionBlocks hu32)
    (Nat.lt_of_le_of_lt hrange.minReactionBlocks hu32) haad
  have houtEq : outpoint' = outpoint := OutPoint.ext htxid hvout
  -- and each text is the canonical one of what was read from it
  apply TransferRequest.ext
  case formatVersion => rw [hformat', hformat]
  case protocolVersion => rw [hversion', hversion]
  case requestId => rw [htexts'.1, htexts.1, hidEq]
  case coinId => rw [htexts'.2, htexts.2, hcoinIdEq]
  case network => exact networkByte_injective hnetwork
  case outpoint => rw [houtText', houtText, houtEq]
  case expectedAmountSat => exact hamountEq
  case withdrawalXonlyPubkey => rw [hkeyText', hkeyText, hkeyEq]
  case nextCapabilityHash => rw [hhashText', hhashText, hhashEq]
  case transportPublicKey => rw [htransportText', htransportText, htransportEq]
  case minReactionBlocks => exact hmarginEq

end Tinylayer
