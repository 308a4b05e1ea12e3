import Tinylayer.Native.Store

/-!
# Artifacts

The JSON files that wallets hand to each other, as `wallet/src/store.rs` writes and reads them.
-/

namespace Tinylayer

/-- `serde_json::to_vec_pretty` of an envelope. -/
def TransferEnvelope.toVecPretty (self : TransferEnvelope) : List UInt8 :=
  Json.prettyObject [
    Json.prettyField "format_version" (Json.number self.formatVersion),
    Json.prettyField "request_id" (Json.text self.requestId),
    Json.prettyField "ephemeral_public_key" (Json.text self.ephemeralPublicKey),
    Json.prettyField "nonce" (Json.text self.nonce),
    Json.prettyField "ciphertext" (Json.text self.ciphertext)]

/-- `write_json_destination`, up to the writing itself: the bytes that the destination gets. -/
def writeJsonDestination (json : List UInt8) : Except String (List UInt8) := do
  let bytes := json ++ [10]
  ensure (bytes.length ≤ maxFileSize) "output exceeds 16 MiB limit"
  return bytes

/-- `read_limited`: no more than the limit and one byte are read. -/
def readLimited (source : List UInt8) : Except String (List UInt8) := do
  let bytes := source.take (maxFileSize + 1)
  ensure (bytes.length ≤ maxFileSize) "input exceeds 16 MiB limit"
  return bytes

end Tinylayer
