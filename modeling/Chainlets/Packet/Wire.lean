import Chainlets.Failure
import Chainlets.Json.Record
import Chainlets.Packet.Basic
import Chainlets.Text.Base64

/-!
# The wire format of packets

Packets and acknowledgements are JSON objects with one field, whose name says what kind of packet
or answer it is. The payload of a success is JSON again, in base64.

## Main definitions

* `PacketData.encode`, `PacketData.decode`.
* `Acknowledgement.encode`, `Acknowledgement.decode`.
* `Acknowledgement.success`, `Acknowledgement.payload` — a success with a payload, and its payload.
-/

namespace Chainlets

namespace Json

/-- The name and the value of an object's only field. -/
def only? : Json → Option (String × Json)
  | .object [(key, value)] => (Utf8.decode? key).map fun name => (name, value)
  | _ => none

/-- The text of a field that stands for the empty text if it is missing. -/
def textOrEmpty : (field : Option Json) → Option String
  | none => some ""
  | some j => j.text?

instance : Format PacketData where
  toJson
    | .create chainId planName height info =>
      record [("create_upgrade", record [("chain_id", toJson chainId),
        ("plan_name", toJson planName), ("height", toJson height), ("info", toJson info)])]
    | .cancel chainId plan =>
      record [("cancel_upgrade", record [("chain_id", toJson chainId), ("plan", toJson plan)])]
    | .confirm chainId height plan =>
      record [("confirm_upgrade", record [("chain_id", toJson chainId), ("height", toJson height),
        ("plan", toJson plan)])]
  ofJson? j := do
    let (name, value) ← j.only?
    if name = "create_upgrade" then
      match ← fields? ["chain_id", "plan_name", "height", "info"] 0 value with
      | [chainId, planName, height, info] =>
        return .create (← required chainId) (← required planName) (← required height)
          (← required info)
      | _ => none
    else if name = "cancel_upgrade" then
      match ← fields? ["chain_id", "plan"] 0 value with
      | [chainId, plan] => return .cancel (← required chainId) (← required plan)
      | _ => none
    else if name = "confirm_upgrade" then
      match ← fields? ["chain_id", "height", "plan"] 1 value with
      | [chainId, height, plan] =>
        return .confirm (← required chainId) (← required height) (← textOrEmpty plan)
      | _ => none
    else none

instance : Format Acknowledgement where
  toJson
    | .result payload => record [("result", toJson payload)]
    | .error reason => record [("error", toJson reason)]
  ofJson? j := do
    let (name, value) ← j.only?
    if name = "result" then return .result (← value.text?)
    else if name = "error" then return .error (← value.text?)
    else none

instance : Format EmptyPayload where
  toJson _ := .object []
  ofJson? j := (fields? [] 0 j).map fun _ => ⟨⟩

/-- The value of the JSON text of a packet or a payload. -/
def readPacket {α : Type} [Format α] (bytes : Bytes) : Except BadPacket α :=
  match read? bytes with
  | some a => .ok a
  | none => .error .undecodable

end Json

namespace PacketData

/-- The bytes of a packet's content. -/
def encode (data : PacketData) : Bytes := Json.print data

/-- The content of a packet's bytes. -/
def decode (bytes : Bytes) : Except BadPacket PacketData := Json.readPacket bytes

end PacketData

namespace Acknowledgement

/-- The bytes of an acknowledgement. -/
def encode (ack : Acknowledgement) : Bytes := Json.print ack

/-- The acknowledgement of bytes. -/
def decode (bytes : Bytes) : Except BadPacket Acknowledgement := Json.readPacket bytes

/-- A success with a payload. -/
def success {α : Type} [Json.Format α] (payload : α) : Acknowledgement :=
  .result (Base64.encode (Json.print payload))

/-- The payload of a success. An error has none. -/
def payload {α : Type} [Json.Format α] : Acknowledgement → Except BadPacket (Option α)
  | .error _ => .ok none
  | .result text =>
    match Base64.decode? text with
    | some bytes => (Json.readPacket bytes).map some
    | none => .error .undecodable

end Acknowledgement

end Chainlets
