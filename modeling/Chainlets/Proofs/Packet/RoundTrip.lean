import Chainlets.Packet.Wire
import Chainlets.Proofs.Json.Record
import Chainlets.Proofs.Text.Base64

/-!
# Packets survive the wire

Whatever a packet or an answer says, it is read back from its bytes as it was. So is the payload of
an answer, which is JSON text in base64 inside a string of JSON.

## Main definitions

* `Acknowledgement.Carries` — an answer is a success with a payload.
* `Acknowledgement.Delivers` — a payload is taken out of a success as it was put in.

## Main results

* `PacketData.decode_encode` — packets survive the wire.
* `Acknowledgement.decode_encode` — answers survive the wire.
* `Packet.survives_wire` — **packets, answers and payloads survive the wire.**
-/

namespace Chainlets

namespace Json

/-- An object with one field is read by its name. -/
theorem bind_only? {β : Type} (name : String) (value : Json) (f : String × Json → Option β) :
    (record [(name, value)]).only?.bind f = f (name, value) := by
  have hdecode : Utf8.decode? (Utf8.encode name) = some name := text?_text name
  rw [record, List.map_singleton, only?, hdecode]
  rfl

instance : Lawful PacketData where
  ofJson?_toJson data := by
    cases data with
    | create chainId planName height info =>
      refine (bind_only? "create_upgrade" _ _).trans ((if_pos rfl).trans ?_)
      refine (bind_fields?_record (by simp) 0 _).trans ?_
      simp
    | cancel chainId plan =>
      refine (bind_only? "cancel_upgrade" _ _).trans ((if_neg (by decide)).trans ?_)
      refine (if_pos rfl).trans ((bind_fields?_record (by simp) 0 _).trans ?_)
      simp
    | confirm chainId height plan =>
      have hplan : textOrEmpty (some (toJson plan)) = some plan := text?_text plan
      refine (bind_only? "confirm_upgrade" _ _).trans ((if_neg (by decide)).trans ?_)
      refine (if_neg (by decide)).trans ((if_pos rfl).trans ?_)
      refine (bind_fields?_record (by simp) 1 _).trans ?_
      simp [hplan]

instance : Lawful Acknowledgement where
  ofJson?_toJson ack := by
    cases ack with
    | result payload =>
      have hpayload : (toJson payload).text? = some payload := text?_text payload
      refine (bind_only? "result" _ _).trans ?_
      simp [hpayload]
    | error reason =>
      have hreason : (toJson reason).text? = some reason := text?_text reason
      refine (bind_only? "error" _ _).trans ?_
      simp [hreason]

instance : Lawful EmptyPayload := ⟨fun _ => rfl⟩

theorem readPacket_print {α : Type} [Format α] [Lawful α] (a : α) :
    readPacket (print a) = .ok a := by
  rw [readPacket, read?_print]

end Json

/-- **Packets survive the wire.** -/
@[simp]
theorem PacketData.decode_encode (data : PacketData) : decode data.encode = .ok data :=
  Json.readPacket_print data

theorem PacketData.encode_injective : Function.Injective PacketData.encode := fun data data' h => by
  have hdecoded := congrArg decode h
  rw [decode_encode, decode_encode] at hdecoded
  exact Except.ok.inj hdecoded

namespace Acknowledgement

/-- **Answers survive the wire.** -/
@[simp]
theorem decode_encode (ack : Acknowledgement) : decode ack.encode = .ok ack :=
  Json.readPacket_print ack

theorem encode_injective : Function.Injective encode := fun ack ack' h => by
  have hdecoded := congrArg decode h
  rw [decode_encode, decode_encode] at hdecoded
  exact Except.ok.inj hdecoded

/-! ### Payloads -/

variable {α : Type} [Json.Format α]

/-- An answer is a success, and carries a payload. -/
def Carries (ack : Acknowledgement) (t : α) : Prop :=
  ack.isSuccess = true ∧ ack.payload = .ok (some t)

/-- A success carries the payload that it was made of, and still does when it has been sent. -/
def Delivers (t : α) : Prop :=
  (success t).Carries t ∧ ∃ ack, decode (success t).encode = .ok ack ∧ ack.Carries t

/-- A payload is taken out of a success as it was put in. -/
theorem carries_success [Json.Lawful α] (t : α) : (success t).Carries t := by
  refine ⟨rfl, ?_⟩
  rw [success, payload, Base64.decode?_encode]
  change (Json.readPacket (Json.print t)).map some = _
  rw [Json.readPacket_print]
  rfl

theorem delivers [Json.Lawful α] (t : α) : Delivers t :=
  ⟨carries_success t, _, decode_encode _, carries_success t⟩

end Acknowledgement

/-- **Packets, answers and payloads survive the wire.** So different packets have different bytes,
and if their commitments agree then that is a collision of the hash. -/
theorem Packet.survives_wire :
    (∀ data : PacketData, PacketData.decode data.encode = .ok data) ∧
    (∀ ack : Acknowledgement, Acknowledgement.decode ack.encode = .ok ack) ∧
    (∀ t : EmptyPayload, Acknowledgement.Delivers t) ∧
    (∀ t : PacketData, Acknowledgement.Delivers t) ∧
    Function.Injective PacketData.encode ∧ Function.Injective Acknowledgement.encode ∧
    ∀ data data' : PacketData, data ≠ data' →
      Commitment.of data.encode = Commitment.of data'.encode →
      data.encode ≠ data'.encode ∧ Sha256.digest data.encode = Sha256.digest data'.encode := by
  refine ⟨PacketData.decode_encode, Acknowledgement.decode_encode, Acknowledgement.delivers,
    Acknowledgement.delivers, PacketData.encode_injective, Acknowledgement.encode_injective, ?_⟩
  intro data data' hne hcommitment
  exact ⟨fun hbytes => hne (PacketData.encode_injective hbytes), congrArg (·.bytes) hcommitment⟩

end Chainlets
