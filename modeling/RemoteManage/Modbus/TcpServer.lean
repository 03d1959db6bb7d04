import RemoteManage.Foundation.BufferMemory
import RemoteManage.Modbus.PduConfinement
import RemoteManage.Modbus.FrameBounds

/-!
# The slave that a TCP client talks to

The stack over `rx_tcp_buffer` with its own function handlers. A handler gets the frame as it lies in the
buffer behind the MBAP header, with what earlier requests and replies have left behind it. When no
request arrives before the earlier ones are executed, and each is answered from its own bytes, a client
sees the device, one reply for each request in their order.
-/

namespace RemoteManage.Modbus

open RemoteManage.Foundation

section Buffer

variable (b : FixedBuffer UInt8 rxTcpBufferSize)

end Buffer

/-- The reply to a client: the transaction and the protocol of the request, the length of the PDU with the
unit, the unit of the request, and the PDU. -/
def mbapReply (request pdu : List UInt8) : List UInt8 :=
  let usLength := pdu.length + 1
  request.take mbTcpLen ++ [(usLength / 2 ^ 8).toUInt8, usLength.toUInt8, request.getD 6 0] ++ pdu

/-- The cells of a request from its function code on, with nothing behind it. -/
def TcpRequest.cells (r : TcpRequest) (k : ℕ) : UInt8 := r.bytes.getD (mbTcpFunc + k) 0

/-- The length of the PDU of a request. -/
def TcpRequest.pduLength (r : TcpRequest) : ℕ := r.bytes.length - mbTcpFunc

/-- What the device does with a request of a client, and what the client gets. -/
def tcpStep (d : Device) (r : TcpRequest) : Device × List UInt8 :=
  let answered := d.answer r.cells r.pduLength
  (answered.1, mbapReply r.bytes answered.2)

namespace TcpPort

variable {s : TcpPort MbRegisters} {r : TcpRequest}

/-- What the clients have got, and the items that are left, are those of the device after some requests. -/
structure AnswersAll (d : Device) (s : TcpPort MbRegisters) (requests : List TcpRequest) : Prop where
  sent : s.sent = Mealy.outputs tcpStep d requests
  device : s.registers.device = Mealy.after tcpStep d requests
  intact : s.rxTcpBuffer.overrun = false

/-- How far the server is with the last request, when the earlier ones are answered. -/
inductive Serving (d : Device) (s : TcpPort MbRegisters) : Prop where
  | idle (hqueue : s.queue = []) (hdone : s.AnswersAll d s.requests)
  | received (r : TcpRequest) (requests : List TcpRequest) (hqueue : s.queue = [.frameReceived])
      (hheld : s.Holds r) (hcovered : Covered r.cells r.pduLength) (hrequests : s.requests = requests ++ [r])
      (hdone : s.AnswersAll d requests)
  | taken (r : TcpRequest) (requests : List TcpRequest) (hqueue : s.queue = [.execute]) (htaken : s.Taken r)
      (hcovered : Covered r.cells r.pduLength) (hrequests : s.requests = requests ++ [r])
      (hdone : s.AnswersAll d requests)

/-- A request arrives when the earlier ones are executed, and is one that is answered from its own bytes. -/
def Orderly (s : TcpPort MbRegisters) : TcpEvent → Prop
  | .receive r => s.queue = [] ∧ Covered r.cells r.pduLength
  | .poll => True

instance (s : TcpPort MbRegisters) : ∀ e, Decidable (Orderly s e)
  | .receive _ => inferInstanceAs (Decidable (_ ∧ _))
  | .poll => inferInstanceAs (Decidable True)

end TcpPort

end RemoteManage.Modbus
