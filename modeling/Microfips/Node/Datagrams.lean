import Microfips.EspNow.Transport
import Microfips.L2cap.Relay
import Microfips.Node.Steady

/-!
# Datagrams and the receive buffer

The two datagram transports accept frames of up to 2048 bytes, and the node calls their `recv` with
a buffer of 1500.  What does not fit is cut off, and `recv` does not tell.
-/

namespace Microfips
namespace Node

open Steady (recvBufSize)
open L2cap (Link LinkEvent Watched parseSdu)
open EspNow (EspNowTransport)

def heardFrom (data : Bytes) : List EspNowTransport.Heard :=
  (List.range (data.windowCount EspNow.maxChunk)).map fun i =>
    ⟨EspNow.SrcReassembler.macA, EspNow.fragment 0 data i, true, true⟩

end Node
end Microfips
