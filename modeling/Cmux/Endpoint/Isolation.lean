import Cmux.Endpoint.ClientIsolation
import Cmux.Endpoint.ServerIsolation

/-! Channels disturb each other through the memory they share, and in no other way. -/
namespace Cmux

section Both
variable {clientOptions : CmuxClientOptions} {serverOptions : CmuxServerOptions}

end Both

def dataOnOne : ReceivedFrame where
  octets := builtFrame (dataFrame true 1 (some [0x68, 0x69]) 2) fun _ => 0
  valid := by decide +kernel

def callsOnOneAndTwo : List ClientCall :=
  [ClientCall.terminalOpen 1 none, ClientCall.terminalClose 2, ClientCall.receive dataOnOne]

def serverCallsOnOneAndTwo : List ServerCall :=
  [ServerCall.registerTerminal 1 (some ⟨true, true, true⟩), ServerCall.receive dataOnOne,
    ServerCall.terminalClose 2]

/-- Two octets of data on DLCI 2, and then a close-down as UI on DLCI 1. -/
def uiBehindData : List ClientCall :=
  [ClientCall.terminalSend 2 (some [0x41, 0x54]) 2, ClientCall.request 1 ControlType.ui
    (some ⟨CmuxService.multiplexerCloseDown, true, ServiceData.none⟩)]

/-- The memory of an allocator that hands out again the block that was freed last. -/
def reusedBlock (options : CmuxClientOptions) :
    Memory (CmuxClient options) ClientCall (ℕ → UInt8) where
  State := ℕ → UInt8
  found heap := heap
  after heap _ call := (call.frameInfo heap).elim heap fun info =>
    (Access.Prog.memory (cmuxFrameBuilder info) heap)

end Cmux
