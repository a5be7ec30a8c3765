import Cmux.Endpoint.Client
import Cmux.Endpoint.Server
import Cmux.Foundation.Pipeline

/-! A client and a server joined by two queues of frames. An UA does not say which command it
answers, and the client reads it against the frame it recorded last on the DLCI. -/
namespace Cmux
open Pipeline

/-- A frame of the server on its way, with the frame of the client it answers, which the client
does not see. -/
structure Reply where
  octets : List UInt8
  answers : List UInt8

structure Link (clientOptions : CmuxClientOptions) (serverOptions : CmuxServerOptions) where
  client : CmuxClient clientOptions
  server : CmuxServer serverOptions
  toServer : List (List UInt8)
  toClient : List Reply

/-- A call of the application on the client, or the delivery of the oldest frame of a queue. -/
inductive LinkAction where
  | terminalOpen (dlci : UInt8)
  | terminalSend (dlci : UInt8) (data : Option (List UInt8)) (len : ℕ)
  | terminalClose (dlci : UInt8)
  | deliverToServer
  | deliverToClient
  deriving DecidableEq, Repr

structure LinkEvents where
  client : List ClientEvent
  server : List ServerEvent
  deriving DecidableEq, Repr

def allTerminalCallbacks : CmuxClientTerminalOptions := ⟨true, true, true⟩

section Link
variable {clientOptions : CmuxClientOptions} {serverOptions : CmuxServerOptions}

def Link.callClient (link : Link clientOptions serverOptions) (call : ClientCall)
    (heap : ℕ → UInt8) : Link clientOptions serverOptions × LinkEvents :=
  let called := call.run link.client heap
  ({ link with
      client := called.1
      toServer := link.toServer ++ called.2.events.filterMap ClientEvent.sent? },
    ⟨called.2.events, []⟩)

/-- One step, with the memory that stands behind what it allocates or is handed. Nothing is
delivered from an empty queue. -/
def Link.run (link : Link clientOptions serverOptions) (action : LinkAction) (heap : ℕ → UInt8) :
    Link clientOptions serverOptions × LinkEvents :=
  match action with
  | .terminalOpen dlci =>
    link.callClient (ClientCall.terminalOpen dlci (some allTerminalCallbacks)) heap
  | .terminalSend dlci data len => link.callClient (ClientCall.terminalSend dlci data len) heap
  | .terminalClose dlci => link.callClient (ClientCall.terminalClose dlci) heap
  | .deliverToServer =>
    match link.toServer with
    | [] => (link, ⟨[], []⟩)
    | frame :: toServer =>
      let handled := serverOnControlMessage link.server (processIngressFrame frame heap).1 heap
      ({ link with
          server := handled.1
          toServer := toServer
          toClient := link.toClient ++
            (handled.2.events.filterMap ServerEvent.sent?).map fun octets => ⟨octets, frame⟩ },
        ⟨[], handled.2.events⟩)
  | .deliverToClient =>
    match link.toClient with
    | [] => (link, ⟨[], []⟩)
    | reply :: toClient =>
      ({ link with toClient := toClient },
        ⟨(clientOnControlMessage link.client
          (processIngressFrame reply.octets heap).1 heap).events, []⟩)

def linkMachine (clientOptions : CmuxClientOptions) (serverOptions : CmuxServerOptions) :
    Mealy (Link clientOptions serverOptions) (LinkAction × (ℕ → UInt8)) LinkEvents where
  step link input := link.run input.1 input.2

/-! ### The terminal life cycle -/

/-- What happens to a terminal, as a command and as a callback. -/
inductive Lifecycle where
  | opened
  | closed
  deriving DecidableEq, Repr

def frameType : Option Lifecycle → ControlType
  | some Lifecycle.opened => ControlType.sabm
  | some Lifecycle.closed => ControlType.disc
  | none => ControlType.uih

def commandOf (type : ControlType) : Option Lifecycle :=
  if type = ControlType.sabm then some Lifecycle.opened
  else if type = ControlType.disc then some Lifecycle.closed else none

theorem commandOf_frameType (message : Option Lifecycle) :
    commandOf (frameType message) = message := by
  cases message with
  | none => rfl
  | some command => cases command <;> rfl

theorem commandOf_eq_some {type : ControlType} {command : Lifecycle} :
    commandOf type = some command ↔ type = frameType (some command) := by
  constructor
  · intro h
    unfold commandOf at h
    split_ifs at h with hsabm hdisc
    · cases h; exact hsabm
    · cases h; exact hdisc
  · rintro rfl
    exact commandOf_frameType _

def ClientEvent.lifecycle? (dlci : UInt8) : ClientEvent → Option Lifecycle
  | onTerminalOpen d => if d = dlci then some Lifecycle.opened else none
  | onTerminalClose d => if d = dlci then some Lifecycle.closed else none
  | _ => none

def ServerEvent.lifecycle? (dlci : UInt8) : ServerEvent → Option Lifecycle
  | onTerminalOpen d => if d = dlci then some Lifecycle.opened else none
  | onTerminalClose d => if d = dlci then some Lifecycle.closed else none
  | _ => none

def clientLifecycle (dlci : UInt8) (events : LinkEvents) : List Lifecycle :=
  events.client.filterMap (ClientEvent.lifecycle? dlci)

def serverLifecycle (dlci : UInt8) (events : LinkEvents) : List Lifecycle :=
  events.server.filterMap (ServerEvent.lifecycle? dlci)

/-! ### Admissible runs -/

def LinkAction.dlci : LinkAction → Option UInt8
  | terminalOpen dlci => some dlci
  | terminalSend dlci _ _ => some dlci
  | terminalClose dlci => some dlci
  | _ => none

/-- A DLCI of a terminal that fits the tables and the address field. -/
def TerminalDlci (maximumDlci dlci : UInt8) : Prop :=
  1 ≤ dlci ∧ dlci.toNat < min maximumDlci.toNat 64

instance (maximumDlci dlci : UInt8) : Decidable (TerminalDlci maximumDlci dlci) :=
  inferInstanceAs (Decidable (_ ∧ _))

theorem terminalDlci_ne_zero {maximumDlci d : UInt8} (h : TerminalDlci maximumDlci d) :
    d ≠ 0 :=
  dlci_ne_zero h.1

theorem terminalDlci_le {maximumDlci d : UInt8} (h : TerminalDlci maximumDlci d) :
    ¬ d > maximumDlci :=
  dlci_not_gt h.2

def LinkAction.opens : LinkAction → List UInt8
  | terminalOpen dlci => [dlci]
  | _ => []

/-- The first call on each DLCI opens it, when the DLCIs of `opened` are open already. -/
def OpensFirst : List UInt8 → List LinkAction → Prop
  | _, [] => True
  | opened, action :: actions =>
    (∀ d ∈ action.dlci, d ∈ action.opens ++ opened) ∧ OpensFirst (action.opens ++ opened) actions

instance : ∀ opened actions, Decidable (OpensFirst opened actions)
  | _, [] => inferInstanceAs (Decidable True)
  | opened, action :: actions =>
    have := instDecidableOpensFirst (action.opens ++ opened) actions
    inferInstanceAs (Decidable ((∀ d ∈ action.dlci, d ∈ action.opens ++ opened) ∧ _))

def CmuxServer.Registered (server : CmuxServer serverOptions) : Prop :=
  ∀ d : UInt8, TerminalDlci serverOptions.maximumDlci d →
    server.terminalOption d = ⟨true, true, true⟩

instance (server : CmuxServer serverOptions) : Decidable server.Registered :=
  inferInstanceAs (Decidable (∀ _, _ → _))

/-- Every UA is delivered while the frame recorded last on its DLCI has the type of the frame
that the UA answers. -/
def AcknowledgesLast (dlci : UInt8) (link : Link clientOptions serverOptions)
    (input : LinkAction × (ℕ → UInt8)) : Prop :=
  input.1 = LinkAction.deliverToClient → ∀ reply ∈ link.toClient.head?,
    IsFrame ControlType.ua dlci reply.octets →
      IsFrame (link.client.lastFrameInfo dlci).type dlci reply.answers

instance (dlci : UInt8) (link : Link clientOptions serverOptions)
    (input : LinkAction × (ℕ → UInt8)) : Decidable (AcknowledgesLast dlci link input) := by
  unfold AcknowledgesLast
  infer_instance

end Link
end Cmux
