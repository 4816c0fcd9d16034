import Chainlets.Clock

/-!
# Channels and where they lead

Anyone can open a channel to the module's port, so a channel is trusted to carry packets of a
chainlet only if the walk from the channel over its one connection ends at the light client that
tracks that chainlet.

## Main definitions

* `Routes` — what is known of channels, connections and light clients.
* `Channel.lead` — the walk from a channel to an expected light client.
* `Channel.leadOpen` — the same for a channel over which a packet is to be sent.
* `ChannelFault` — why a channel is not trusted.
-/

namespace Chainlets

/-- The state of one end of a channel. -/
inductive ChannelState where
  | init
  | tryOpen
  | isOpen
  | closed
deriving DecidableEq, Repr

/-- The name of a channel state. -/
def ChannelState.name : ChannelState → String
  | .init => "Init"
  | .tryOpen => "TryOpen"
  | .isOpen => "Open"
  | .closed => "Closed"

/-- One end of a channel. -/
structure ChannelEnd where
  /-- Its state. -/
  state : ChannelState
  /-- The connections that it goes over. -/
  hops : List String
deriving DecidableEq, Repr

/-- What is known of channels, connections and light clients. -/
structure Routes where
  /-- The end of a channel on a port. -/
  channel? : (port channel : String) → Option ChannelEnd
  /-- The light client of a connection. -/
  client? : (connection : String) → Option String
  /-- The greatest height that a light client has seen. -/
  height? : (client : String) → Option Height

/-- Why a channel is not trusted. -/
inductive ChannelFault where
  /-- The port is not the module's. -/
  | unexpectedPort (port : String)
  /-- There is no such channel. -/
  | notFound (port channel : String)
  /-- The channel does not go over exactly one connection. -/
  | hops (channel : String) (count : Nat)
  /-- There is no such connection. -/
  | connectionNotFound (connection : String)
  /-- The channel leads to another light client. -/
  | clientMismatch (channel expected actual : String)
  /-- The channel is not open. -/
  | notOpen (channel : String) (state : ChannelState)
  /-- The light client has not seen any height. -/
  | heightUnknown (client : String)
  /-- The upgrade was negotiated over another channel. -/
  | unexpectedChannel (recorded actual : String)
deriving DecidableEq, Repr

/-- The wording of a fault. -/
def ChannelFault.message : ChannelFault → String
  | .unexpectedPort port => s!"packets must use the chainlet port, got {port}"
  | .notFound port channel => s!"channel {channel} on port {port} not found"
  | .hops channel count => s!"channel {channel} has {count} connection hops, expected exactly one"
  | .connectionNotFound connection => s!"connection {connection} not found"
  | .clientMismatch channel expected actual =>
    s!"channel {channel} leads to client {actual}, expected {expected}"
  | .notOpen channel state => s!"channel {channel} is not open ({state.name})"
  | .heightUnknown client => s!"latest height of client {client} unknown"
  | .unexpectedChannel recorded actual =>
    s!"upgrade was negotiated over {recorded}, but the packet used {actual}"

namespace Channel

/-- The module's port. -/
def port : String := "chainlet"

/-- Walk from a channel to its light client, which has to be the expected one. -/
def lead (routes : Routes) (onPort channel expected : String) : Except ChannelFault ChannelEnd :=
  if onPort ≠ port then .error (.unexpectedPort onPort)
  else
    match routes.channel? onPort channel with
    | none => .error (.notFound onPort channel)
    | some channelEnd =>
      match channelEnd.hops with
      | [connection] =>
        match routes.client? connection with
        | none => .error (.connectionNotFound connection)
        | some client =>
          if client = expected then .ok channelEnd
          else .error (.clientMismatch channel expected client)
      | hops => .error (.hops channel hops.length)

/-- Walk from a channel to its light client, and require the channel to be open. -/
def leadOpen (routes : Routes) (onPort channel expected : String) :
    Except ChannelFault ChannelEnd := do
  let channelEnd ← lead routes onPort channel expected
  if channelEnd.state = .isOpen then return channelEnd
  else throw (.notOpen channel channelEnd.state)

/-- Require a channel to be the one over which an upgrade was negotiated. -/
def requireRecorded (recorded actual : String) : Except ChannelFault Unit :=
  if recorded = actual then .ok () else .error (.unexpectedChannel recorded actual)

/-- The greatest height that a light client has seen, which has to exist. -/
def latestHeight (routes : Routes) (client : String) : Except ChannelFault Height :=
  match routes.height? client with
  | some height => .ok height
  | none => .error (.heightUnknown client)

end Channel

end Chainlets
