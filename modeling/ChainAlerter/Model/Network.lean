import ChainAlerter.Model.Slots

/-!
# `ChainAlerter.Model.Network`: the peer-to-peer network

`Network` of `alerter/src/p2p_network.rs`. The task dials the bootnodes, and from then
on handles the events of its swarm one by one, with a peer query every 30 seconds
between them. It keeps the roles of its peers, dials the peers that it discovers, and
hands each gossiped proof on to the slot monitor, with the time at which it came.

The swarm itself is `libp2p`. Its events are the input of the model, and what the task
asks of it (dials, addresses and queries) is recorded. The result of a dial is only
logged.
-/

set_option autoImplicit false

namespace ChainAlerter

/-- `libp2p::PeerId`, by its bytes. -/
structure PeerId where
  bytes : List UInt8
  deriving DecidableEq, Repr

/-- A component of an address. Only the peer in it is read. -/
inductive MultiAddrProtocol where
  | p2p (peerId : PeerId)
  | other (text : String)
  deriving DecidableEq, Repr

/-- An address is a list of protocols, one of which may name the peer. -/
abbrev Multiaddr := List MultiAddrProtocol

/-- The role that a peer announces when it opens a protocol. -/
inductive ProtocolRole where
  | fullNode
  | lightNode
  | authority
  deriving DecidableEq, Repr

/-- The events of a notification protocol, with messages of the type `M`. -/
inductive NotificationsEvent (M : Type) where
  | protocolOpen (peerId : PeerId) (role : ProtocolRole)
  | protocolClosed (peerId : PeerId)
  | notification (peerId : PeerId) (message : M)

/-- The events of the swarm. The messages of block announcements are never read. `other`
stands for all other events, which are ignored. -/
inductive SwarmEvent where
  | routablePeer (peer : PeerId) (address : Multiaddr)
  | potNotifications (event : NotificationsEvent GossipProof)
  | blockAnnounce (event : NotificationsEvent Unit)
  | connectionEstablished (peerId : PeerId) (numEstablished : Nat)
  | connectionClosed (peerId : PeerId) (numEstablished : Nat)
  | other

/-- What a round of the loop handles: an event of the swarm, at the time `now`, or the
tick of the discovery interval. -/
inductive NetworkEvent where
  | swarm (now : Instant) (event : SwarmEvent)
  | discover

/-- The state of the task: the roles of the peers, the proofs it has sent to its
broadcast channel, and what it has asked of the swarm, oldest first. -/
structure Network where
  authorities : Finset PeerId
  fullnodes : Finset PeerId
  sent : List PoTInfo
  dialed : List Multiaddr
  addresses : List (PeerId × Multiaddr)
  queries : Nat

/-- `extract_peer_id`: the first peer in the address. -/
def extractPeerId (addr : Multiaddr) : Option PeerId :=
  addr.findSome? fun p =>
    match p with
    | .p2p peerId => some peerId
    | .other _ => none

namespace Network

/-- `Network::new`. -/
def new : Network :=
  { authorities := ∅, fullnodes := ∅, sent := [], dialed := [], addresses := [], queries := 0 }

/-- A bootnode is dialed, and its address is handed to the discovery if it names a peer. -/
def dialBootnode (network : Network) (addr : Multiaddr) : Network :=
  { network with
    dialed := network.dialed ++ [addr]
    addresses := network.addresses ++ ((extractPeerId addr).map fun peerId => (peerId, addr)).toList }

/-- `run` up to its loop. -/
def start (bootnodes : List Multiaddr) : Network := bootnodes.foldl dialBootnode new

/-- `add_peer_role`. -/
def addPeerRole (network : Network) (peer : PeerId) : ProtocolRole → Network
  | .fullNode =>
      { network with
        authorities := network.authorities.erase peer
        fullnodes := insert peer network.fullnodes }
  -- A light node keeps the role that it had.
  | .lightNode => network
  | .authority =>
      { network with
        fullnodes := network.fullnodes.erase peer
        authorities := insert peer network.authorities }

/-- `handle_event`, at the time `now`. -/
def handleEvent (network : Network) (now : Instant) : SwarmEvent → Network
  | .routablePeer _ address => { network with dialed := network.dialed ++ [address] }
  | .potNotifications (.protocolOpen peerId role) => network.addPeerRole peerId role
  | .potNotifications (.protocolClosed _) => network
  | .potNotifications (.notification _ message) =>
      { network with sent := network.sent ++ [{ receivedAt := now, proof := message }] }
  | .blockAnnounce (.protocolOpen peerId role) => network.addPeerRole peerId role
  | .blockAnnounce _ => network
  | .connectionClosed peerId numEstablished =>
      -- Other connections to the peer may be left.
      if numEstablished = 0 then
        { network with
          authorities := network.authorities.erase peerId
          fullnodes := network.fullnodes.erase peerId }
      else network
  | .connectionEstablished _ _ => network
  | .other => network

/-- The tick of the discovery interval. -/
def discover (network : Network) : Network := { network with queries := network.queries + 1 }

/-- One round of the loop. -/
def round (network : Network) : NetworkEvent → Network
  | .swarm now event => network.handleEvent now event
  | .discover => network.discover

/-- `run`, up to some round. It never returns. -/
def run (bootnodes : List Multiaddr) (events : List NetworkEvent) : Network :=
  events.foldl round (start bootnodes)

end Network

end ChainAlerter
