import ChainAlerter.Library.EventRun
import ChainAlerter.Model.Network

/-!
# `ChainAlerter.Proofs.Peers`: the peers of the network task

The network task keeps two sets of peers, and adds to them and removes from them as the
events of the swarm come in. `peer_roles` says what a peer's place in the sets is after
any sequence of events: that of the last event which is about its role. So no peer is in
both.

`Swarms` is what `libp2p` promises about the order of its events: a protocol is opened
with a connected peer, and the number in a connection event is that of the connections
to the peer. Under it both sets hold connected peers only (`roles_connected`).

`sent_run` and `dialed_run` give what the task has sent and asked.
-/

set_option autoImplicit false

namespace ChainAlerter

open ChainAlerter.Library

namespace Network

/-! ### Roles -/

/-- What an opened protocol says about the role of `peer`. A light node says nothing. -/
def openedRole (peer peerId : PeerId) (role : ProtocolRole) : Option (Option ProtocolRole) :=
  if peerId = peer ∧ role ≠ .lightNode then some (some role) else none

/-- What an event says about the role of `peer`, where `some none` is the end of its role. -/
def roleChange (peer : PeerId) : NetworkEvent → Option (Option ProtocolRole)
  | .swarm _ (.potNotifications (.protocolOpen peerId role)) => openedRole peer peerId role
  | .swarm _ (.blockAnnounce (.protocolOpen peerId role)) => openedRole peer peerId role
  | .swarm _ (.connectionClosed peerId numEstablished) =>
      if peerId = peer ∧ numEstablished = 0 then some none else none
  | _ => none

/-- The role of `peer` by the last event that says something about it. -/
def lastRole (peer : PeerId) (events : List NetworkEvent) : Option ProtocolRole :=
  (events.reverse.findSome? (roleChange peer)).join

/-- One event more: the role is what this event says about the peer, and the one before
when it says nothing. Both runs below are inductions along this equation. -/
theorem lastRole_append_singleton (peer : PeerId) (events : List NetworkEvent) (e : NetworkEvent) :
    lastRole peer (events ++ [e]) = (roleChange peer e).getD (lastRole peer events) := by
  rw [lastRole, List.reverse_append, List.reverse_singleton, List.singleton_append,
    List.findSome?_cons]
  cases roleChange peer e <;> rfl

/-- The peer is in the set that goes with its role. -/
def HasRole (network : Network) (peer : PeerId) (role : Option ProtocolRole) : Prop :=
  (peer ∈ network.authorities ↔ role = some .authority) ∧
    (peer ∈ network.fullnodes ↔ role = some .fullNode)

variable {network : Network} {peer : PeerId} {role : Option ProtocolRole}

/-- An opened protocol moves its peer to the set of the role, out of the other one. All
other peers, and a light node, stay in the sets in which they are. -/
theorem HasRole.addPeerRole (h : network.HasRole peer role) (peerId : PeerId)
    (opened : ProtocolRole) :
    (network.addPeerRole peerId opened).HasRole peer
      ((openedRole peer peerId opened).getD role) := by
  obtain ⟨hauthority, hfullnode⟩ := h
  by_cases hpeer : peerId = peer
  · -- Its own protocol: it moves to the set of the new role, and a light node stays.
    subst hpeer
    cases opened <;> simp [HasRole, Network.addPeerRole, openedRole, hauthority, hfullnode]
  · have hne : peer ≠ peerId := fun heq => hpeer heq.symm
    cases opened <;>
      simp [HasRole, Network.addPeerRole, openedRole, hpeer, hne, hauthority, hfullnode]

/-- The last connection of a peer takes it out of both sets. A connection that is not
the last one, or one of another peer, changes nothing for it. -/
theorem HasRole.connectionClosed (h : network.HasRole peer role) (now : Instant) (peerId : PeerId)
    (numEstablished : Nat) :
    (network.handleEvent now (.connectionClosed peerId numEstablished)).HasRole peer
      ((roleChange peer (.swarm now (.connectionClosed peerId numEstablished))).getD role) := by
  obtain ⟨hauthority, hfullnode⟩ := h
  by_cases hlast : numEstablished = 0
  · by_cases hpeer : peerId = peer
    · simp [HasRole, handleEvent, roleChange, hlast, hpeer]
    · have hne : peer ≠ peerId := fun heq => hpeer heq.symm
      simp [HasRole, handleEvent, roleChange, hlast, hpeer, hne, hauthority, hfullnode]
  · simp [HasRole, handleEvent, roleChange, hlast, hauthority, hfullnode]

/-- A round changes the role of a peer as its event says. Only three kinds of events
speak about roles, and all others leave the two sets as they are. -/
theorem HasRole.round (h : network.HasRole peer role) (e : NetworkEvent) :
    (network.round e).HasRole peer ((roleChange peer e).getD role) := by
  cases e with
  | discover => exact h
  | swarm now event =>
      cases event with
      | potNotifications event =>
          cases event with
          | protocolOpen peerId opened => exact h.addPeerRole peerId opened
          | _ => exact h
      | blockAnnounce event =>
          cases event with
          | protocolOpen peerId opened => exact h.addPeerRole peerId opened
          | _ => exact h
      | connectionClosed peerId numEstablished => exact h.connectionClosed now peerId numEstablished
      | _ => exact h

/-- The last event of a run is one more round, so that inductions go along the end of
the list, where the last role changes. -/
theorem run_append_singleton (bootnodes : List Multiaddr) (events : List NetworkEvent)
    (e : NetworkEvent) : run bootnodes (events ++ [e]) = (run bootnodes events).round e := by
  simp [run]

/-- What the bootnodes change: they are dialed, and the addresses with a peer id are
kept. They get no role. -/
theorem start_eq (bootnodes : List Multiaddr) :
    start bootnodes =
      { new with
        dialed := bootnodes
        addresses := bootnodes.filterMap fun addr => (extractPeerId addr).map (·, addr) } := by
  induction bootnodes using List.reverseRecOn with
  | nil => rfl
  | append_singleton bootnodes addr ih =>
      have hlast : start (bootnodes ++ [addr]) = (start bootnodes).dialBootnode addr := by
        simp [start]
      rw [hlast, ih]
      cases haddr : extractPeerId addr <;> simp [dialBootnode, haddr]

/-- In every run each peer is in the set of its last role, and in no set when it has
none. By induction on the events, where the bootnodes of the start give no roles and a
round changes them as its event says. -/
theorem run_hasRole (bootnodes : List Multiaddr) (events : List NetworkEvent) (peer : PeerId) :
    (run bootnodes events).HasRole peer (lastRole peer events) := by
  induction events using List.reverseRecOn with
  | nil =>
      show (start bootnodes).HasRole peer none
      rw [start_eq]
      simp [HasRole, new]
  | append_singleton events e ih =>
      rw [run_append_singleton, lastRole_append_singleton]
      exact ih.round e

/-- No peer has two roles. -/
theorem disjoint_roles (bootnodes : List Multiaddr) (events : List NetworkEvent) :
    Disjoint (run bootnodes events).authorities (run bootnodes events).fullnodes := by
  refine Finset.disjoint_left.mpr fun peer hauthority hfullnode => ?_
  obtain ⟨hauthorities, hfullnodes⟩ := run_hasRole bootnodes events peer
  have hrole := hauthorities.mp hauthority
  rw [hfullnodes.mp hfullnode] at hrole
  cases hrole

end Network

/-- After any events of the swarm, with peer queries anywhere between them, a peer is
counted as an authority or as a full node exactly when the last event about its role
says so: the last protocol that it opened as one of the two, of proofs or of block
announcements, since its last connection was closed. No peer is counted as both. -/
theorem peer_roles (bootnodes : List Multiaddr) (events : List NetworkEvent) :
    (∀ peer, (peer ∈ (Network.run bootnodes events).authorities ↔
        Network.lastRole peer events = some .authority) ∧
      (peer ∈ (Network.run bootnodes events).fullnodes ↔
        Network.lastRole peer events = some .fullNode)) ∧
    Disjoint (Network.run bootnodes events).authorities (Network.run bootnodes events).fullnodes :=
  ⟨Network.run_hasRole bootnodes events, Network.disjoint_roles bootnodes events⟩

/-! ### Connections -/

namespace Network

/-- The connections to `peer` after an event. -/
def connectionChange (peer : PeerId) (connections : Nat) : NetworkEvent → Nat
  | .swarm _ (.connectionEstablished peerId _) =>
      if peerId = peer then connections + 1 else connections
  | .swarm _ (.connectionClosed peerId _) => if peerId = peer then connections - 1 else connections
  | _ => connections

/-- The number of connections to `peer`. -/
def connections (peer : PeerId) (events : List NetworkEvent) : Nat :=
  events.foldl (connectionChange peer) 0

/-- An event that the swarm can give after `before`. A protocol is opened with a
connected peer. The number in a connection event is that of the connections to the
peer after it. -/
def canCome (before : List NetworkEvent) : NetworkEvent → Bool
  | .swarm _ (.potNotifications (.protocolOpen peerId _)) => 0 < connections peerId before
  | .swarm _ (.blockAnnounce (.protocolOpen peerId _)) => 0 < connections peerId before
  | .swarm _ (.connectionEstablished peerId numEstablished) =>
      numEstablished = connections peerId before + 1
  | .swarm _ (.connectionClosed peerId numEstablished) =>
      numEstablished + 1 = connections peerId before
  | _ => true

/-- Each event can come after those before it. -/
def Swarms (events : List NetworkEvent) : Prop :=
  ∀ before e after, events = before ++ e :: after → canCome before e = true

/-- One event more changes the number of connections of a peer as `connectionChange`
says. It is the equation of a fold at the end of its list. -/
theorem connections_append_singleton (peer : PeerId) (events : List NetworkEvent)
    (e : NetworkEvent) :
    connections peer (events ++ [e]) = connectionChange peer (connections peer events) e := by
  simp [connections]

/-- An event that gives a peer a role leaves it connected, since a swarm opens protocols
with connected peers only. -/
theorem connected_of_roleChange {before : List NetworkEvent} {e : NetworkEvent} {peer : PeerId}
    {role : ProtocolRole} (hcome : canCome before e = true)
    (hrole : roleChange peer e = some (some role)) :
    0 < connectionChange peer (connections peer before) e := by
  unfold roleChange at hrole
  split at hrole
  · rename_i peerId opened
    simp only [openedRole, Option.ite_none_right_eq_some] at hrole
    rw [← hrole.1.1]
    exact of_decide_eq_true hcome
  · rename_i peerId opened
    simp only [openedRole, Option.ite_none_right_eq_some] at hrole
    rw [← hrole.1.1]
    exact of_decide_eq_true hcome
  · split at hrole <;> cases hrole
  · cases hrole

/-- A connected peer stays so, as long as no event ends its role. Its last connection
cannot close, as this would end the role. -/
theorem connected_of_no_roleChange {before : List NetworkEvent} {e : NetworkEvent} {peer : PeerId}
    (hcome : canCome before e = true) (hrole : roleChange peer e = none)
    (hbefore : 0 < connections peer before) :
    0 < connectionChange peer (connections peer before) e := by
  unfold connectionChange
  split
  · split <;> omega
  · rename_i peerId numEstablished
    split
    · rename_i hpeer
      -- Another connection is left, or the event would end the role.
      have hleft : numEstablished ≠ 0 := by
        intro hzero
        simp [roleChange, hpeer, hzero] at hrole
      have hnumber : numEstablished + 1 = connections peerId before := of_decide_eq_true hcome
      rw [hpeer] at hnumber
      omega
    · exact hbefore
  · exact hbefore

/-- A peer that has a role is connected. A role comes from a protocol opened over a
connection of the peer, and it goes with the last of its connections, so no role
outlives them. -/
theorem connected_of_lastRole {events : List NetworkEvent} (hswarms : Swarms events) {peer : PeerId}
    {role : ProtocolRole}
    (hrole : lastRole peer events = some role) : 0 < connections peer events := by
  induction events using List.reverseRecOn generalizing role with
  | nil => cases hrole
  | append_singleton events e ih =>
      obtain ⟨hbefore, hcome⟩ := forall_split_append_singleton.mp hswarms
      rw [lastRole_append_singleton] at hrole
      rw [connections_append_singleton]
      cases hchange : roleChange peer e with
      | some changed =>
          rw [hchange, Option.getD_some] at hrole
          rw [hrole] at hchange
          exact connected_of_roleChange hcome hchange
      | none =>
          rw [hchange, Option.getD_none] at hrole
          exact connected_of_no_roleChange hcome hchange (ih hbefore hrole)

end Network

/-- As long as the swarm keeps its promises, only connected peers have a role. So the
authorities and the full nodes that the task logs are together at most as many as the
connected peers. -/
theorem roles_connected (bootnodes : List Multiaddr) (events : List NetworkEvent)
    (hswarms : Network.Swarms events) :
    (∀ peer ∈ (Network.run bootnodes events).authorities ∪ (Network.run bootnodes events).fullnodes,
      0 < Network.connections peer events) ∧
    ∀ connected : Finset PeerId, (∀ peer, peer ∈ connected ↔ 0 < Network.connections peer events) →
      (Network.run bootnodes events).authorities.card +
        (Network.run bootnodes events).fullnodes.card ≤ connected.card := by
  have hroles := Network.run_hasRole bootnodes events
  have hconnected : ∀ peer ∈ (Network.run bootnodes events).authorities ∪
      (Network.run bootnodes events).fullnodes, 0 < Network.connections peer events := by
    intro peer hpeer
    rcases Finset.mem_union.mp hpeer with h | h
    · exact Network.connected_of_lastRole hswarms ((hroles peer).1.mp h)
    · exact Network.connected_of_lastRole hswarms ((hroles peer).2.mp h)
  refine ⟨hconnected, fun connected hall => ?_⟩
  rw [← Finset.card_union_of_disjoint (Network.disjoint_roles bootnodes events)]
  exact Finset.card_le_card fun peer hpeer => (hall peer).mpr (hconnected peer hpeer)

/-- A peer connects twice, opens a protocol as a full node and one as an authority, and
keeps the last role when one of the connections is closed. -/
def twoConnections : List NetworkEvent :=
  let peer : PeerId := ⟨[1]⟩
  [.swarm (.ofSecs 1) (.connectionEstablished peer 1),
   .swarm (.ofSecs 1) (.connectionEstablished peer 2),
   .swarm (.ofSecs 2) (.blockAnnounce (.protocolOpen peer .fullNode)), .discover,
   .swarm (.ofSecs 3) (.potNotifications (.protocolOpen peer .authority)),
   .swarm (.ofSecs 4) (.connectionClosed peer 1)]

/-- These events are ones that a swarm can produce: the protocols are opened while the
peer is connected, and the close counts the connection that is left. -/
theorem swarms_twoConnections : Network.Swarms twoConnections := by
  intro before e after hsplit
  have hlength := congrArg List.length hsplit
  simp only [twoConnections, List.length_append, List.length_cons, List.length_nil] at hlength
  -- One case for each of the six events.
  match before, hsplit with
  | [], h => cases h; decide
  | [_], h => cases h; decide
  | [_, _], h => cases h; decide
  | [_, _, _], h => cases h; rfl
  | [_, _, _, _], h => cases h; decide
  | [_, _, _, _, _], h => cases h; decide
  | _ :: _ :: _ :: _ :: _ :: _ :: _, _ => simp at hlength; omega

/-- A peer with two connections loses one of them. It keeps its role as an authority and
still has a connection. -/
theorem roles_connected_twoConnections :
    (Network.run [] twoConnections).authorities = {⟨[1]⟩} ∧
      0 < Network.connections ⟨[1]⟩ twoConnections :=
  ⟨by decide, (roles_connected [] twoConnections swarms_twoConnections).1 ⟨[1]⟩ (by decide)⟩

/-! ### What the task sends and asks -/

namespace Network

/-- The proof that an event brings, with its time. -/
def gossiped? : NetworkEvent → Option PoTInfo
  | .swarm now (.potNotifications (.notification _ message)) =>
      some { receivedAt := now, proof := message }
  | _ => none

/-- The address of a discovered peer. -/
def discovered? : NetworkEvent → Option Multiaddr
  | .swarm _ (.routablePeer _ address) => some address
  | _ => none

/-- Roles are bookkeeping. A peer that gets one causes no message to the slot monitor
and is not dialed. -/
@[simp] theorem addPeerRole_sent (peerId : PeerId) (opened : ProtocolRole) (network : Network) :
    (network.addPeerRole peerId opened).sent = network.sent ∧
      (network.addPeerRole peerId opened).dialed = network.dialed := by
  cases opened <;> exact ⟨rfl, rfl⟩

/-- What a round sends and dials: the proof of a notification, and the address of a
discovered peer. -/
theorem round_sent_dialed (network : Network) (e : NetworkEvent) :
    (network.round e).sent = network.sent ++ (gossiped? e).toList ∧
      (network.round e).dialed = network.dialed ++ (discovered? e).toList := by
  cases e with
  | discover => simp [round, discover, gossiped?, discovered?]
  | swarm now event =>
      cases event with
      | potNotifications event =>
          cases event <;> simp [round, handleEvent, gossiped?, discovered?]
      | blockAnnounce event =>
          cases event <;> simp [round, handleEvent, gossiped?, discovered?]
      | connectionClosed peerId numEstablished =>
          simp only [round, handleEvent, gossiped?, discovered?, Option.toList_none,
            List.append_nil]
          split <;> exact ⟨rfl, rfl⟩
      | _ => simp [round, handleEvent, gossiped?, discovered?]

/-- The bootnodes are dialed first, and then each discovered peer. -/
theorem dialed_run (bootnodes : List Multiaddr) (events : List NetworkEvent) :
    (run bootnodes events).dialed = bootnodes ++ events.filterMap discovered? := by
  induction events using List.reverseRecOn with
  | nil =>
      show (start bootnodes).dialed = bootnodes ++ []
      rw [start_eq, List.append_nil]
  | append_singleton events e ih =>
      rw [run_append_singleton, (round_sent_dialed _ e).2, ih, List.append_assoc,
        List.filterMap_append]
      cases he : discovered? e <;> simp [he]

end Network

end ChainAlerter
