import ChainAlerter.Abstract.Source
import ChainAlerter.Library.EventRun
import ChainAlerter.Model.BlockTree
import ChainAlerter.Model.Listener

/-!
# `ChainAlerter.Model.World`: the listener and an honest node

The node holds imported blocks of the tree and a best block, and answers the
listener's requests from them: `chain_get_block_hash` from the chain of its best
block at that moment, `chain_get_header` from its imported blocks. `World.step`
interleaves it with the listener. Between any two steps of the listener the
node may import blocks and change its best block, it notifies the listener of
imported blocks in any order, as often as it likes, and the connection may be
lost (`lose`).

`Subscribed` is the world of one subscription that loses nothing: every import
queues one notification, the listener takes them in order, and the best block
only changes to a block that is being imported. Each of its steps is a step of
the world.
-/

set_option autoImplicit false

namespace ChainAlerter

open ChainAlerter.Library
open ChainAlerter.Abstract

variable {env : Externals} {T : BlockTree env}

/-- A node: its imported blocks and its best block. -/
abbrev Node (T : BlockTree env) : Type := Source T.tree

/-- `chain_get_block_hash`. -/
def Node.chainGetBlockHash (node : Node T) (number : Nat) : Option BlockHash :=
  T.blockHashAt node.best number

/-- `chain_get_header`. -/
def Node.chainGetHeader (node : Node T) (hash : BlockHash) : Option Header :=
  (node.imported.find? (fun b => b.hash = hash)).map BlockTree.Block.header

/-- The node's reply to the request that the listener waits for. A wait for the next
block and the requests of the header load are not answered here. -/
def Node.reply (node : Node T) : Phase → Option Reply
  | .subscribe => some (.subscribed (.ok ()))
  | .loadCanonical block => some (.blockHash (.ok (node.chainGetBlockHash block.number)))
  | .loadHead latestHash => some (.header (.ok (node.chainGetHeader latestHash)))
  | .listenCanonical _ block => some (.blockHash (.ok (node.chainGetBlockHash block.number)))
  | .listenRoute _ _ missing => some (.header (.ok (node.chainGetHeader missing)))
  | _ => none

/-- The node's reply to a request of the header load. -/
def Node.slotReply (node : Node T) (slot : Nat) : LoadSlot → Option Reply
  | .blockHash number => some (.slotBlockHash slot (.ok (node.chainGetBlockHash number)))
  | .header hash => some (.slotHeader slot (.ok (node.chainGetHeader hash)))
  | .done _ => none

/-- The reply that a lost connection gives. -/
def Reply.isLost : Reply → Bool
  | .subscribed (.error _) => true
  | .next (some (.error _)) => true
  | .blockHash (.error _) => true
  | .header (.error _) => true
  | .slotBlockHash _ (.error _) => true
  | .slotHeader _ (.error _) => true
  | _ => false

/-! ### The world -/

/-- A node and the listener that asks it. -/
structure World (T : BlockTree env) where
  node : Node T
  listener : Listener

/-- The steps of the world.

- `importBlock`: the node imports a block, which may become its best one;
- `setBest`: its best block becomes another imported block;
- `deliver`: the subscription hands an imported block to the listener;
- `answer`: the node answers the request that the listener waits for;
- `answerSlot`: the node answers a request of the header load;
- `lose`: the connection is lost, which the listener learns from its request. -/
inductive WorldEvent (T : BlockTree env) where
  | importBlock (b : T.Block) (newBest : Bool)
  | setBest (b : T.Block)
  | deliver (b : T.Block)
  | answer
  | answerSlot (slot : Nat)
  | lose (reply : Reply)

namespace World

/-- The listener's step on a reply. -/
def hear (w : World T) (reply : Reply) : Option (World T) :=
  (w.listener.step env reply).map (fun listener => { w with listener := listener })

/-- A step of the node, an answer of it to the listener, or the loss of the connection. -/
def step (w : World T) : WorldEvent T → Option (World T)
  | .importBlock b newBest => (w.node.add b newBest).map (fun node => { w with node := node })
  | .setBest b => (w.node.setBest b).map (fun node => { w with node := node })
  | .deliver b => if b ∈ w.node.imported then w.hear (.next (some (.ok b.item))) else none
  | .answer => (w.node.reply w.listener.phase).bind w.hear
  | .answerSlot slot =>
      match w.listener.phase with
      | .loadRange _ slots => (slots[slot]?.bind (w.node.slotReply slot)).bind w.hear
      | _ => none
  | .lose reply => if reply.isLost then w.hear reply else none

/-- The reply that the listener gets in a step of the world. The node's own steps
reply nothing. -/
def reply? (w : World T) : WorldEvent T → Option Reply
  | .importBlock _ _ => none
  | .setBest _ => none
  | .deliver b => if b ∈ w.node.imported then some (.next (some (.ok b.item))) else none
  | .answer => w.node.reply w.listener.phase
  | .answerSlot slot =>
      match w.listener.phase with
      | .loadRange _ slots => slots[slot]?.bind (w.node.slotReply slot)
      | _ => none
  | .lose reply => if reply.isLost then some reply else none

/-- The start of `listen_for_all_blocks`, with any node. -/
def init (node : Node T) : World T := { node := node, listener := .init }

end World

/-! ### One subscription -/

/-- A world and the notifications that the listener has not taken yet, oldest first. -/
structure Subscribed (T : BlockTree env) where
  world : World T
  queue : List T.Block

/-- A step of a subscribed world. Blocks are delivered from the queue, so `next` names none. -/
inductive SubscribedEvent (T : BlockTree env) where
  | importBlock (b : T.Block) (newBest : Bool)
  | next
  | answer
  | answerSlot (slot : Nat)

namespace Subscribed

/-- A step of a subscribed world. An import is queued, and delivered later in its turn. -/
def step (w : Subscribed T) : SubscribedEvent T → Option (Subscribed T)
  | .importBlock b newBest =>
      (w.world.step (.importBlock b newBest)).map
        (fun world => { world := world, queue := w.queue ++ [b] })
  | .next =>
      match w.queue with
      | [] => none
      | b :: queue =>
          (w.world.step (.deliver b)).map (fun world => { world := world, queue := queue })
  | .answer => (w.world.step .answer).map (fun world => { w with world := world })
  | .answerSlot slot =>
      (w.world.step (.answerSlot slot)).map (fun world => { w with world := world })

/-- The start of `load_header_metadata_cache` on a new subscription. The cache may hold
headers of earlier sessions. The subscription has nothing to hand out yet, or starts
with the node's best block. -/
structure Initial (w : Subscribed T) : Prop where
  phase : w.world.listener.phase = .loadNext
  cache : ∀ hash header, w.world.listener.headerMetadata.blockHeaderData.lookup hash = some header →
    ∃ b ∈ w.world.node.imported, b.hash = hash ∧ b.header = header
  queue : w.queue = [] ∨ w.queue = [w.world.node.best]

end Subscribed

end ChainAlerter
