import ChainAlerter.Model.HeaderCache

/-!
# `ChainAlerter.Model.Listener`: the block listener as a state machine

`listen_for_all_blocks`, `load_header_metadata_cache`, `listen_for_blocks`,
`is_canonical_block`, `get_block_ext` and `recursive_tree_route` of
`alerter/src/subspace.rs`. They are one asynchronous task, so the model is the
task's state machine: a `Phase` for each `await`, holding the locals that are
live there, and `step`, which runs the task from one `await` to the next on the
`Reply` it was waiting for. Between two steps anything else may happen.

`step` is `none` on a reply that the task is not waiting for. A panic and a
return of `listen_for_all_blocks` are phases of their own, which no reply
leaves.

The header load runs its requests through `buffered(30)`: up to thirty of them
are in flight at a time, in any order, and `try_collect` takes their results in
the order of the numbers. `LoadSlot` is the state of one of these requests. The
reads of `get_block_ext` through `buffered(5)` wait for nothing, so they are one
pass over the list.

`runRecursiveTreeRoute` is `recursive_tree_route` once more, as one call that runs
to its end.
-/

set_option autoImplicit false

namespace ChainAlerter

/-- Maximum number of headers to load in the cache. -/
def CACHE_HEADER_DEPTH : Nat := 100

/-- The width of the buffer of the header load. -/
def LOAD_BUFFER : Nat := 30

/-! ### The phases and the replies -/

/-- One request of the header load: it asks for the hash at its number, then for the
header under that hash. -/
inductive LoadSlot where
  | blockHash (number : Nat)
  | header (hash : BlockHash)
  | done (result : Except Error Header)

/-- Where the task waits.

- `subscribe`: in `listen_for_all_blocks`, for `subscribe_all`;
- `loadNext`, `loadCanonical`, `loadHead`, `loadRange`: in `load_header_metadata_cache`, for
  the next item, for the canonical check of `block`, for the header of the latest block,
  and for the requests of the header load;
- `listenNext`, `listenCanonical`, `listenRoute`: in `listen_for_blocks`, for the next item,
  for the canonical check of `block`, and for the header that `tree_route` missed;
- `returned`: `listen_for_all_blocks` has returned the error;
- `panicked`: the task has panicked. -/
inductive Phase where
  | subscribe
  | loadNext
  | loadCanonical (block : SubxtBlock)
  | loadHead (latestHash : BlockHash)
  | loadRange (latest : HashAndNumber) (slots : List LoadSlot)
  | listenNext (currentBestBlock : HashAndNumber)
  | listenCanonical (currentBestBlock : HashAndNumber) (block : SubxtBlock)
  | listenRoute (currentBestBlock : HashAndNumber) (block : SubxtBlock) (missing : BlockHash)
  | returned (err : Error)
  | panicked

/-- What the task waits for. `next` is an item of the subscription, `none` at its end.
`blockHash` and `header` answer `chain_get_block_hash` and `chain_get_header`. The
replies to the header load name the request they answer. -/
inductive Reply where
  | subscribed (result : Except SubxtError Unit)
  | next (item : Option (Except SubxtError SubxtBlock))
  | blockHash (result : Except SubxtRpcsError (Option BlockHash))
  | header (result : Except SubxtRpcsError (Option Header))
  | slotBlockHash (slot : Nat) (result : Except SubxtRpcsError (Option BlockHash))
  | slotHeader (slot : Nat) (result : Except SubxtRpcsError (Option Header))

/-- The state of the task: the header cache, which outlives a session, the messages sent
to the broadcast channel, oldest first, and where the task waits. -/
structure Listener where
  headerMetadata : HeadersMetadataCache
  sent : List BlocksExt
  phase : Phase

/-- `current_best_block`, which exists while `listen_for_blocks` runs. -/
def Phase.currentBestBlock : Phase → Option HashAndNumber
  | .listenNext best => some best
  | .listenCanonical best _ => some best
  | .listenRoute best _ _ => some best
  | _ => none

/-- `current_best_block`, which is a local variable of `listen_for_blocks`. It exists in
a listening phase only. -/
def Listener.currentBestBlock (l : Listener) : Option HashAndNumber :=
  l.phase.currentBestBlock

/-- The received block that a round of `listen_for_blocks` works on. -/
def Phase.receivedBlock : Phase → Option SubxtBlock
  | .listenCanonical _ block => some block
  | .listenRoute _ block _ => some block
  | _ => none

/-- The start of `listen_for_all_blocks`. -/
def Listener.init : Listener :=
  { headerMetadata := .empty, sent := [], phase := .subscribe }

/-! ### The pieces between two waits -/

/-- `sub.next().await.ok_or(Error::MissingBlock)??`. -/
def nextBlock : Option (Except SubxtError SubxtBlock) → Except Error SubxtBlock
  | none => .error .missingBlock
  | some (.error err) => .error (.fromSubxt err)
  | some (.ok block) => .ok block

/-- `.await?.ok_or(Error::MissingBlock)?` on an answer of the RPC client. -/
def okOrMissingBlock {α : Type} : Except SubxtRpcsError (Option α) → Except Error α
  | .error err => .error (.fromSubxtRpcs err)
  | .ok none => .error .missingBlock
  | .ok (some a) => .ok a

/-- `is_canonical_block`, from the answer of `chain_get_block_hash`. -/
def isCanonicalBlock (blockHash : BlockHash)
    (answer : Except SubxtRpcsError (Option BlockHash)) : Except Error Bool := do
  let hash ← okOrMissingBlock answer
  return decide (blockHash = hash)

/-- `get_block_ext`. -/
def getBlockExt (cache : HeadersMetadataCache) (hash : BlockHash) : Except Error BlockExt := do
  let header ← cache.getHeader hash
  return { number := header.number, hash := hash, parentHash := header.parentHash
           stateRoot := header.stateRoot, extrinsicsRoot := header.extrinsicsRoot }

/-- The request's state after an answer of `chain_get_block_hash`. -/
def LoadSlot.answerBlockHash (answer : Except SubxtRpcsError (Option BlockHash)) :
    LoadSlot → Option LoadSlot
  | .blockHash _ =>
      match okOrMissingBlock answer with
      | .ok hash => some (.header hash)
      | .error err => some (.done (.error err))
  | _ => none

/-- The request's state after an answer of `chain_get_header`. -/
def LoadSlot.answerHeader (answer : Except SubxtRpcsError (Option Header)) :
    LoadSlot → Option LoadSlot
  | .header _ => some (.done (okOrMissingBlock answer))
  | _ => none

/-- How many results `try_collect` has taken. -/
def collected : List LoadSlot → Nat
  | .done (.ok _) :: slots => collected slots + 1
  | _ => 0

/-- `try_collect`: `none` while it waits for a result, else the first error or
all the headers. -/
def tryCollect : List LoadSlot → Option (Except Error (List Header))
  | [] => some (.ok [])
  | .done (.ok header) :: slots => (tryCollect slots).map (fun r => r.map (header :: ·))
  | .done (.error err) :: _ => some (.error err)
  | _ :: _ => none

namespace Listener

/-- A `?` outside `listen_for_blocks`: `listen_for_all_blocks` returns the error. -/
def returnError (l : Listener) (err : Error) : Listener := { l with phase := .returned err }

/-- `listen_for_blocks` returned the error. On a lost RPC connection the loop of
`listen_for_all_blocks` goes round, otherwise it returns the error too. -/
def listenForBlocksReturned (l : Listener) : Error → Listener
  | .rpc _ => { l with phase := .subscribe }
  | err => l.returnError err

/-- The task has panicked. -/
def panic (l : Listener) : Listener := { l with phase := .panicked }

/-- The requests of the header load, one for each number from `cache_start_number`
to the latest. -/
def loadSlots (latestNumber : Nat) : List LoadSlot :=
  let cacheStartNumber := latestNumber - CACHE_HEADER_DEPTH
  (List.range' cacheStartNumber (latestNumber + 1 - cacheStartNumber)).map LoadSlot.blockHash

/-- The header load after a change of its requests: it waits on, fails, or adds all
headers to the cache and hands over to `listen_for_blocks`. -/
def loadProgress (env : Externals) (l : Listener) (latest : HashAndNumber)
    (slots : List LoadSlot) : Listener :=
  match tryCollect slots with
  | none => { l with phase := .loadRange latest slots }
  | some (.error err) => l.returnError err
  | some (.ok headers) =>
      match headers.foldlM (fun cache header => (cache.addHeader env header).map Prod.snd)
          l.headerMetadata with
      | none => l.panic
      | some cache => { l with headerMetadata := cache, phase := .listenNext latest }

/-- An answer to the request at `slot`, when it is in flight. -/
def answerSlot (env : Externals) (l : Listener) (latest : HashAndNumber)
    (slots : List LoadSlot) (slot : Nat) (answer : LoadSlot → Option LoadSlot) :
    Option Listener := do
  -- `buffered` starts a request once fewer than its width are ahead of it uncollected.
  guard (slot < collected slots + LOAD_BUFFER)
  let request ← slots[slot]?
  let request' ← answer request
  return l.loadProgress env latest (slots.set slot request')

/-- `listen_for_blocks` from the tree route to the end of the round: the enacted blocks
with their details, the new best block, the message, and the pruning of the cache. -/
def enact (l : Listener) (best : HashAndNumber) (block : SubxtBlock) (route : TreeRoute) :
    Listener :=
  let enacted := route.enacted
  let retracted := route.retracted
  if enacted.isEmpty && retracted.isEmpty then
    -- The received block is the best block.
    { l with phase := .listenNext best }
  else if enacted.isEmpty then
    -- The received block is below the best block.
    { l with phase := .listenNext best }
  else
    match enacted.mapM (fun hashAndNumber => getBlockExt l.headerMetadata hashAndNumber.hash) with
    | .error err => l.listenForBlocksReturned err
    | .ok blockExts =>
        -- `enacted.pop()` takes the new best block out of the list that the reorg data gets.
        match enacted.getLast? with
        | none => l.panic
        | some newBest =>
            let maybeReorgData :=
              if retracted.isEmpty then none
              else some { enacted := enacted.dropLast, retracted := retracted.reverse
                          commonBlock := route.commonBlock }
            -- Only a round that sends prunes the cache.
            let numberToClean := block.number - CACHE_HEADER_DEPTH
            { headerMetadata := l.headerMetadata.removeHeaderUntil numberToClean
              sent := l.sent ++ [{ blocks := blockExts, maybeReorgData := maybeReorgData }]
              phase := .listenNext newBest }

/-- `recursive_tree_route` up to its next wait. With a route the round goes on. For a
header missing from the cache the task asks the node, and tries again with it. -/
def recursiveTreeRoute (env : Externals) (l : Listener) (best : HashAndNumber)
    (block : SubxtBlock) : Listener :=
  match env.treeRoute (l.headerMetadata.headerMetadata env) best.hash block.hash with
  | .ok route => l.enact best block route
  | .error (.missingBlockHashFromCache hash) =>
      { l with phase := .listenRoute best block hash }
  | .error err => l.listenForBlocksReturned err

/-- `listen_for_blocks` on a received block: its header goes into the cache, and its
hash must be the one `subxt` reported. -/
def receiveBlock (env : Externals) (l : Listener) (best : HashAndNumber) (block : SubxtBlock) :
    Listener :=
  match l.headerMetadata.addHeader env block.header with
  | none => l.panic
  | some (hash, cache) =>
      -- `assert_eq!`, before the canonical check: fork blocks are cached too.
      if hash = block.hash then
        { l with headerMetadata := cache, phase := .listenCanonical best block }
      else l.panic

/-- `recursive_tree_route` on the header it asked for. -/
def receiveHeader (env : Externals) (l : Listener) (best : HashAndNumber) (block : SubxtBlock)
    (header : Header) : Listener :=
  match l.headerMetadata.addHeader env header with
  | none => l.panic
  | some (_, cache) => recursiveTreeRoute env { l with headerMetadata := cache } best block

/-! ### The step -/

/-- The task from one wait to the next. -/
def step (env : Externals) (l : Listener) (reply : Reply) : Option Listener :=
  match l.phase, reply with
  | .subscribe, .subscribed result =>
      match result with
      | .ok () => some { l with phase := .loadNext }
      | .error err => some (l.returnError (.fromSubxt err))
  | .loadNext, .next item =>
      match nextBlock item with
      | .ok block => some { l with phase := .loadCanonical block }
      | .error err => some (l.returnError err)
  | .loadCanonical block, .blockHash answer =>
      match isCanonicalBlock block.hash answer with
      | .ok true => some { l with phase := .loadHead block.hash }
      | .ok false => some { l with phase := .loadNext }
      | .error err => some (l.returnError err)
  | .loadHead latestHash, .header answer =>
      match okOrMissingBlock answer with
      | .ok latestHead =>
          some (l.loadProgress env { number := latestHead.number, hash := latestHash }
            (loadSlots latestHead.number))
      | .error err => some (l.returnError err)
  | .loadRange latest slots, .slotBlockHash slot answer =>
      l.answerSlot env latest slots slot (LoadSlot.answerBlockHash answer)
  | .loadRange latest slots, .slotHeader slot answer =>
      l.answerSlot env latest slots slot (LoadSlot.answerHeader answer)
  | .listenNext best, .next item =>
      match nextBlock item with
      | .ok block => some (l.receiveBlock env best block)
      | .error err => some (l.listenForBlocksReturned err)
  | .listenCanonical best block, .blockHash answer =>
      match isCanonicalBlock block.hash answer with
      | .ok true => some (l.recursiveTreeRoute env best block)
      | .ok false => some { l with phase := .listenNext best }
      | .error err => some (l.listenForBlocksReturned err)
  | .listenRoute best block _, .header answer =>
      match okOrMissingBlock answer with
      | .ok header => some (l.receiveHeader env best block header)
      | .error err => some (l.listenForBlocksReturned err)
  | _, _ => none

end Listener

/-! ### `recursive_tree_route` as one call -/

/-- `recursive_tree_route` with all its recursive calls, at most `fuel` of them, where
`chainGetHeader` answers the requests: the result, and the cache as the call leaves it.
It is `none` when the fuel does not suffice, and at the panic of `add_header`. -/
def runRecursiveTreeRoute (env : Externals)
    (chainGetHeader : BlockHash → Except SubxtRpcsError (Option Header)) :
    Nat → HeadersMetadataCache → BlockHash → BlockHash →
      Option (Except Error TreeRoute × HeadersMetadataCache)
  | 0, _, _, _ => none
  | fuel + 1, cache, start, finish =>
      match env.treeRoute (cache.headerMetadata env) start finish with
      | .ok treeRoute => some (.ok treeRoute, cache)
      | .error (.missingBlockHashFromCache hash) =>
          match okOrMissingBlock (chainGetHeader hash) with
          | .error err => some (.error err, cache)
          | .ok header =>
              match cache.addHeader env header with
              | none => none
              | some (_, cache) => runRecursiveTreeRoute env chainGetHeader fuel cache start finish
      | .error err => some (.error err, cache)

end ChainAlerter
