import Mathlib

/-!
# `ChainAlerter.Model.Types`: blocks, messages and errors

The data of `alerter/src/subspace.rs` and `alerter/src/error.rs`. Block numbers
are `u32` in the source. The alerter only compares them and subtracts with
saturation, so they are `Nat` here, where `-` saturates too.

`Externals` collects what the alerter calls and does not define: the header
hash, the re-encoding of a digest, and `sp_blockchain::tree_route`. The model
takes them as a parameter. What the proofs assume of them is
`Externals.Lawful`, in `ChainAlerter.Model.TreeRoute`.
-/

set_option autoImplicit false

namespace ChainAlerter

/-- `H256`, the output of `BlakeTwo256`. -/
abbrev BlockHash := BitVec 256

/-- An item of a header digest. `subxt` and `sp_runtime` each have this type, with the
same SCALE layout. -/
inductive DigestItem where
  | preRuntime (engine : BitVec 32) (data : List UInt8)
  | consensus (engine : BitVec 32) (data : List UInt8)
  | seal (engine : BitVec 32) (data : List UInt8)
  | other (data : List UInt8)
  | runtimeEnvironmentUpdated
  deriving DecidableEq, Repr

/-- A block header. `SubstrateHeader`, which `subxt` returns, and the `Header` that the
cache stores have these five fields. -/
structure Header where
  parentHash : BlockHash
  number : Nat
  stateRoot : BlockHash
  extrinsicsRoot : BlockHash
  digest : List DigestItem
  deriving DecidableEq, Repr

/-- `sp_blockchain::HashAndNumber`. -/
structure HashAndNumber where
  number : Nat
  hash : BlockHash
  deriving DecidableEq, Repr

/-- An item of the block subscription: the block's hash, as `subxt` reports it,
and its header. -/
structure SubxtBlock where
  hash : BlockHash
  header : Header
  deriving DecidableEq, Repr

/-- `block.number()`. -/
def SubxtBlock.number (block : SubxtBlock) : Nat := block.header.number

/-- A block with extracted details. The client handle that the source keeps beside them
is not data of the block. -/
structure BlockExt where
  number : Nat
  hash : BlockHash
  parentHash : BlockHash
  stateRoot : BlockHash
  extrinsicsRoot : BlockHash
  deriving DecidableEq, Repr

/-- The block as messages and alerts name it. -/
def BlockExt.hashAndNumber (block : BlockExt) : HashAndNumber :=
  { number := block.number, hash := block.hash }

/-- What a message says about a reorg, with the blocks that it has left and entered. -/
structure ReorgData where
  enacted : List HashAndNumber
  retracted : List HashAndNumber
  commonBlock : HashAndNumber
  deriving DecidableEq, Repr

/-- Best blocks that have been enacted, and the reorg data if there was a reorg. This is
the message of the broadcast channel. -/
structure BlocksExt where
  blocks : List BlockExt
  maybeReorgData : Option ReorgData
  deriving DecidableEq, Repr

/-! ### Errors -/

/-- An error of a library the alerter uses. The alerter wraps it and logs it, and never
looks inside. -/
structure ForeignError where
  message : String
  deriving DecidableEq, Repr

/-- An error of the subscription or of the events, from `subxt`. -/
abbrev SubxtError := ForeignError

/-- An error of the RPC handle, from `subxt_rpcs`. -/
abbrev SubxtRpcsError := ForeignError

/-- `tokio::sync::broadcast::error::RecvError`. -/
inductive RecvError where
  | closed
  | lagged (skipped : Nat)
  deriving DecidableEq, Repr

/-- The overarching error type of the alerter. -/
inductive Error where
  | subxt (err : SubxtError)
  | join (err : ForeignError)
  | reqwest (err : ForeignError)
  | missingBlock
  | rpc (err : SubxtRpcsError)
  | missingBlockHashFromCache (hash : BlockHash)
  | missingBlockBody (hash : BlockHash)
  | storage (item : String)
  | scale (err : ForeignError)
  | broadRecvErr (err : RecvError)
  | io (err : ForeignError)
  | toml (err : ForeignError)
  | config (reason : String)
  | slack (err : ForeignError)
  | app (reason : String)
  deriving DecidableEq, Repr

/-- `impl From<subxt::Error> for Error`, which `?` applies. -/
def Error.fromSubxt (err : SubxtError) : Error := .subxt err

/-- `impl From<subxt_rpcs::Error> for Error`, which `?` applies. -/
def Error.fromSubxtRpcs (err : SubxtRpcsError) : Error := .rpc err

/-! ### Code outside the repository -/

/-- `sp_blockchain::CachedHeaderMetadata`, the fields `tree_route` reads. -/
structure CachedHeaderMetadata where
  hash : BlockHash
  number : Nat
  parent : BlockHash
  deriving DecidableEq, Repr

/-- `sp_blockchain::TreeRoute`, as its three accessors show it. -/
structure TreeRoute where
  retracted : List HashAndNumber
  commonBlock : HashAndNumber
  enacted : List HashAndNumber
  deriving DecidableEq, Repr

/-- The functions of other crates that the block listener calls.

- `headerHash` is `Header::hash`.
- `transcodeDigest` is `Digest::decode(&digest.encode())`, from the digest of `subxt` to
  the digest of `sp_runtime`. It is `none` when the decoding fails.
- `treeRoute` is `sp_blockchain::tree_route`. Its first argument is the `header_metadata`
  method of the backend. -/
structure Externals where
  headerHash : Header → BlockHash
  transcodeDigest : List DigestItem → Option (List DigestItem)
  treeRoute : (BlockHash → Except Error CachedHeaderMetadata) → BlockHash → BlockHash →
    Except Error TreeRoute

end ChainAlerter
