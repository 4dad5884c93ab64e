import ChainAlerter.Library.ParentTree
import ChainAlerter.Model.HeaderCache

/-!
# `ChainAlerter.Model.BlockTree`: the headers that exist

A `BlockTree` is a store of headers by hash: closed under parents down to one
genesis block, numbers rising by one along the parent links, and each header
stored under its own hash. The store is a function of the hash, so two stored
headers never share one.

The tree stands for every block that exists in a run. A node's imported blocks
are a part of it that grows (`ChainAlerter.Model.World`). Fixing the whole tree
first keeps the ancestor relation fixed while a node imports blocks, and loses
no run: the blocks a run ever imports form such a tree.

`T.tree` is the `ParentTree` of the stored blocks, so ancestors, lowest common
ancestors and branches come from the library. `T.broadcast a b` is the message
that a move of the best block from `a` to `b` sends.
-/

set_option autoImplicit false

namespace ChainAlerter

open ChainAlerter.Library

/-- A header store closed under parents, with one genesis block. -/
structure BlockTree (env : Externals) where
  header : BlockHash → Option Header
  headerHash_eq : ∀ hash hd, header hash = some hd → env.headerHash hd = hash
  parent_stored : ∀ hash hd, header hash = some hd → hd.number ≠ 0 →
    ∃ parent, header hd.parentHash = some parent ∧ hd.number = parent.number + 1
  genesis_unique : ∀ hash hash' hd hd', header hash = some hd → header hash' = some hd' →
    hd.number = 0 → hd'.number = 0 → hash = hash'

namespace BlockTree

variable {env : Externals} (T : BlockTree env)

/-- A block of the tree: a hash under which a header is stored. -/
@[ext] structure Block where
  hash : BlockHash
  stored : (T.header hash).isSome
  deriving DecidableEq

variable {T}

namespace Block

/-- The header that the store has for the block. -/
def header (b : T.Block) : Header := (T.header b.hash).get b.stored

/-- The number in the block's header. -/
def number (b : T.Block) : Nat := b.header.number

/-- The block as the listener names it. -/
def hashAndNumber (b : T.Block) : HashAndNumber := { number := b.number, hash := b.hash }

/-- The block as an item of the subscription. -/
def item (b : T.Block) : SubxtBlock := { hash := b.hash, header := b.header }

/-- The block with its details, as `get_block_ext` extracts them. -/
def blockExt (b : T.Block) : BlockExt :=
  { number := b.number, hash := b.hash, parentHash := b.header.parentHash
    stateRoot := b.header.stateRoot, extrinsicsRoot := b.header.extrinsicsRoot }

/-- The block as `header_metadata` answers about it. -/
def metadata (b : T.Block) : CachedHeaderMetadata :=
  { hash := b.hash, number := b.number, parent := b.header.parentHash }

/-- A block is found under its own hash. -/
theorem header_hash (b : T.Block) : T.header b.hash = some b.header :=
  (Option.some_get b.stored).symm

/-- The hash of a block is that of its header. -/
theorem headerHash_header (b : T.Block) : env.headerHash b.header = b.hash :=
  T.headerHash_eq _ _ b.header_hash

/-- Blocks with one hash are one block, since the tree has one header under each hash. -/
theorem eq_of_hash_eq {a b : T.Block} (h : a.hash = b.hash) : a = b := Block.ext h

/-- A block is determined by its hash and number, and already by the hash. -/
theorem hashAndNumber_injective :
    Function.Injective (hashAndNumber : T.Block → HashAndNumber) := by
  intro a b h
  exact eq_of_hash_eq (congrArg HashAndNumber.hash h)

/-- The same as an equivalence, in the form that `simp` uses. -/
@[simp] theorem hashAndNumber_inj {a b : T.Block} :
    a.hashAndNumber = b.hashAndNumber ↔ a = b :=
  hashAndNumber_injective.eq_iff

/-- The stored block under a hash. -/
theorem exists_of_header {hash : BlockHash} {hd : Header} (h : T.header hash = some hd) :
    ∃ b : T.Block, b.hash = hash ∧ b.header = hd := by
  refine ⟨⟨hash, by rw [h]; rfl⟩, rfl, ?_⟩
  simp only [header, h, Option.get_some]

/-- The parent of a block above number 0 is in the tree. -/
theorem parent_isSome (b : T.Block) (h : b.number ≠ 0) :
    (T.header b.header.parentHash).isSome := by
  obtain ⟨parent, hparent, -⟩ := T.parent_stored _ _ b.header_hash h
  rw [hparent]
  rfl

/-- The parent block. The genesis block, whose parent hash names nothing, is its own. -/
def parent (b : T.Block) : T.Block :=
  if h : b.number = 0 then b else ⟨b.header.parentHash, b.parent_isSome h⟩

/-- Above number 0, the parent block is the one under the header's parent hash. -/
theorem hash_parent {b : T.Block} (h : b.number ≠ 0) :
    b.parent.hash = b.header.parentHash := by
  rw [parent, dif_neg h]

/-- The number of the parent is one less. The block at number 0 counts as its own parent. -/
theorem number_parent (b : T.Block) : b.parent.number = b.number - 1 := by
  by_cases h : b.number = 0
  · rw [parent, dif_pos h, h]
  · -- The store has one header under the parent's hash, and it is the parent block's.
    obtain ⟨parent, hparent, hnumber⟩ := T.parent_stored _ _ b.header_hash h
    have hheader := b.parent.header_hash
    rw [hash_parent h, hparent, Option.some.injEq] at hheader
    show b.parent.header.number = b.header.number - 1
    rw [← hheader, hnumber]
    rfl

end Block

variable (T)

/-- The tree of the stored blocks. -/
def tree : ParentTree T.Block where
  parent := Block.parent
  height := Block.number
  height_parent := Block.number_parent
  eq_of_height_eq_zero a b ha hb :=
    Block.eq_of_hash_eq
      (T.genesis_unique _ _ _ _ a.header_hash b.header_hash ha hb)

/-- The height of a block in the tree is its number. -/
@[simp] theorem tree_height (b : T.Block) : T.tree.height b = b.number := rfl

/-- The parent in the tree is the parent block. -/
@[simp] theorem tree_parent (b : T.Block) : T.tree.parent b = b.parent := rfl

/-- The hash at `number` on the chain that ends in `best`, `none` above its tip: the
answer of `chain_get_block_hash` for a node with that best block. -/
def blockHashAt (best : T.Block) (number : Nat) : Option BlockHash :=
  if number ≤ best.number then some (T.tree.atHeight best number).hash else none

/-- Asked for the number of a block, the chain of `best` answers with its hash exactly
when the block is on that chain. -/
theorem blockHashAt_eq_hash_iff {best b : T.Block} :
    T.blockHashAt best b.number = some b.hash ↔ T.tree.IsAncestor b best := by
  unfold blockHashAt ParentTree.IsAncestor
  constructor
  · intro h
    split at h
    · rename_i hle
      exact ⟨hle, Block.eq_of_hash_eq (Option.some.inj h)⟩
    · cases h
  · rintro ⟨hle, hat⟩
    rw [tree_height, tree_height] at hle
    rw [tree_height] at hat
    rw [if_pos hle, hat]

/-- The route that `tree_route` gives on the whole tree: down from `a` to the lowest
common ancestor, and up from there to `b`. -/
def route (a b : T.Block) : TreeRoute where
  retracted := ((T.tree.branch b a).map Block.hashAndNumber).reverse
  commonBlock := (T.tree.lca a b).hashAndNumber
  enacted := (T.tree.branch a b).map Block.hashAndNumber

/-- The blocks of the route from `a` to `b`: on the way down from either to the lowest
common ancestor. -/
def OnRoute (a b x : T.Block) : Prop :=
  (T.tree.IsAncestor x a ∨ T.tree.IsAncestor x b) ∧ T.tree.IsAncestor (T.tree.lca a b) x

/-- The message for a move of the best block from `a` to `b`, as `listen_for_blocks`
builds it from the route. The last enacted block was popped before the reorg data
takes the list. -/
def broadcast (a b : T.Block) : BlocksExt where
  blocks := (T.tree.branch a b).map Block.blockExt
  maybeReorgData :=
    if T.tree.IsAncestor a b then none
    else some
      { enacted := ((T.tree.branch a b).map Block.hashAndNumber).dropLast
        retracted := (T.tree.branch b a).map Block.hashAndNumber
        commonBlock := (T.tree.lca a b).hashAndNumber }

/-! ### Trees from a list of headers -/

/-- The checks that make a list of headers a tree: hashes are distinct, every header
that is not a genesis header finds its parent one number below, and there is at most one
genesis header. -/
def wellFormed (env : Externals) (headers : List Header) : Bool :=
  decide (headers.map env.headerHash).Nodup &&
  headers.all (fun hd => hd.number = 0 ||
    headers.any (fun p => env.headerHash p = hd.parentHash && hd.number = p.number + 1)) &&
  headers.all (fun hd => headers.all (fun hd' =>
    hd.number ≠ 0 || hd'.number ≠ 0 || env.headerHash hd = env.headerHash hd'))

/-- The store of a list of headers finds a listed header under its own hash. With
different hashes in the list no other header is in its place. -/
theorem find?_headerHash {env : Externals} {headers : List Header}
    (hnodup : (headers.map env.headerHash).Nodup) {hd : Header} (hmem : hd ∈ headers) :
    headers.find? (fun p => env.headerHash p = env.headerHash hd) = some hd := by
  cases hfind : headers.find? (fun p => env.headerHash p = env.headerHash hd) with
  | none =>
      rw [List.find?_eq_none] at hfind
      exact absurd (decide_eq_true rfl) (hfind hd hmem)
  | some p =>
      have hp := List.find?_some hfind
      have hpmem := List.mem_of_find?_eq_some hfind
      exact congrArg some (List.inj_on_of_nodup_map hnodup hpmem hmem (by simpa using hp))

/-- The tree of a well-formed list of headers. -/
def ofHeaders (env : Externals) (headers : List Header)
    (hwf : wellFormed env headers = true) : BlockTree env where
  header hash := headers.find? (fun p => env.headerHash p = hash)
  headerHash_eq hash hd h := by simpa using List.find?_some h
  parent_stored hash hd h hne := by
    simp only [wellFormed, Bool.and_eq_true, decide_eq_true_eq, List.all_eq_true,
      Bool.or_eq_true, List.any_eq_true] at hwf
    obtain ⟨⟨hnodup, hparents⟩, -⟩ := hwf
    rcases hparents hd (List.mem_of_find?_eq_some h) with h0 | ⟨p, hp, hhash, hnum⟩
    · exact absurd h0 hne
    · refine ⟨p, ?_, hnum⟩
      rw [← hhash]
      exact find?_headerHash hnodup hp
  genesis_unique hash hash' hd hd' h h' h0 h0' := by
    simp only [wellFormed, Bool.and_eq_true, List.all_eq_true, Bool.or_eq_true,
      decide_eq_true_eq] at hwf
    have hsame := hwf.2 hd (List.mem_of_find?_eq_some h) hd' (List.mem_of_find?_eq_some h')
    have hhash : env.headerHash hd = hash := by simpa using List.find?_some h
    have hhash' : env.headerHash hd' = hash' := by simpa using List.find?_some h'
    rcases hsame with (hne | hne) | heq
    · exact absurd h0 hne
    · exact absurd h0' hne
    · rw [← hhash, ← hhash', heq]

end BlockTree

end ChainAlerter
