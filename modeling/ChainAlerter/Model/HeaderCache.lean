import ChainAlerter.Model.Types

/-!
# `ChainAlerter.Model.HeaderCache`: `HeadersMetadataCache`

The header cache of `alerter/src/subspace.rs`: headers by hash, and the hashes
by number. `addHeader`, `removeHeaderUntil`, `getHeader` and `headerMetadata`
are the methods of the source.

The listener's proofs read the cache through `blockHeaderData` alone:
`addHeader_eq` and `lookup_removeHeaderUntil` say what the two writers do to it.
-/

set_option autoImplicit false

namespace ChainAlerter

/-- The two maps of the cache. -/
structure HeadersMetadataCache where
  blockHeaderData : Finmap (fun _ : BlockHash => Header)
  blockNumberHashes : Finmap (fun _ : Nat => Finset BlockHash)

namespace HeadersMetadataCache

/-- `HeadersMetadataCache::default()`. -/
def empty : HeadersMetadataCache := { blockHeaderData := ∅, blockNumberHashes := ∅ }

/-- `add_header`: the hash of the header, and the cache with it. `none` is the panic of
`expect("Digest is always valid")`. -/
def addHeader (env : Externals) (cache : HeadersMetadataCache) (header : Header) :
    Option (BlockHash × HeadersMetadataCache) := do
  -- The digest of the RPC header type goes through SCALE into that of the runtime header.
  let decodedDigest ← env.transcodeDigest header.digest
  let header := { header with digest := decodedDigest }
  let hash := env.headerHash header
  let number := header.number
  let hashes := (cache.blockNumberHashes.lookup number).getD ∅
  return (hash,
    { blockHeaderData := cache.blockHeaderData.insert hash header
      blockNumberHashes := cache.blockNumberHashes.insert number (insert hash hashes) })

instance : LeftCommutative
    (Finmap.erase : BlockHash → Finmap (fun _ : BlockHash => Header) → _) :=
  ⟨fun _ _ _ => Finmap.erase_erase⟩

/-- The body of the loop of `remove_header_until`, for the hashes that the number map
held at `toRemove`. -/
def removeNumber (cache : HeadersMetadataCache) (toRemove : Nat)
    (hashes : Finset BlockHash) : HeadersMetadataCache :=
  { blockHeaderData := hashes.val.foldr Finmap.erase cache.blockHeaderData
    blockNumberHashes := cache.blockNumberHashes.erase toRemove }

/-- The loop of `remove_header_until`, with at most `fuel` rounds. The decrement
saturates, so a round that removed number `0` looks at `0` once more. -/
def removeLoop : Nat → HeadersMetadataCache → Nat → HeadersMetadataCache
  | 0, cache, _ => cache
  | fuel + 1, cache, toRemove =>
      match cache.blockNumberHashes.lookup toRemove with
      | none => cache
      | some hashes => removeLoop fuel (cache.removeNumber toRemove hashes) (toRemove - 1)

/-- `remove_header_until`. Each round takes one entry out of the number map, so one
round more than it has entries always ends the loop
(`removeLoop_eq_removeHeaderUntil`). -/
def removeHeaderUntil (cache : HeadersMetadataCache) (number : Nat) :
    HeadersMetadataCache :=
  removeLoop (cache.blockNumberHashes.keys.card + 1) cache number

/-- `get_header`. -/
def getHeader (cache : HeadersMetadataCache) (hash : BlockHash) : Except Error Header :=
  match cache.blockHeaderData.lookup hash with
  | some header => .ok header
  | none => .error (.missingBlockHashFromCache hash)

/-- `header_metadata`, the method through which `tree_route` reads the cache. -/
def headerMetadata (env : Externals) (cache : HeadersMetadataCache) (hash : BlockHash) :
    Except Error CachedHeaderMetadata :=
  match cache.blockHeaderData.lookup hash with
  | some header =>
      .ok { hash := env.headerHash header, number := header.number, parent := header.parentHash }
  | none => .error (.missingBlockHashFromCache hash)

/-! ### The pruning loop ends -/

/-- A round takes its number out of the number map. -/
theorem card_keys_removeNumber (cache : HeadersMetadataCache) (toRemove : Nat)
    (hashes : Finset BlockHash)
    (h : cache.blockNumberHashes.lookup toRemove = some hashes) :
    (cache.removeNumber toRemove hashes).blockNumberHashes.keys.card <
      cache.blockNumberHashes.keys.card := by
  have hmem : toRemove ∈ cache.blockNumberHashes.keys :=
    Finmap.mem_keys.mpr (Finmap.mem_of_lookup_eq_some h)
  rw [removeNumber, Finmap.keys_erase]
  exact Finset.card_erase_lt_of_mem hmem

/-- Two amounts of fuel beyond the entries of the number map give the same cache. Each
round takes one entry, so the loop of the source ends before either of them runs out. -/
theorem removeLoop_of_card_lt (fuel fuel' : Nat) (cache : HeadersMetadataCache) (number : Nat)
    (h : cache.blockNumberHashes.keys.card < fuel)
    (h' : cache.blockNumberHashes.keys.card < fuel') :
    removeLoop fuel cache number = removeLoop fuel' cache number := by
  induction fuel generalizing fuel' cache number with
  | zero => omega
  | succ fuel ih =>
      obtain _ | fuel' := fuel'
      · omega
      · rw [removeLoop, removeLoop]
        split
        · rfl
        · rename_i hashes hlookup
          have hcard := cache.card_keys_removeNumber number hashes hlookup
          exact ih _ _ _ (by omega) (by omega)

/-- The bound of `removeHeaderUntil` never cuts the loop of the source short. -/
theorem removeLoop_eq_removeHeaderUntil (fuel : Nat) (cache : HeadersMetadataCache)
    (number : Nat) (h : cache.blockNumberHashes.keys.card < fuel) :
    removeLoop fuel cache number = cache.removeHeaderUntil number :=
  removeLoop_of_card_lt _ _ cache number h (Nat.lt_succ_self _)

/-! ### What the writers do to the stored headers -/

/-- Adding a header whose digest decodes to itself stores it under its hash and leaves
every other entry. -/
theorem addHeader_eq (env : Externals) (cache : HeadersMetadataCache) (header : Header)
    (hdigest : env.transcodeDigest header.digest = some header.digest) :
    ∃ cache', cache.addHeader env header = some (env.headerHash header, cache') ∧
      cache'.blockHeaderData = cache.blockHeaderData.insert (env.headerHash header) header := by
  unfold addHeader
  rw [hdigest]
  exact ⟨_, rfl, rfl⟩

/-- A lookup after an insertion. -/
theorem lookup_insert_eq (data : Finmap (fun _ : BlockHash => Header)) (hash other : BlockHash)
    (header : Header) :
    (data.insert hash header).lookup other = if other = hash then some header
      else data.lookup other := by
  by_cases h : other = hash
  · subst h
    rw [if_pos rfl, Finmap.lookup_insert]
  · rw [if_neg h, Finmap.lookup_insert_of_ne _ h]

/-- What is left when a set of hashes is erased: every other hash keeps its header, and
the order of the set does not matter. -/
theorem lookup_foldr_erase_eq (hashes : Multiset BlockHash)
    (data : Finmap (fun _ : BlockHash => Header)) (hash : BlockHash) :
    (hashes.foldr Finmap.erase data).lookup hash =
      if hash ∈ hashes then none else data.lookup hash := by
  induction hashes using Multiset.induction with
  | empty => simp
  | cons x hashes ih =>
      rw [Multiset.foldr_cons]
      by_cases hx : hash = x
      · subst hx
        simp
      · simp [hx, Finmap.lookup_erase_ne, ih]

/-- Erasing a set of hashes adds nothing. -/
theorem lookup_foldr_erase (hashes : Multiset BlockHash)
    (data : Finmap (fun _ : BlockHash => Header)) (hash : BlockHash) (header : Header)
    (h : (hashes.foldr Finmap.erase data).lookup hash = some header) :
    data.lookup hash = some header := by
  rw [lookup_foldr_erase_eq] at h
  split at h
  · cases h
  · exact h

/-- Pruning adds nothing: a header found after it was there before. This holds for every
fuel, by induction on it. -/
theorem lookup_removeLoop (fuel : Nat) (cache : HeadersMetadataCache) (number : Nat)
    (hash : BlockHash) (header : Header)
    (h : (removeLoop fuel cache number).blockHeaderData.lookup hash = some header) :
    cache.blockHeaderData.lookup hash = some header := by
  induction fuel generalizing cache number with
  | zero => exact h
  | succ fuel ih =>
      rw [removeLoop] at h
      split at h
      · exact h
      · exact lookup_foldr_erase _ _ _ _ (ih _ _ h)

/-- Pruning changes no header: one that is still there afterwards was there before. -/
theorem lookup_removeHeaderUntil (cache : HeadersMetadataCache) (number : Nat)
    (hash : BlockHash) (header : Header)
    (h : (cache.removeHeaderUntil number).blockHeaderData.lookup hash = some header) :
    cache.blockHeaderData.lookup hash = some header :=
  lookup_removeLoop _ _ _ _ _ h

end HeadersMetadataCache

end ChainAlerter
