import ChainAlerter.Library.EventRun
import ChainAlerter.Model.Listener
import ChainAlerter.Model.TreeRoute

/-!
# `ChainAlerter.Proofs.CacheDepth`: what pruning leaves in the header cache

`remove_header_until` walks down from its number as long as the number map has an
entry. So it removes exactly the unbroken stretch of numbers that ends there
(`mem_removeHeaderUntil_iff`), and everything below the first hole stays, whatever
its depth.

Holes come with ordinary traffic: a block that is received late at an old height,
a header that `recursive_tree_route` fetches again, a reload after the chain has
moved on by more than the depth. `cache_within_depth_iff` is about all runs with
any replies: after a pruning the cache is within its depth exactly when the
number map had no hole below the number before.
-/

set_option autoImplicit false

namespace ChainAlerter

open ChainAlerter.Library

variable {env : Externals}

namespace HeadersMetadataCache

/-! ### The two maps -/

/-- Every cached header has its hash in the number map, under its number. -/
def Indexed (cache : HeadersMetadataCache) : Prop :=
  ∀ hash header, cache.blockHeaderData.lookup hash = some header →
    ∃ hashes, cache.blockNumberHashes.lookup header.number = some hashes ∧ hash ∈ hashes

/-- Nothing at `number` or below is left in the two maps. -/
def DeeperThan (cache : HeadersMetadataCache) (number : Nat) : Prop :=
  (∀ hash header, cache.blockHeaderData.lookup hash = some header → ¬ header.number ≤ number) ∧
    ∀ k, k ∈ cache.blockNumberHashes → ¬ k ≤ number

/-- All numbers from `k` to `number` are in the number map. -/
def Reaches (cache : HeadersMetadataCache) (k number : Nat) : Prop :=
  ∀ i, k ≤ i → i ≤ number → i ∈ cache.blockNumberHashes

/-- The number map has no hole between one of its numbers and `number`. -/
def NoHole (cache : HeadersMetadataCache) (number : Nat) : Prop :=
  ∀ k, k ∈ cache.blockNumberHashes → k ≤ number → cache.Reaches k number

instance (cache : HeadersMetadataCache) (k number : Nat) : Decidable (cache.Reaches k number) :=
  decidable_of_iff (∀ i < number + 1, k ≤ i → i ∈ cache.blockNumberHashes)
    ⟨fun h i hki hi => h i (Nat.lt_succ_of_le hi) hki,
      fun h i hi hki => h i hki (Nat.le_of_lt_succ hi)⟩

/-- Only the numbers up to `number` matter. -/
instance (cache : HeadersMetadataCache) (number : Nat) : Decidable (cache.NoHole number) :=
  decidable_of_iff (∀ k < number + 1, k ∈ cache.blockNumberHashes → cache.Reaches k number)
    ⟨fun h k hk hle => h k (Nat.lt_succ_of_le hle) hk,
      fun h k hle hk => h k hk (Nat.le_of_lt_succ hle)⟩

/-- The empty cache has no header that its index could miss. -/
theorem indexed_empty : Indexed .empty := by
  intro hash header h
  simp [empty] at h

/-- Adding a header puts its hash under its number, and leaves the other hashes where
they are. A header that is there already is put where it was. -/
theorem Indexed.addHeader {cache cache' : HeadersMetadataCache} {header : Header} {hash : BlockHash}
    (h : cache.Indexed) (hadd : cache.addHeader env header = some (hash, cache')) :
    cache'.Indexed := by
  unfold HeadersMetadataCache.addHeader at hadd
  cases hdigest : env.transcodeDigest header.digest with
  | none =>
      rw [hdigest] at hadd
      cases hadd
  | some digest =>
      rw [hdigest] at hadd
      cases hadd
      intro other found hfound
      dsimp only at hfound ⊢
      rw [lookup_insert_eq] at hfound
      by_cases hnumber : found.number = header.number
      · rw [hnumber, Finmap.lookup_insert]
        -- The entry of this number gets the hash of `header`, and keeps the others.
        refine ⟨_, rfl, ?_⟩
        split at hfound
        · rename_i hhash
          rw [hhash]
          exact Finset.mem_insert_self _ _
        · obtain ⟨hashes, hhashes, hmem⟩ := h other found hfound
          rw [hnumber] at hhashes
          rw [hhashes]
          exact Finset.mem_insert_of_mem hmem
      · rw [Finmap.lookup_insert_of_ne _ hnumber]
        split at hfound
        · cases hfound
          exact absurd rfl hnumber
        · exact h other found hfound

/-- Removing a number takes the headers of this number out of both maps, so no header is
left without its entry. -/
theorem Indexed.removeNumber {cache : HeadersMetadataCache} {number : Nat}
    {hashes : Finset BlockHash} (h : cache.Indexed)
    (hlookup : cache.blockNumberHashes.lookup number = some hashes) :
    (cache.removeNumber number hashes).Indexed := by
  intro hash header hfound
  have hbefore := lookup_foldr_erase _ _ _ _ hfound
  obtain ⟨hashes', hhashes', hmem⟩ := h hash header hbefore
  -- A header at `number` has its hash among those that are erased.
  have hnumber : header.number ≠ number := by
    intro heq
    rw [heq, hlookup] at hhashes'
    cases hhashes'
    have hnone : (cache.removeNumber number hashes).blockHeaderData.lookup hash = none :=
      (lookup_foldr_erase_eq hashes.val cache.blockHeaderData hash).trans (if_pos hmem)
    rw [hnone] at hfound
    cases hfound
  refine ⟨hashes', ?_, hmem⟩
  rw [← hhashes']
  exact Finmap.lookup_erase_ne hnumber

/-- The loop keeps the index through all its rounds, by induction on them. -/
theorem Indexed.removeLoop (fuel : Nat) :
    ∀ {cache : HeadersMetadataCache} (number : Nat), cache.Indexed →
      (removeLoop fuel cache number).Indexed := by
  induction fuel with
  | zero => intro cache number h; exact h
  | succ fuel ih =>
      intro cache number h
      rw [HeadersMetadataCache.removeLoop]
      split
      · exact h
      · rename_i hashes hlookup
        exact ih _ (h.removeNumber hlookup)

/-- So does the pruning, which is the loop. -/
theorem Indexed.removeHeaderUntil {cache : HeadersMetadataCache} (h : cache.Indexed)
    (number : Nat) : (cache.removeHeaderUntil number).Indexed :=
  h.removeLoop _ number

/-! ### What the loop removes -/

/-- Removing a number removes that number, and no other. -/
theorem mem_removeNumber_iff {cache : HeadersMetadataCache} {number k : Nat}
    {hashes : Finset BlockHash} :
    k ∈ (cache.removeNumber number hashes).blockNumberHashes ↔
      k ≠ number ∧ k ∈ cache.blockNumberHashes :=
  Finmap.mem_erase

/-- With a hole at its number the loop removes nothing. -/
theorem not_reaches_of_not_mem {cache : HeadersMetadataCache} {k number : Nat}
    (h : number ∉ cache.blockNumberHashes) (hk : k ≤ number) : ¬ cache.Reaches k number :=
  fun hreaches => h (hreaches number hk le_rfl)

/-- Below the number it removes, the loop goes on as from one number less. The removal
of a number does not change which numbers below it are there. -/
theorem reaches_succ_iff {cache : HeadersMetadataCache} {k number : Nat} (hashes : Finset BlockHash)
    (hmem : number + 1 ∈ cache.blockNumberHashes) :
    cache.Reaches k (number + 1) ↔ (cache.removeNumber (number + 1) hashes).Reaches k number := by
  constructor
  · intro h i hki hi
    rw [mem_removeNumber_iff]
    exact ⟨by omega, h i hki (by omega)⟩
  · intro h i hki hi
    by_cases heq : i = number + 1
    · rw [heq]
      exact hmem
    · exact (mem_removeNumber_iff.mp (h i hki (by omega))).2

/-- The loop removes the numbers that reach up to where it starts. By induction on the
fuel: a number that is not there ends the loop, so what is below a hole stays. -/
theorem mem_removeLoop_iff (fuel : Nat) :
    ∀ (cache : HeadersMetadataCache) (number k : Nat), cache.blockNumberHashes.keys.card < fuel →
      (k ∈ (removeLoop fuel cache number).blockNumberHashes ↔
        k ∈ cache.blockNumberHashes ∧ ¬ (k ≤ number ∧ cache.Reaches k number)) := by
  induction fuel with
  | zero => intro cache number k h; omega
  | succ fuel ih =>
      intro cache number k hfuel
      rw [removeLoop]
      split
      · rename_i hnone
        -- The loop ends at the first number without an entry.
        have hnot : number ∉ cache.blockNumberHashes := Finmap.lookup_eq_none.mp hnone
        exact ⟨fun h => ⟨h, fun hr => not_reaches_of_not_mem hnot hr.1 hr.2⟩, And.left⟩
      · rename_i hashes hlookup
        have hcard := cache.card_keys_removeNumber number hashes hlookup
        have hmem : number ∈ cache.blockNumberHashes := Finmap.mem_of_lookup_eq_some hlookup
        rw [ih _ _ _ (by omega), mem_removeNumber_iff]
        cases number with
        | zero =>
            -- The decrement saturates, and the next round finds no entry at zero.
            have hnot : ¬ (cache.removeNumber 0 hashes).Reaches k 0 ∨ ¬ k ≤ 0 := by
              by_cases hk : k ≤ 0
              · exact Or.inl (not_reaches_of_not_mem (fun h => (mem_removeNumber_iff.mp h).1 rfl) hk)
              · exact Or.inr hk
            have hreaches : k = 0 → cache.Reaches k 0 := by
              rintro rfl i hki hi
              rw [Nat.le_zero.mp hi]
              exact hmem
            simp only [Nat.zero_sub]
            constructor
            · rintro ⟨⟨hk, hin⟩, -⟩
              exact ⟨hin, fun h => hk (Nat.le_zero.mp h.1)⟩
            · rintro ⟨hin, hno⟩
              refine ⟨⟨fun hk => hno ⟨hk.le, hreaches hk⟩, hin⟩, fun h => ?_⟩
              exact hnot.elim (fun h' => h' h.2) (fun h' => h' h.1)
        | succ number =>
            rw [Nat.add_sub_cancel]
            -- Below `number + 1`, at it, or above.
            by_cases hk : k ≤ number
            · simp only [reaches_succ_iff hashes hmem, hk, Nat.le_succ_of_le hk, true_and]
              exact and_congr_left fun _ => and_iff_right (by omega)
            · by_cases heq : k = number + 1
              · subst heq
                have hself : cache.Reaches (number + 1) (number + 1) := by
                  intro i hki hi
                  rw [Nat.le_antisymm hi hki]
                  exact hmem
                simp [hself]
              · have hgt : ¬ k ≤ number + 1 := by omega
                simp [hk, hgt, heq]

/-- A number is pruned exactly when all numbers from it up to the given one are there.
The loop goes down from that one and stops at the first hole. -/
theorem mem_removeHeaderUntil_iff {cache : HeadersMetadataCache} {number k : Nat} :
    k ∈ (cache.removeHeaderUntil number).blockNumberHashes ↔
      k ∈ cache.blockNumberHashes ∧ ¬ (k ≤ number ∧ cache.Reaches k number) :=
  mem_removeLoop_iff _ cache number k (Nat.lt_succ_self _)

/-- A pruned cache is within its depth exactly when the number map had no hole.
Without one the loop goes down to the lowest number, and below a hole it leaves
headers that are too old. -/
theorem deeperThan_removeHeaderUntil_iff {cache : HeadersMetadataCache} {number : Nat}
    (h : cache.Indexed) :
    (cache.removeHeaderUntil number).DeeperThan number ↔ cache.NoHole number := by
  constructor
  · rintro ⟨-, hkeys⟩ k hk hle
    -- A number that does not reach up to `number` stays in the map.
    by_contra hreaches
    exact hkeys k (mem_removeHeaderUntil_iff.mpr ⟨hk, fun hr => hreaches hr.2⟩) hle
  · intro hhole
    have hkeys : ∀ k, k ∈ (cache.removeHeaderUntil number).blockNumberHashes → ¬ k ≤ number := by
      intro k hk hle
      obtain ⟨hin, hno⟩ := mem_removeHeaderUntil_iff.mp hk
      exact hno ⟨hle, hhole k hin hle⟩
    refine ⟨fun hash header hfound => ?_, hkeys⟩
    -- A header that is left has its number in the map, and there it is above `number`.
    obtain ⟨hashes, hhashes, -⟩ := h.removeHeaderUntil number hash header hfound
    exact hkeys _ (Finmap.mem_of_lookup_eq_some hhashes)

end HeadersMetadataCache

/-! ### The cache over a run -/

namespace Listener

variable {l l' : Listener} {best : HashAndNumber} {block : SubxtBlock}

/-- The arguments with which a step calls `remove_header_until`, if it gets there:
the cache, with the header that the reply brings when the route was missing one,
and the number. -/
def pruneArgs (env : Externals) (l : Listener) (reply : Reply) : Option (HeadersMetadataCache × Nat) :=
  match l.phase, reply with
  | .listenCanonical _ block, .blockHash _ =>
      some (l.headerMetadata, block.number - CACHE_HEADER_DEPTH)
  | .listenRoute _ block _, .header answer =>
      match okOrMissingBlock answer with
      | .ok header => (l.headerMetadata.addHeader env header).map
          (fun added => (added.2, block.number - CACHE_HEADER_DEPTH))
      | .error _ => none
  | _, _ => none

/-- What a piece of the loop does with the cache: it keeps it and sends nothing, or it
sends and prunes. -/
def KeepsOrPrunes (cache : HeadersMetadataCache) (number : Nat) (l l' : Listener) : Prop :=
  (l'.headerMetadata = cache ∧ l'.sent = l.sent) ∨
    (l'.headerMetadata = cache.removeHeaderUntil number ∧
      ∃ blocksExt, l'.sent = l.sent ++ [blocksExt])

/-- A listener that returns keeps its cache, which outlives the session. -/
theorem listenForBlocksReturned_keeps (number : Nat) (l : Listener) (err : Error) :
    KeepsOrPrunes l.headerMetadata number l (l.listenForBlocksReturned err) := by
  refine Or.inl ?_
  cases err <;> exact ⟨rfl, rfl⟩

/-- Enacting a route sends a message and prunes, or it does neither. The pruning is the
last thing that the round does, up to the depth below the new best block. -/
theorem enact_prunes (l : Listener) (best : HashAndNumber) (block : SubxtBlock)
    (route : TreeRoute) :
    KeepsOrPrunes l.headerMetadata (block.number - CACHE_HEADER_DEPTH) l
      (l.enact best block route) := by
  unfold enact
  dsimp only
  split
  · exact Or.inl ⟨rfl, rfl⟩
  · split
    · exact Or.inl ⟨rfl, rfl⟩
    · split
      · exact listenForBlocksReturned_keeps _ _ _
      · split
        · exact Or.inl ⟨rfl, rfl⟩
        · exact Or.inr ⟨rfl, _, rfl⟩

/-- The route is enacted, or waits for a header that is missing, or ends the listener.
Only the first of these prunes. -/
theorem recursiveTreeRoute_prunes (env : Externals) (l : Listener) (best : HashAndNumber)
    (block : SubxtBlock) :
    KeepsOrPrunes l.headerMetadata (block.number - CACHE_HEADER_DEPTH) l
      (l.recursiveTreeRoute env best block) := by
  unfold recursiveTreeRoute
  split
  · exact enact_prunes l best block _
  · exact Or.inl ⟨rfl, rfl⟩
  · exact listenForBlocksReturned_keeps _ _ _

/-- What a step does with the cache: it adds headers and sends nothing, or it
sends and prunes. -/
inductive CacheStep (env : Externals) (l : Listener) (reply : Reply) (l' : Listener) : Prop where
  | adds (headers : List Header)
      (hcache : headers.foldlM (fun cache header => (cache.addHeader env header).map Prod.snd)
        l.headerMetadata = some l'.headerMetadata)
      (hsent : l'.sent = l.sent)
  | prunes (headers : List Header) (cache : HeadersMetadataCache) (number : Nat)
      (hcache : headers.foldlM (fun cache header => (cache.addHeader env header).map Prod.snd)
        l.headerMetadata = some cache)
      (hargs : l.pruneArgs env reply = some (cache, number))
      (hpruned : l'.headerMetadata = cache.removeHeaderUntil number) (blocksExt : BlocksExt)
      (hsent : l'.sent = l.sent ++ [blocksExt])

/-- A step that leaves cache and messages alone adds no headers. -/
theorem CacheStep.quiet {reply : Reply} (hcache : l'.headerMetadata = l.headerMetadata)
    (hsent : l'.sent = l.sent) : CacheStep env l reply l' :=
  .adds [] (by rw [hcache]; rfl) hsent

/-- A listener that returns leaves cache and messages alone. -/
theorem CacheStep.returned {reply : Reply} (err : Error) :
    CacheStep env l reply (l.listenForBlocksReturned err) := by
  cases err <;> exact .quiet rfl rfl

/-- The header load adds its headers when it is complete, and nothing before. A load
that fails leaves the cache as it is. -/
theorem loadProgress_cacheStep {reply : Reply} (latest : HashAndNumber) (slots : List LoadSlot) :
    CacheStep env l reply (l.loadProgress env latest slots) := by
  unfold loadProgress
  split
  · exact .quiet rfl rfl
  · exact .quiet rfl rfl
  · rename_i headers _
    split
    · exact .quiet rfl rfl
    · rename_i cache hcache
      exact .adds headers hcache rfl

/-- An answer to a request of the load is progress of the load. -/
theorem answerSlot_cacheStep {reply : Reply} {latest : HashAndNumber} {slots : List LoadSlot}
    {slot : Nat} {answer : LoadSlot → Option LoadSlot}
    (h : l.answerSlot env latest slots slot answer = some l') : CacheStep env l reply l' := by
  simp only [answerSlot, Option.bind_eq_bind, Option.bind_eq_some_iff] at h
  obtain ⟨-, -, request, -, request', -, hl'⟩ := h
  cases hl'
  exact loadProgress_cacheStep latest _

/-- A received block is added before its canonical check. -/
theorem receiveBlock_cacheStep {reply : Reply} (best : HashAndNumber) (block : SubxtBlock) :
    CacheStep env l reply (l.receiveBlock env best block) := by
  unfold receiveBlock
  split
  · exact .quiet rfl rfl
  · rename_i hash cache hadd
    split
    · exact .adds [block.header] (by simp [hadd]) rfl
    · exact .quiet rfl rfl

/-- After the canonical check, the route is computed on the cache as it is. -/
theorem recursiveTreeRoute_cacheStep (hphase : l.phase = .listenCanonical best block)
    (answer : Except SubxtRpcsError (Option BlockHash)) :
    CacheStep env l (.blockHash answer) (l.recursiveTreeRoute env best block) := by
  rcases recursiveTreeRoute_prunes env l best block with ⟨hcache, hsent⟩ | ⟨hcache, sent, hsent⟩
  · exact .quiet hcache hsent
  · exact .prunes [] l.headerMetadata _ rfl (by simp [pruneArgs, hphase]) hcache sent hsent

/-- A header that the route was missing is added first, and then the route is tried
again. The pruning is on the cache with it. -/
theorem receiveHeader_cacheStep {missing : BlockHash} {header : Header}
    {answer : Except SubxtRpcsError (Option Header)}
    (hphase : l.phase = .listenRoute best block missing)
    (hanswer : okOrMissingBlock answer = .ok header) :
    CacheStep env l (.header answer) (l.receiveHeader env best block header) := by
  unfold receiveHeader
  split
  · exact .quiet rfl rfl
  · rename_i hash cache hadd
    have hfold : [header].foldlM (fun cache header => (cache.addHeader env header).map Prod.snd)
        l.headerMetadata = some cache := by
      simp [hadd]
    -- The pruning starts from the cache with the new header.
    rcases recursiveTreeRoute_prunes env { l with headerMetadata := cache } best block with
      ⟨hcache, hsent⟩ | ⟨hcache, sent, hsent⟩
    · exact .adds [header] (hcache ▸ hfold) hsent
    · exact .prunes [header] cache _ hfold (by simp [pruneArgs, hphase, hanswer, hadd]) hcache sent
        hsent

/-- Everything a step of the listener can do to its cache: it adds headers, or it adds
them, prunes and sends. The invariants of the cache are proved from these two cases. -/
theorem step_cacheStep {reply : Reply} (h : l.step env reply = some l') :
    CacheStep env l reply l' := by
  unfold step at h
  split at h
  · split at h <;> cases h <;> exact .quiet rfl rfl
  · split at h <;> cases h <;> exact .quiet rfl rfl
  · split at h <;> cases h <;> exact .quiet rfl rfl
  · split at h
    · cases h
      exact loadProgress_cacheStep _ _
    · cases h
      exact .quiet rfl rfl
  · exact answerSlot_cacheStep h
  · exact answerSlot_cacheStep h
  · split at h
    · cases h
      exact receiveBlock_cacheStep _ _
    · cases h
      exact .returned _
  · rename_i hphase
    split at h
    · cases h
      exact recursiveTreeRoute_cacheStep hphase _
    · cases h
      exact .quiet rfl rfl
    · cases h
      exact .returned _
  · rename_i hphase
    split at h
    · rename_i header hanswer
      cases h
      exact receiveHeader_cacheStep hphase hanswer
    · cases h
      exact .returned _
  · cases h

/-- A step sends at most one message, after those sent before. -/
theorem sent_initial {reply : Reply} (h : l.step env reply = some l') : l.sent <+: l'.sent := by
  cases step_cacheStep h with
  | adds headers hcache hsent => rw [hsent]
  | prunes headers cache number hcache hargs hpruned blocksExt hsent =>
      rw [hsent]
      exact List.prefix_append _ _

/-- A step that sends has pruned the cache with its arguments. Only the end of a round
sends, and it is there that the source calls `remove_header_until`. -/
theorem prunes_of_sent {reply : Reply} {cache : HeadersMetadataCache} {number : Nat}
    (h : l.step env reply = some l') (hsent : l'.sent ≠ l.sent)
    (hargs : l.pruneArgs env reply = some (cache, number)) :
    l'.headerMetadata = cache.removeHeaderUntil number := by
  cases step_cacheStep h with
  | adds headers hcache hsame => exact absurd hsame hsent
  | prunes headers cache' number' hcache hargs' hpruned _ _ =>
      rw [hargs] at hargs'
      cases hargs'
      exact hpruned

/-- Adding several headers keeps the index, by induction on them. -/
theorem indexed_addHeaders (headers : List Header) :
    ∀ {cache cache' : HeadersMetadataCache}, cache.Indexed →
      headers.foldlM (fun cache header => (cache.addHeader env header).map Prod.snd) cache
        = some cache' → cache'.Indexed := by
  induction headers with
  | nil =>
      intro cache cache' h hfold
      cases hfold
      exact h
  | cons header headers ih =>
      intro cache cache' h hfold
      simp only [List.foldlM_cons, Option.bind_eq_bind, Option.bind_eq_some_iff,
        Option.map_eq_some_iff] at hfold
      obtain ⟨_, ⟨⟨hash, cache₁⟩, hadd, rfl⟩, hrest⟩ := hfold
      exact ih (h.addHeader hadd) hrest

/-- A step of the listener keeps the index, whichever of the two cases it is. -/
theorem CacheStep.indexed {reply : Reply} (h : CacheStep env l reply l')
    (hl : l.headerMetadata.Indexed) : l'.headerMetadata.Indexed := by
  cases h with
  | adds headers hcache hsent => exact indexed_addHeaders headers hl hcache
  | prunes headers cache number hcache hargs hpruned _ _ =>
      rw [hpruned]
      exact (indexed_addHeaders headers hl hcache).removeHeaderUntil number

/-- The cache is indexed in every state that the listener reaches. -/
theorem run_indexed {replies : List Reply} (h : run (step env) init replies = some l) :
    l.headerMetadata.Indexed :=
  run_invariant (fun _ _ _ hl hstep => (step_cacheStep hstep).indexed hl) replies _ _
    HeadersMetadataCache.indexed_empty h

/-- The cache at the call of `remove_header_until` is indexed as well. It is the cache
before the step, with at most the header that the step has received. -/
theorem indexed_pruneArgs {reply : Reply} {cache : HeadersMetadataCache} {number : Nat}
    (hl : l.headerMetadata.Indexed) (h : l.step env reply = some l') (hsent : l'.sent ≠ l.sent)
    (hargs : l.pruneArgs env reply = some (cache, number)) : cache.Indexed := by
  cases step_cacheStep h with
  | adds headers hcache hsame => exact absurd hsame hsent
  | prunes headers cache' number' hcache hargs' hpruned _ _ =>
      rw [hargs] at hargs'
      cases hargs'
      exact indexed_addHeaders headers hl hcache

end Listener

/-- At every pruning of every run, the cache is within its depth afterwards if and only
if the number map had no hole below the number before. The run is any list of replies,
from the start of `listen_for_all_blocks` over any number of sessions, and `reply` is
one on which the listener sends, so that it prunes. -/
theorem cache_within_depth_iff (env : Externals) (replies : List Reply) (reply : Reply)
    (l l' : Listener) (cache : HeadersMetadataCache) (number : Nat)
    (hrun : run (Listener.step env) Listener.init replies = some l)
    (hstep : l.step env reply = some l') (hsent : l'.sent ≠ l.sent)
    (hargs : l.pruneArgs env reply = some (cache, number)) :
    l'.headerMetadata.DeeperThan number ↔ cache.NoHole number := by
  have hindexed := Listener.indexed_pruneArgs (Listener.run_indexed hrun) hstep hsent hargs
  rw [Listener.prunes_of_sent hstep hsent hargs]
  exact HeadersMetadataCache.deeperThan_removeHeaderUntil_iff hindexed

/-! ### Runs on a chain -/

/-- The block at `number` on a chain in which block `number` has the hash `number + 1`. -/
def chainItem (number : Nat) : SubxtBlock :=
  { hash := BitVec.ofNat 256 (number + 1)
    header := forkHeader (BitVec.ofNat 256 (number + 1)) (BitVec.ofNat 256 number) number }

/-- The answers to the requests of the header load, for the chain from `first` on. -/
def loadReplies (first count : Nat) : List Reply :=
  (List.range count).flatMap fun slot =>
    [.slotBlockHash slot (.ok (some (chainItem (first + slot)).hash)),
     .slotHeader slot (.ok (some (chainItem (first + slot)).header))]

/-- A session up to the end of the header load, with the block at `latest` as its first. -/
def sessionReplies (latest : Nat) : List Reply :=
  [.subscribed (.ok ()), .next (some (.ok (chainItem latest))),
   .blockHash (.ok (some (chainItem latest).hash)), .header (.ok (some (chainItem latest).header))]
    ++ loadReplies (latest - CACHE_HEADER_DEPTH) (latest + 1 - (latest - CACHE_HEADER_DEPTH))

/-- The listener at 103 receives the block 107, and fetches the blocks between them. The
cache then holds the blocks from 3 to 107. -/
def growthReplies : List Reply :=
  sessionReplies 103 ++
    [.next (some (.ok (chainItem 107))), .blockHash (.ok (some (chainItem 107).hash)),
     .header (.ok (some (chainItem 106).header)), .header (.ok (some (chainItem 105).header))]

/-- The last header arrives, the message is sent, and the five heights up to 7 go. -/
theorem cache_within_depth_iff_growth :
    ∃ l l' cache, run (Listener.step walkExternals) Listener.init growthReplies = some l ∧
      l.step walkExternals (.header (.ok (some (chainItem 104).header))) = some l' ∧
      l.pruneArgs walkExternals (.header (.ok (some (chainItem 104).header))) =
        some (cache, 7) ∧
      cache.Reaches 3 7 ∧
      l'.headerMetadata.DeeperThan 7 := by
  have hrun : ((run (Listener.step walkExternals) Listener.init growthReplies).bind
      fun l => (l.step walkExternals (.header (.ok (some (chainItem 104).header)))).bind
      fun l' => (l.pruneArgs walkExternals (.header (.ok (some (chainItem 104).header)))).map
      fun args : HeadersMetadataCache × Nat => (l'.sent.length, l.sent.length, args.2,
        decide (args.1.Reaches 3 7),
        decide (args.1.NoHole args.2))) =
      some (1, 0, 7, true, true) := by
    decide +kernel
  simp only [Option.bind_eq_some_iff, Option.map_eq_some_iff, Prod.mk.injEq, decide_eq_true_eq]
    at hrun
  obtain ⟨l, hl, l', hl', ⟨cache, number⟩, hargs, hsent', hsent, rfl, hheights, hhole⟩ := hrun
  refine ⟨l, l', cache, hl, hl', hargs, hheights, ?_⟩
  refine (cache_within_depth_iff walkExternals growthReplies _ l l' cache 7 hl hl'
    (fun h => ?_) hargs).mpr hhole
  rw [h, hsent] at hsent'
  cases hsent'

/-- A block at height 1 that arrives late, off the chain. -/
def lateFork : SubxtBlock := { hash := 1001, header := forkHeader 1001 1 1 }

/-- A session that starts at height 103 hears of a fork block of height 1. The
canonical check refuses it, after its header was cached, and then the next best
block is received. -/
def lateForkReplies : List Reply :=
  sessionReplies 103 ++
    [.next (some (.ok lateFork)), .blockHash (.ok (some (chainItem 1).hash)),
     .next (some (.ok (chainItem 104)))]

/-- The cache holds the blocks from 3 to 103 when a block of height 1 arrives. At block
104 the loop removes 4 and 3, and stops at 2. -/
theorem late_fork_stays :
    ∃ l l' cache, run (Listener.step walkExternals) Listener.init lateForkReplies = some l ∧
      l.step walkExternals (.blockHash (.ok (some (chainItem 104).hash))) = some l' ∧
      l'.sent ≠ l.sent ∧
      l.pruneArgs walkExternals (.blockHash (.ok (some (chainItem 104).hash))) = some (cache, 4) ∧
      ¬ l'.headerMetadata.DeeperThan 4 := by
  have hrun : ((run (Listener.step walkExternals) Listener.init lateForkReplies).bind
      fun l => (l.step walkExternals (.blockHash (.ok (some (chainItem 104).hash)))).bind
      fun l' => (l.pruneArgs walkExternals (.blockHash (.ok (some (chainItem 104).hash)))).map
      fun args => (l'.sent.length, l.sent.length, args.2,
        l'.headerMetadata.blockHeaderData.lookup lateFork.hash)) =
      some (1, 0, 4, some lateFork.header) := by
    decide +kernel
  simp only [Option.bind_eq_some_iff, Option.map_eq_some_iff, Prod.mk.injEq] at hrun
  obtain ⟨l, hl, l', hl', ⟨cache, number⟩, hargs, hsent', hsent, rfl, hlookup⟩ := hrun
  refine ⟨l, l', cache, hl, hl', fun h => ?_, hargs, fun h => ?_⟩
  · rw [h, hsent] at hsent'
    cases hsent'
  · exact h.1 lateFork.hash lateFork.header hlookup (by decide)

end ChainAlerter
