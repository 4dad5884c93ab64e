import ChainAlerter.Library.GroupIndex
import ChainAlerter.Library.WhileLoop
import ChainAlerter.Proofs.CacheDepth

/-!
# `ChainAlerter.Proofs.CacheMaps`: the two maps of the header cache

`block_number_hashes` is to list the hashes of `block_header_data` under the numbers
of their headers. Both writers of the cache write both maps, and `run_maps` says that
the maps agree after any sequence of writes.

The one assumption is that of the hash: two different headers that are added have
different hashes. Otherwise the second one would replace the first, and the number
map would list the hash under both numbers.

`remove_header_until` is a `while` loop whose counter stops at zero. Its rounds take
entries out of the number map, so it ends (`exists_halts_removeRound`).
-/

set_option autoImplicit false

namespace ChainAlerter

open ChainAlerter.Library

variable {env : Externals}

/-! ### The writers -/

/-- A call of one of the two writers. -/
inductive CacheOp where
  | addHeader (header : Header)
  | removeHeaderUntil (number : Nat)

/-- The cache after the call. `none` is the panic of `add_header`. -/
def CacheOp.step (env : Externals) (cache : HeadersMetadataCache) : CacheOp → Option HeadersMetadataCache
  | .addHeader header => (cache.addHeader env header).map Prod.snd
  | .removeHeaderUntil number => some (cache.removeHeaderUntil number)

/-- The header that a call stores. -/
def CacheOp.stored? (env : Externals) : CacheOp → Option Header
  | .addHeader header =>
      (env.transcodeDigest header.digest).map fun digest => { header with digest := digest }
  | .removeHeaderUntil _ => none

/-- The headers that are added. -/
def storedHeaders (env : Externals) (ops : List CacheOp) : List Header :=
  ops.filterMap (CacheOp.stored? env)

/-- Distinct headers have distinct hashes. -/
def DistinctHashes (env : Externals) (headers : List Header) : Prop :=
  ∀ a ∈ headers, ∀ b ∈ headers, env.headerHash a = env.headerHash b → a = b

/-- Headers that come first have distinct hashes if all of them have. -/
theorem DistinctHashes.of_append {headers later : List Header}
    (h : DistinctHashes env (headers ++ later)) : DistinctHashes env headers := by
  intro a ha b hb
  exact h a (List.mem_append_left _ ha) b (List.mem_append_left _ hb)

namespace HeadersMetadataCache

/-- The two maps agree: they have the same hashes, the number map has each hash under
the number of its header and under no other, and no number has an empty set. -/
structure InStep (cache : HeadersMetadataCache) : Prop where
  same_hashes : ∀ hash, hash ∈ cache.blockHeaderData ↔
    ∃ number, ListsUnder cache.blockNumberHashes number hash
  one_number : ∀ hash header, cache.blockHeaderData.lookup hash = some header →
    ∀ number, ListsUnder cache.blockNumberHashes number hash ↔ number = header.number
  nonempty : ∀ number hashes, cache.blockNumberHashes.lookup number = some hashes →
    hashes.Nonempty

/-- One round of the loop of `remove_header_until`, on the cache and the counter. -/
def removeRound : HeadersMetadataCache × Nat → Option (HeadersMetadataCache × Nat)
  | (cache, toRemove) =>
      (cache.blockNumberHashes.lookup toRemove).map fun hashes =>
        (cache.removeNumber toRemove hashes, toRemove - 1)

variable {cache cache' : HeadersMetadataCache}

/-! ### The invariant -/

/-- The number map is the index of the headers by their numbers, and every header is one
of `headers`, under its own hash. -/
structure Maps (env : Externals) (headers : List Header) (cache : HeadersMetadataCache) : Prop where
  groups : Groups Header.number cache.blockHeaderData cache.blockNumberHashes
  stored : ∀ hash header, cache.blockHeaderData.lookup hash = some header →
    header ∈ headers ∧ env.headerHash header = hash

/-- The empty maps agree with each other, and hold none of the headers. -/
theorem maps_empty (env : Externals) : Maps env [] .empty := by
  constructor
  · exact groups_empty _
  · intro hash header h
    simp [empty] at h

/-- What the invariant says of the two maps alone: they are in step. -/
theorem Maps.inStep {headers : List Header} (h : Maps env headers cache) : cache.InStep := by
  constructor
  · exact h.groups.mem_iff
  · intro hash header hheader number
    rw [h.groups.listsUnder_iff]
    simp [hheader, eq_comm]
  · exact h.groups.nonempty

/-- A header that is added is new, or is there already. With different hashes for
different headers, a hash that is there belongs to the same header, so no number has
a wrong hash. -/
theorem Maps.addHeader {headers : List Header} {header : Header} (h : Maps env headers cache)
    {digest : List DigestItem} (hdigest : env.transcodeDigest header.digest = some digest)
    (hdistinct : DistinctHashes env (headers ++ [{ header with digest := digest }]))
    (hadd : (cache.addHeader env header).map Prod.snd = some cache') :
    Maps env (headers ++ [{ header with digest := digest }]) cache' := by
  unfold HeadersMetadataCache.addHeader at hadd
  rw [hdigest] at hadd
  cases hadd
  constructor
  · refine h.groups.insert (v := { header with digest := digest }) fun other hother => ?_
    -- The stored header has the hash of the new one, so it is the new one.
    obtain ⟨hmem, hhash⟩ := h.stored _ other hother
    rw [hdistinct other (by simp [hmem]) { header with digest := digest } (by simp) hhash]
  · intro hash found hfound
    dsimp only at hfound
    rw [lookup_insert_eq] at hfound
    split at hfound
    · rename_i hhash
      cases hfound
      exact ⟨by simp, hhash.symm⟩
    · obtain ⟨hmem, hhash⟩ := h.stored hash found hfound
      exact ⟨by simp [hmem], hhash⟩

/-- A round removes the headers of its number, and no others. The hashes that it erases
are those that the index lists there, and the maps are in step. -/
theorem Maps.lookup_removeNumber {headers : List Header} (h : Maps env headers cache) {number : Nat}
    {hashes : Finset BlockHash} (hlookup : cache.blockNumberHashes.lookup number = some hashes)
    (hash : BlockHash) (header : Header) :
    (cache.removeNumber number hashes).blockHeaderData.lookup hash = some header ↔
      cache.blockHeaderData.lookup hash = some header ∧ header.number ≠ number := by
  have hmem : hash ∈ hashes ↔ ListsUnder cache.blockNumberHashes number hash := by
    simp [ListsUnder, hlookup]
  show (hashes.val.foldr Finmap.erase cache.blockHeaderData).lookup hash = some header ↔ _
  rw [lookup_foldr_erase_eq]
  simp only [Finset.mem_val, hmem, h.groups.listsUnder_iff]
  constructor
  · intro hfound
    split at hfound
    · cases hfound
    · rename_i hnot
      exact ⟨hfound, fun hnumber => hnot ⟨header, hfound, hnumber⟩⟩
  · rintro ⟨hfound, hnumber⟩
    rw [if_neg]
    · exact hfound
    · rintro ⟨other, hother, hsame⟩
      rw [hfound] at hother
      cases hother
      exact hnumber hsame

/-- A round of the loop takes the hashes under a number out of both maps, so they
go on agreeing. -/
theorem Maps.removeNumber {headers : List Header} (h : Maps env headers cache) {number : Nat}
    {hashes : Finset BlockHash} (hlookup : cache.blockNumberHashes.lookup number = some hashes) :
    Maps env headers (cache.removeNumber number hashes) := by
  constructor
  · exact h.groups.erase (h.lookup_removeNumber hlookup)
  · intro hash header hfound
    exact h.stored hash header ((h.lookup_removeNumber hlookup hash header).mp hfound).1

/-- The loop keeps the invariant through all its rounds, by induction on the fuel.
Between the rounds the two maps are in step as well. -/
theorem Maps.removeLoop {headers : List Header} (fuel : Nat) :
    ∀ {cache : HeadersMetadataCache} (number : Nat), Maps env headers cache →
      Maps env headers (removeLoop fuel cache number) := by
  induction fuel with
  | zero => intro cache number h; exact h
  | succ fuel ih =>
      intro cache number h
      rw [HeadersMetadataCache.removeLoop]
      split
      · exact h
      · rename_i hashes hlookup
        exact ih _ (h.removeNumber hlookup)

/-- So does the pruning, which is the loop with enough rounds. -/
theorem Maps.removeHeaderUntil {headers : List Header} (h : Maps env headers cache) (number : Nat) :
    Maps env headers (cache.removeHeaderUntil number) :=
  h.removeLoop _ number

/-- The loop adds no number, so a number that is left after it was there before it. -/
theorem mem_of_mem_removeLoop (fuel : Nat) (cache : HeadersMetadataCache) (number k : Nat)
    (h : k ∈ (removeLoop fuel cache number).blockNumberHashes) : k ∈ cache.blockNumberHashes := by
  induction fuel generalizing cache number with
  | zero => exact h
  | succ fuel ih =>
      rw [removeLoop] at h
      split at h
      · exact h
      · exact (mem_removeNumber_iff.mp (ih _ _ h)).2

/-- A header whose number is left is left. A round takes all the headers of its number,
and none of another. -/
theorem Maps.lookup_removeLoop {headers : List Header} (fuel : Nat) {hash : BlockHash}
    {header : Header} :
    ∀ {cache : HeadersMetadataCache} (number : Nat), Maps env headers cache →
      cache.blockHeaderData.lookup hash = some header →
      header.number ∈ (HeadersMetadataCache.removeLoop fuel cache number).blockNumberHashes →
      (HeadersMetadataCache.removeLoop fuel cache number).blockHeaderData.lookup hash =
        some header := by
  induction fuel with
  | zero => intro cache number _ hfound _; exact hfound
  | succ fuel ih =>
      intro cache number h hfound hleft
      rw [HeadersMetadataCache.removeLoop] at hleft ⊢
      split at hleft
      · exact hfound
      · rename_i hashes hlookup
        -- A number that the round takes out does not come back.
        have hnumber := (mem_removeNumber_iff.mp (mem_of_mem_removeLoop _ _ _ _ hleft)).1
        have hkept := (h.lookup_removeNumber hlookup hash header).mpr ⟨hfound, hnumber⟩
        exact ih _ (h.removeNumber hlookup) hkept hleft

/-- The headers of the numbers that reach up to `number` are removed, and no others.
This is what the loop does, said without the loop. -/
theorem Maps.lookup_removeHeaderUntil_iff {headers : List Header} (h : Maps env headers cache)
    (number : Nat) (hash : BlockHash) (header : Header) :
    (cache.removeHeaderUntil number).blockHeaderData.lookup hash = some header ↔
      cache.blockHeaderData.lookup hash = some header ∧
        ¬ (header.number ≤ number ∧ cache.Reaches header.number number) := by
  constructor
  · intro hfound
    have hleft : header.number ∈ (cache.removeHeaderUntil number).blockNumberHashes :=
      ((h.removeHeaderUntil number).groups.mem_index_iff _).mpr ⟨hash, header, hfound, rfl⟩
    exact ⟨lookup_removeHeaderUntil _ _ _ _ hfound, (mem_removeHeaderUntil_iff.mp hleft).2⟩
  · rintro ⟨hfound, hnot⟩
    have hin : header.number ∈ cache.blockNumberHashes :=
      (h.groups.mem_index_iff _).mpr ⟨hash, header, hfound, rfl⟩
    exact h.lookup_removeLoop _ number hfound (mem_removeHeaderUntil_iff.mpr ⟨hin, hnot⟩)

/-! ### The loop ends -/

/-- A call that finds no entry changes nothing. -/
theorem removeHeaderUntil_of_none {number : Nat}
    (h : cache.blockNumberHashes.lookup number = none) :
    cache.removeHeaderUntil number = cache := by
  rw [HeadersMetadataCache.removeHeaderUntil, removeLoop, h]

/-- A call that finds an entry is one round, and a call for the number below. -/
theorem removeHeaderUntil_of_some {number : Nat} {hashes : Finset BlockHash}
    (h : cache.blockNumberHashes.lookup number = some hashes) :
    cache.removeHeaderUntil number =
      (cache.removeNumber number hashes).removeHeaderUntil (number - 1) := by
  have hcard := cache.card_keys_removeNumber number hashes h
  rw [HeadersMetadataCache.removeHeaderUntil, removeLoop, h]
  exact removeLoop_eq_removeHeaderUntil _ _ _ hcard

/-- The loop of `remove_header_until` ends, with the cache that `removeHeaderUntil`
gives. Each round erases a number, so the number of numbers is the measure, and the fuel
of the definition is enough. -/
theorem exists_halts_removeRound (cache : HeadersMetadataCache) (number : Nat) :
    ∃ toRemove, Halts removeRound (cache, number) (cache.removeHeaderUntil number, toRemove) := by
  -- The counter stops at zero, but the number map shrinks in every round.
  have hround : ∀ s s', removeRound s = some s' →
      s'.1.blockNumberHashes.keys.card < s.1.blockNumberHashes.keys.card := by
    rintro ⟨cache, number⟩ s' hround
    obtain ⟨hashes, hlookup, rfl⟩ := Option.map_eq_some_iff.mp hround
    exact cache.card_keys_removeNumber number hashes hlookup
  obtain ⟨⟨final, toRemove⟩, hfinal⟩ := exists_halts_of_measure
    (fun s => s.1.blockNumberHashes.keys.card) hround (cache, number)
  have heq : cache.removeHeaderUntil number = final := by
    refine hfinal.eq_of_rounds (g := fun s => s.1.removeHeaderUntil s.2) (f := Prod.fst) ?_ ?_
    · rintro ⟨cache, number⟩ hround
      exact removeHeaderUntil_of_none (Option.map_eq_none_iff.mp hround)
    · rintro ⟨cache, number⟩ s' hround
      obtain ⟨hashes, hlookup, rfl⟩ := Option.map_eq_some_iff.mp hround
      exact removeHeaderUntil_of_some hlookup
  rw [heq]
  exact ⟨toRemove, hfinal⟩

/-! ### Sequences of calls -/

/-- A call keeps the maps in step, as long as the headers have distinct hashes. There
are two writers, and each keeps the invariant for itself. -/
theorem Maps.step {op : CacheOp} {ops : List CacheOp} (h : Maps env (storedHeaders env ops) cache)
    (hdistinct : DistinctHashes env (storedHeaders env (ops ++ [op])))
    (hstep : op.step env cache = some cache') :
    Maps env (storedHeaders env (ops ++ [op])) cache' := by
  cases op with
  | addHeader header =>
      cases hdigest : env.transcodeDigest header.digest with
      | none => simp [CacheOp.step, HeadersMetadataCache.addHeader, hdigest] at hstep
      | some digest =>
          have hstored : storedHeaders env (ops ++ [.addHeader header]) =
              storedHeaders env ops ++ [{ header with digest := digest }] := by
            simp [storedHeaders, CacheOp.stored?, hdigest]
          rw [hstored] at hdistinct ⊢
          exact h.addHeader hdigest hdistinct hstep
  | removeHeaderUntil number =>
      have hstored : storedHeaders env (ops ++ [.removeHeaderUntil number]) =
          storedHeaders env ops := by
        simp [storedHeaders, CacheOp.stored?]
      rw [hstored]
      cases hstep
      exact h.removeHeaderUntil number

/-- The maps are in step after every sequence of calls. -/
theorem run_maps : ∀ (ops : List CacheOp) (cache : HeadersMetadataCache),
    run (CacheOp.step env) .empty ops = some cache → DistinctHashes env (storedHeaders env ops) →
      Maps env (storedHeaders env ops) cache := by
  refine run_history (fun _ => maps_empty env) ?_
  intro ops cache op cache' _ ih hstep hdistinct
  have hbefore : DistinctHashes env (storedHeaders env ops) := by
    rw [storedHeaders, List.filterMap_append] at hdistinct
    exact DistinctHashes.of_append hdistinct
  exact (ih hbefore).step hdistinct hstep

/-- Calls with digests that decode all go through. Only a digest that does not decode
stops `add_header`, and a removal never stops. -/
theorem exists_run_calls {ops : List CacheOp}
    (hdigests : ∀ header, .addHeader header ∈ ops → env.transcodeDigest header.digest ≠ none) :
    ∀ cache : HeadersMetadataCache, ∃ cache', run (CacheOp.step env) cache ops = some cache' := by
  induction ops with
  | nil => intro cache; exact ⟨cache, rfl⟩
  | cons op ops ih =>
      intro cache
      have hrest := ih fun header hheader => hdigests header (List.mem_cons_of_mem _ hheader)
      have hop : ∃ cache₁, op.step env cache = some cache₁ := by
        cases op with
        | addHeader header =>
            have hdigest := hdigests header List.mem_cons_self
            obtain ⟨digest, hdigest⟩ := Option.ne_none_iff_exists'.mp hdigest
            simp [CacheOp.step, HeadersMetadataCache.addHeader, hdigest]
        | removeHeaderUntil number => exact ⟨_, rfl⟩
      obtain ⟨cache₁, hstep⟩ := hop
      obtain ⟨cache', hrun⟩ := hrest cache₁
      exact ⟨cache', run_cons_eq_some.mpr ⟨cache₁, hstep, hrun⟩⟩

end HeadersMetadataCache

/-- The two maps of the cache never diverge. Take any sequence of `add_header` and
`remove_header_until` from the empty cache, in which distinct headers have distinct hashes. It
goes through if all digests decode. In the cache that it leaves:

- the two maps are in step;
- the loop of every `remove_header_until` ends, with the cache that `removeHeaderUntil` gives;
- the call removes the headers of the numbers from which every number up to its argument is in
  the number map, and it leaves all others, in particular those above the argument. -/
theorem cacheMaps_in_step (env : Externals) (ops : List CacheOp)
    (hdistinct : DistinctHashes env (storedHeaders env ops)) :
    ((∀ header, .addHeader header ∈ ops → env.transcodeDigest header.digest ≠ none) →
      ∃ cache, run (CacheOp.step env) .empty ops = some cache) ∧
    ∀ cache, run (CacheOp.step env) .empty ops = some cache →
      cache.InStep ∧
      ∀ number,
        (∃ toRemove, Halts HeadersMetadataCache.removeRound (cache, number)
          (cache.removeHeaderUntil number, toRemove)) ∧
        (cache.removeHeaderUntil number).InStep ∧
        (∀ hash header,
          (cache.removeHeaderUntil number).blockHeaderData.lookup hash = some header ↔
            cache.blockHeaderData.lookup hash = some header ∧
              ¬ (header.number ≤ number ∧ cache.Reaches header.number number)) ∧
        ∀ hash header, cache.blockHeaderData.lookup hash = some header → number < header.number →
          (cache.removeHeaderUntil number).blockHeaderData.lookup hash = some header := by
  constructor
  · intro hdigests
    exact HeadersMetadataCache.exists_run_calls hdigests .empty
  · intro cache hrun
    have hmaps := HeadersMetadataCache.run_maps ops cache hrun hdistinct
    refine ⟨hmaps.inStep, fun number => ⟨cache.exists_halts_removeRound number,
      (hmaps.removeHeaderUntil number).inStep, hmaps.lookup_removeHeaderUntil_iff number, ?_⟩⟩
    intro hash header hfound habove
    exact (hmaps.lookup_removeHeaderUntil_iff number hash header).mpr
      ⟨hfound, fun hreached => Nat.not_le_of_lt habove hreached.1⟩

/-- Headers from height 0 on, with a fork at 2, one header that is added twice,
and a hole at 3. -/
def forkOps : List CacheOp :=
  [.addHeader (forkHeader 1 0 0), .addHeader (forkHeader 2 1 1), .addHeader (forkHeader 3 2 2),
   .addHeader (forkHeader 4 2 2), .addHeader (forkHeader 3 2 2), .addHeader (forkHeader 7 5 4)]

/-- A removal from 2 on goes down to 0 and takes all headers but the one at height 4. -/
theorem cacheMaps_in_step_fork :
    ∃ cache, run (CacheOp.step walkExternals) .empty forkOps = some cache ∧ cache.InStep ∧
      (cache.removeHeaderUntil 2).InStep ∧
      (cache.removeHeaderUntil 2).blockHeaderData.lookup 7 = some (forkHeader 7 5 4) ∧
      (cache.removeHeaderUntil 2).blockHeaderData.keys.card = 1 := by
  have hdistinct : DistinctHashes walkExternals (storedHeaders walkExternals forkOps) := by
    unfold DistinctHashes
    decide
  obtain ⟨hstep, hremove⟩ := (cacheMaps_in_step walkExternals forkOps hdistinct).2 _ rfl
  obtain ⟨-, hstep', -, habove⟩ := hremove 2
  exact ⟨_, rfl, hstep, hstep', habove 7 (forkHeader 7 5 4) (by decide) (by decide), by decide⟩

end ChainAlerter
