import ChainAlerter.Library.EventRun
import ChainAlerter.Proofs.Tracks

/-!
# `ChainAlerter.Proofs.RouteRefetch`: `recursive_tree_route` over any cache

`recursive_tree_route` starts `tree_route` over with each header that was missing
from the cache. The missing headers are those of blocks of the route, and each
retry has one of them less (`card_missingOn_lt`), so the recursion ends. What it
returns is the route on the whole header store, whatever the cache held.

`run_recursiveTreeRoute` connects the call with the listener: its requests and
their answers are the steps that the listener makes between the canonical check
and the end of the round.
-/

set_option autoImplicit false

namespace ChainAlerter

open ChainAlerter.Library

variable {env : Externals} {T : BlockTree env}

/-- `chain_get_header` of a node that answers from the store. -/
def BlockTree.chainGetHeader (T : BlockTree env) (hash : BlockHash) :
    Except SubxtRpcsError (Option Header) := .ok (T.header hash)

/-- `header_metadata` over the whole store. -/
def BlockTree.headerMetadata (T : BlockTree env) (hash : BlockHash) :
    Except Error CachedHeaderMetadata :=
  match T.header hash with
  | some header =>
      .ok { hash := env.headerHash header, number := header.number, parent := header.parentHash }
  | none => .error (.missingBlockHashFromCache hash)

/-- The whole store answers for every block of the tree with the block's own metadata,
so no lookup in it fails. -/
theorem BlockTree.headerMetadata_hash (b : T.Block) : T.headerMetadata b.hash = .ok b.metadata := by
  simp only [BlockTree.headerMetadata, b.header_hash, b.headerHash_header]
  rfl

/-- On the whole store `tree_route` finds the route. This is the result that every cache
has to agree with. -/
theorem treeRoute_headerMetadata (hlaw : env.Lawful T) (a b : T.Block) :
    env.treeRoute T.headerMetadata a.hash b.hash = .ok (T.route a b) := by
  have hbacks : T.Backs T.headerMetadata := fun x => Or.inl (BlockTree.headerMetadata_hash x)
  cases hroute : env.treeRoute T.headerMetadata a.hash b.hash with
  | ok route => rw [(hlaw.treeRoute_ok _ hbacks a b route hroute).1]
  | error err =>
      -- An error would name a block whose header is missing, and the store has all of them.
      obtain ⟨x, -, hx⟩ := hlaw.treeRoute_error _ hbacks a b err hroute
      rw [BlockTree.headerMetadata_hash] at hx
      cases hx

/-! ### The blocks of the route that are missing -/

/-- The blocks of the route. -/
def BlockTree.routeBlocks (T : BlockTree env) (a b : T.Block) : Finset T.Block :=
  insert (T.tree.lca a b) ((T.tree.branch a b).toFinset ∪ (T.tree.branch b a).toFinset)

/-- A block on the route between two others is one of the finitely many blocks of the
route: their lowest common ancestor, or one of the two branches. The measure of the
recursion counts the missing ones of these. -/
theorem BlockTree.OnRoute.mem_routeBlocks {a b x : T.Block} (h : T.OnRoute a b x) :
    x ∈ T.routeBlocks a b := by
  obtain ⟨hends, hlca⟩ := h
  rw [BlockTree.routeBlocks, Finset.mem_insert, Finset.mem_union, List.mem_toFinset,
    List.mem_toFinset, ParentTree.mem_branch, ParentTree.mem_branch]
  by_cases ha : T.tree.IsAncestor x a
  · by_cases hb : T.tree.IsAncestor x b
    · -- A common ancestor of both ends on the route is the lowest one.
      exact Or.inl ((ParentTree.isAncestor_lca_iff.mpr ⟨ha, hb⟩).antisymm hlca)
    · exact Or.inr (Or.inr ⟨ha, hb⟩)
  · exact Or.inr (Or.inl ⟨hends.resolve_left ha, ha⟩)

/-- The blocks of the route that the cache does not hold. -/
def missingOn (cache : HeadersMetadataCache) (a b : T.Block) : Finset T.Block :=
  (T.routeBlocks a b).filter fun x => cache.blockHeaderData.lookup x.hash = none

/-- One of them less, after its header has been added. This is the measure of
`recursive_tree_route`, which fetches one missing header and tries again. -/
theorem card_missingOn_lt {cache cache' : HeadersMetadataCache} {a b x : T.Block}
    (hx : T.OnRoute a b x) (hmissing : cache.blockHeaderData.lookup x.hash = none)
    (hdata : cache'.blockHeaderData = cache.blockHeaderData.insert x.hash x.header) :
    (missingOn cache' a b).card < (missingOn cache a b).card := by
  refine Finset.card_lt_card ⟨fun y hy => ?_, fun hsub => ?_⟩
  · -- What is missing afterwards was missing before.
    obtain ⟨hroute, hlookup⟩ := Finset.mem_filter.mp hy
    refine Finset.mem_filter.mpr ⟨hroute, ?_⟩
    rw [hdata, HeadersMetadataCache.lookup_insert_eq] at hlookup
    split at hlookup
    · cases hlookup
    · exact hlookup
  · -- `x` itself is missing no more.
    have hin : x ∈ missingOn cache a b := Finset.mem_filter.mpr ⟨hx.mem_routeBlocks, hmissing⟩
    have hlookup := (Finset.mem_filter.mp (hsub hin)).2
    rw [hdata, Finmap.lookup_insert] at hlookup
    cases hlookup

/-! ### The recursion -/

/-- `cache'` holds what `cache` holds. -/
def HeadersMetadataCache.Grows (cache cache' : HeadersMetadataCache) : Prop :=
  ∀ hash header, cache.blockHeaderData.lookup hash = some header →
    cache'.blockHeaderData.lookup hash = some header

/-- A header added at a hash that the cache lacks leaves everything in it that was
there before. -/
theorem HeadersMetadataCache.Grows.insert {cache cache' : HeadersMetadataCache} {x : T.Block}
    (hmissing : cache.blockHeaderData.lookup x.hash = none)
    (hdata : cache'.blockHeaderData = cache.blockHeaderData.insert x.hash x.header) :
    cache.Grows cache' := by
  intro hash header h
  have hne : hash ≠ x.hash := by
    rintro rfl
    rw [hmissing] at h
    cases h
  rw [hdata, lookup_insert_eq, if_neg hne]
  exact h

/-- What `header_metadata` does not find is not in the cache, and the error names it. So
the listener asks for a header that is really missing. -/
theorem HeadersMetadataCache.Within.missing {S : T.Block → Prop} {cache : HeadersMetadataCache}
    (hcache : cache.Within S) {x : T.Block} {err : Error}
    (h : cache.headerMetadata env x.hash = .error err) :
    cache.blockHeaderData.lookup x.hash = none ∧ err = .missingBlockHashFromCache x.hash := by
  rcases hcache.backs x with hok | herr
  · rw [hok] at h
    cases h
  · rw [herr] at h
    cases h
    refine ⟨?_, rfl⟩
    cases hlookup : cache.blockHeaderData.lookup x.hash with
    | none => rfl
    | some header =>
        simp [HeadersMetadataCache.headerMetadata, hlookup] at herr

/-- A block whose metadata could be read from the cache has its own header there. So the
blocks that the route was computed from are in the cache that the recursion leaves. -/
theorem HeadersMetadataCache.Within.lookup_of_read {S : T.Block → Prop}
    {cache : HeadersMetadataCache} (hcache : cache.Within S) {x : T.Block}
    (h : cache.headerMetadata env x.hash = .ok x.metadata) :
    cache.blockHeaderData.lookup x.hash = some x.header := by
  cases hlookup : cache.blockHeaderData.lookup x.hash with
  | none => simp [HeadersMetadataCache.headerMetadata, hlookup] at h
  | some header => rw [hcache.lookup_eq hlookup]

/-- What a call leaves: a cache that holds what it held before, only headers of the
store, and every block of the route. -/
structure Refetched (a b : T.Block) (cache cache' : HeadersMetadataCache) : Prop where
  grows : cache.Grows cache'
  within : cache'.Within (fun _ : T.Block => True)
  route : ∀ x, T.OnRoute a b x → cache'.blockHeaderData.lookup x.hash = some x.header

/-- The recursion ends within as many calls as there are blocks of the route to fetch,
and one more. The induction is on their number, over all caches. -/
theorem exists_runRecursiveTreeRoute (hlaw : env.Lawful T) (a b : T.Block) (count : Nat) :
    ∀ cache : HeadersMetadataCache, cache.Within (fun _ : T.Block => True) →
      (missingOn cache a b).card = count →
      ∃ cache', Refetched a b cache cache' ∧ ∀ fuel, count < fuel →
        runRecursiveTreeRoute env T.chainGetHeader fuel cache a.hash b.hash =
          some (.ok (T.route a b), cache') := by
  induction count using Nat.strong_induction_on with
  | _ count ih =>
    intro cache hcache hcount
    cases hroute : env.treeRoute (cache.headerMetadata env) a.hash b.hash with
    | ok route =>
        -- Nothing was missing: this call gives the route.
        obtain ⟨rfl, hread⟩ := hlaw.treeRoute_ok _ hcache.backs a b route hroute
        refine ⟨cache, ⟨fun _ _ h => h, hcache, fun x hx => hcache.lookup_of_read (hread x hx)⟩, ?_⟩
        intro fuel hfuel
        obtain ⟨fuel, rfl⟩ := Nat.exists_eq_succ_of_ne_zero (Nat.ne_zero_of_lt hfuel)
        simp only [runRecursiveTreeRoute, hroute]
    | error err =>
        -- A block `x` of the route was missing. Its header is fetched, and the call starts over.
        obtain ⟨x, hx, hread⟩ := hlaw.treeRoute_error _ hcache.backs a b err hroute
        obtain ⟨hmissing, rfl⟩ := hcache.missing hread
        obtain ⟨cache₁, hadd, hdata⟩ := cache.addHeader_eq env x.header (hlaw.transcodeDigest_eq _)
        rw [x.headerHash_header] at hadd hdata
        obtain ⟨cache₂, hadd₂, hcache₁⟩ := hcache.addHeader hlaw (b := x) trivial
        rw [hadd] at hadd₂
        cases hadd₂
        have hlt := card_missingOn_lt hx hmissing hdata
        rw [hcount] at hlt
        obtain ⟨cache', hrefetched, hrun⟩ := ih _ hlt cache₁ hcache₁ rfl
        refine ⟨cache', ⟨fun hash header h => ?_, hrefetched.within, hrefetched.route⟩, ?_⟩
        · exact hrefetched.grows hash header
            (HeadersMetadataCache.Grows.insert hmissing hdata hash header h)
        · intro fuel hfuel
          obtain ⟨fuel, rfl⟩ := Nat.exists_eq_succ_of_ne_zero (Nat.ne_zero_of_lt hfuel)
          simp only [runRecursiveTreeRoute, hroute, BlockTree.chainGetHeader, x.header_hash,
            okOrMissingBlock, hadd]
          exact hrun fuel (by omega)

/-- `recursive_tree_route` does not depend on the cache, and ends. Take a header
store, a node that answers from it, two blocks of the store, and a cache with any of
its headers. Then there is a bound on the number of calls beyond which the recursion
gives, with one and the same cache, the route of `tree_route` on the whole store. The
cache holds what it held before, only headers of the store, and the header of every
block of the route. -/
theorem recursiveTreeRoute_independent_of_cache (hlaw : env.Lawful T)
    (cache : HeadersMetadataCache) (hcache : cache.Within (fun _ : T.Block => True))
    (a b : T.Block) :
    ∃ bound cache' route,
      (∀ fuel, bound < fuel →
        runRecursiveTreeRoute env T.chainGetHeader fuel cache a.hash b.hash =
          some (.ok route, cache')) ∧
      env.treeRoute T.headerMetadata a.hash b.hash = .ok route ∧
      cache.Grows cache' ∧ cache'.Within (fun _ : T.Block => True) ∧
      (∀ x, T.OnRoute a b x → cache'.getHeader x.hash = .ok x.header) ∧
      ∀ hashAndNumber ∈ route.enacted,
        ∃ blockExt, getBlockExt cache' hashAndNumber.hash = .ok blockExt := by
  obtain ⟨cache', hrefetched, hrun⟩ := exists_runRecursiveTreeRoute hlaw a b _ cache hcache rfl
  have hget : ∀ x, T.OnRoute a b x → cache'.getHeader x.hash = .ok x.header := by
    intro x hx
    rw [HeadersMetadataCache.getHeader, hrefetched.route x hx]
  refine ⟨_, cache', T.route a b, hrun, treeRoute_headerMetadata hlaw a b, hrefetched.grows,
    hrefetched.within, hget, ?_⟩
  intro hashAndNumber hmem
  obtain ⟨x, hx, rfl⟩ := List.mem_map.mp hmem
  have hheader : cache'.getHeader x.hashAndNumber.hash = .ok x.header :=
    hget x (onRoute_of_mem_branch hx)
  exact ⟨_, by rw [getBlockExt, hheader]; rfl⟩

/-- From block `6` of the fork to block `7`, with an empty cache: the two blocks of the
one branch are retracted, and the three of the other enacted. -/
theorem recursiveTreeRoute_independent_of_cache_fork :
    ∃ bound cache',
      ∀ fuel, bound < fuel →
        runRecursiveTreeRoute walkExternals forkTree.chainGetHeader fuel .empty 6 7 =
          some (.ok { retracted := [⟨3, 6⟩, ⟨2, 4⟩], commonBlock := ⟨1, 2⟩
                      enacted := [⟨2, 3⟩, ⟨3, 5⟩, ⟨4, 7⟩] }, cache') := by
  have hempty : HeadersMetadataCache.empty.Within (fun _ : forkTree.Block => True) := by
    intro hash header h
    simp [HeadersMetadataCache.empty] at h
  obtain ⟨bound, cache', route, hrun, hroute, -⟩ :=
    recursiveTreeRoute_independent_of_cache forkTree_lawful .empty hempty (forkBlock 6) (forkBlock 7)
  refine ⟨bound, cache', fun fuel hfuel => ?_⟩
  have hvalue : walkExternals.treeRoute forkTree.headerMetadata (forkBlock 6).hash (forkBlock 7).hash =
      .ok { retracted := [⟨3, 6⟩, ⟨2, 4⟩], commonBlock := ⟨1, 2⟩
            enacted := [⟨2, 3⟩, ⟨3, 5⟩, ⟨4, 7⟩] } := by
    rfl
  rw [hvalue, Except.ok.injEq] at hroute
  rw [hroute]
  exact hrun fuel hfuel

/-! ### The listener makes the call step by step -/

namespace Listener

/-- The end of a round does not depend on where the task waited, so a route found at
once and one found after fetches are enacted alike. -/
theorem enact_phase (l : Listener) (phase : Phase) (best : HashAndNumber) (block : SubxtBlock)
    (route : TreeRoute) :
    ({ l with phase := phase } : Listener).enact best block route = l.enact best block route := by
  unfold enact
  dsimp only
  split
  · rfl
  · split
    · rfl
    · split
      · rename_i err _
        cases err <;> rfl
      · split <;> rfl

/-- A call that ends with a route is a run of the listener: one reply for each header
that was missing, and then the round goes on with the route and the cache. -/
theorem run_recursiveTreeRoute {chainGetHeader : BlockHash → Except SubxtRpcsError (Option Header)}
    {best : HashAndNumber} {block : SubxtBlock} {route : TreeRoute} {cache' : HeadersMetadataCache}
    (fuel : Nat) :
    ∀ l : Listener, runRecursiveTreeRoute env chainGetHeader fuel l.headerMetadata best.hash
        block.hash = some (.ok route, cache') →
      ∃ hashes : List BlockHash,
        run (step env) (l.recursiveTreeRoute env best block)
          (hashes.map fun hash => .header (chainGetHeader hash)) =
            some ({ l with headerMetadata := cache' }.enact best block route) := by
  induction fuel with
  | zero => intro l h; cases h
  | succ fuel ih =>
      intro l h
      rw [runRecursiveTreeRoute] at h
      split at h
      · rename_i treeRoute hroute
        cases h
        exact ⟨[], by rw [recursiveTreeRoute_of_ok l hroute]; rfl⟩
      · rename_i hash hroute
        split at h
        · cases h
        · rename_i header hanswer
          split at h
          · cases h
          · rename_i added cache hadd
            -- The listener after the reply, before it calls `tree_route` again.
            let l₁ : Listener :=
              { l with headerMetadata := cache, phase := .listenRoute best block hash }
            obtain ⟨hashes, hrun⟩ := ih l₁ h
            refine ⟨hash :: hashes, ?_⟩
            rw [List.map_cons, run_cons_eq_some]
            refine ⟨l₁.recursiveTreeRoute env best block, ?_, ?_⟩
            · rw [recursiveTreeRoute_of_missing l hroute]
              simp only [step, hanswer, receiveHeader, hadd]
              rfl
            · rw [hrun, ← enact_phase { l with headerMetadata := cache' }
                (.listenRoute best block hash)]
      · cases h

end Listener

end ChainAlerter
