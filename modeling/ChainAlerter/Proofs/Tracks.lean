import ChainAlerter.Abstract.Tracker
import ChainAlerter.Library.Passes
import ChainAlerter.Model.Listener
import ChainAlerter.Model.TreeRoute

/-!
# `ChainAlerter.Proofs.Tracks`: the listener refines the tracker

`Listener.Tracks` relates a state of the block listener to a state of the
tracker over the blocks of a tree. It also carries what the listener's proofs
need of the data: every cached header is a header of the tree, and so is every
block that a phase holds. The relation has no case for a panic, and none for the
error of a hash missing from the cache, so a listener that tracks has neither.

`Means` says which replies a header store `S` of the tree can give, and which
act of the tracker each one is. Nothing ties the answers to the canonical checks
to any chain.

`step_tracks` is the refinement: a reply of the store takes a listener that
tracks to one that tracks, along a step of the tracker, and the messages sent
are the broadcasts of the tracker's move. Every result on the listener's
messages goes through it.
-/

set_option autoImplicit false

namespace ChainAlerter

open ChainAlerter.Library
open ChainAlerter.Abstract

variable {env : Externals} {T : BlockTree env}

/-! ### The relation -/

/-- The header is that of a block of `S`, and is stored under the block's hash. -/
def StoredIn (S : T.Block → Prop) (hash : BlockHash) (header : Header) : Prop :=
  ∃ b : T.Block, S b ∧ b.hash = hash ∧ b.header = header

/-- Every cached header is the header of a block of `S`. -/
def HeadersMetadataCache.Within (S : T.Block → Prop) (cache : HeadersMetadataCache) : Prop :=
  ∀ hash header, cache.blockHeaderData.lookup hash = some header → StoredIn S hash header

/-- The errors that end `listen_for_all_blocks` never name a hash missing from the cache. -/
def Error.FromOutside : Error → Prop
  | .missingBlockHashFromCache _ => False
  | _ => True

/-- A loaded header is the header of a block of `S`. -/
def LoadSlot.Within (S : T.Block → Prop) : LoadSlot → Prop
  | .done (.ok hd) => ∃ b : T.Block, S b ∧ b.header = hd
  | .done (.error err) => err.FromOutside
  | _ => True

/-- The phase of the listener for each state of the tracker. -/
inductive Phase.Shows (S : T.Block → Prop) : Phase → Tracker T.Block → Prop where
  | subscribe : Phase.Shows S .subscribe .detached
  | loadNext : Phase.Shows S .loadNext .waiting
  | loadCanonical (b : T.Block) (hb : S b) : Phase.Shows S (.loadCanonical b.item) (.checking b)
  | loadHead (b : T.Block) (hb : S b) : Phase.Shows S (.loadHead b.hash) (.starting b)
  | loadRange (b : T.Block) (hb : S b) (slots : List LoadSlot)
      (hslots : ∀ slot ∈ slots, slot.Within S) :
      Phase.Shows S (.loadRange b.hashAndNumber slots) (.starting b)
  | listenNext (a : T.Block) (ha : S a) : Phase.Shows S (.listenNext a.hashAndNumber) (.following a)
  | listenCanonical (a b : T.Block) (ha : S a) (hb : S b) :
      Phase.Shows S (.listenCanonical a.hashAndNumber b.item) (.verifying a b)
  | listenRoute (a b x : T.Block) (ha : S a) (hb : S b) (hx : T.OnRoute a b x) :
      Phase.Shows S (.listenRoute a.hashAndNumber b.item x.hash) (.routing a b)
  | returned (err : Error) (herr : err.FromOutside) : Phase.Shows S (.returned err) .stopped

/-- The listener is at the state `s` of the tracker, and knows only blocks of `S`. -/
structure Listener.Tracks (S : T.Block → Prop) (l : Listener) (s : Tracker T.Block) : Prop where
  cache : l.headerMetadata.Within S
  phase : l.phase.Shows S s

/-- The replies that a store of the blocks of `S` can give, with their acts. The
items of the subscription and the headers are blocks of `S`. The answers to the hash
queries are free. -/
inductive Means (S : T.Block → Prop) : Phase → Reply → Act T.Block → Prop where
  | subscribed (p : Phase) : Means S p (.subscribed (.ok ())) .internal
  | notSubscribed (p : Phase) (err : SubxtError) : Means S p (.subscribed (.error err)) .lost
  | block (p : Phase) (b : T.Block) (hb : S b) : Means S p (.next (some (.ok b.item))) (.receive b)
  | noBlock (p : Phase) : Means S p (.next none) .missing
  | blockLost (p : Phase) (err : SubxtError) : Means S p (.next (some (.error err))) .lost
  | loadVerdict (block : SubxtBlock) (hash : BlockHash) :
      Means S (.loadCanonical block) (.blockHash (.ok (some hash)))
        (.verdict (decide (block.hash = hash)))
  | listenVerdict (best : HashAndNumber) (block : SubxtBlock) (hash : BlockHash) :
      Means S (.listenCanonical best block) (.blockHash (.ok (some hash)))
        (.verdict (decide (block.hash = hash)))
  | noHash (p : Phase) : Means S p (.blockHash (.ok none)) .missing
  | hashLost (p : Phase) (err : SubxtRpcsError) : Means S p (.blockHash (.error err)) .lost
  | loadHeader (hash : BlockHash) (b : T.Block) (hb : S b) (hhash : b.hash = hash) :
      Means S (.loadHead hash) (.header (.ok (some b.header))) .internal
  | routeHeader (best : HashAndNumber) (block : SubxtBlock) (hash : BlockHash) (b : T.Block)
      (hb : S b) (hhash : b.hash = hash) :
      Means S (.listenRoute best block hash) (.header (.ok (some b.header))) .internal
  | noHeader (p : Phase) : Means S p (.header (.ok none)) .missing
  | headerLost (p : Phase) (err : SubxtRpcsError) : Means S p (.header (.error err)) .lost
  | slotHash (p : Phase) (slot : Nat) (answer : Except SubxtRpcsError (Option BlockHash)) :
      Means S p (.slotBlockHash slot answer) .internal
  | slotHeader (p : Phase) (slot : Nat) (b : T.Block) (hb : S b) :
      Means S p (.slotHeader slot (.ok (some b.header))) .internal
  | noSlotHeader (p : Phase) (slot : Nat) : Means S p (.slotHeader slot (.ok none)) .internal
  | slotHeaderLost (p : Phase) (slot : Nat) (err : SubxtRpcsError) :
      Means S p (.slotHeader slot (.error err)) .internal

/-- A reply that the listener takes is one that a store of the blocks of `S` can give. -/
def FromStore (S : T.Block → Prop) (l : Listener) (reply : Reply) : Prop :=
  ∀ l', l.step env reply = some l' → ∃ act, Means S l.phase reply act

/-- The broadcasts of a move of the tracker. -/
def moveBroadcast (T : BlockTree env) (move : Option (T.Block × T.Block)) : List BlocksExt :=
  move.toList.map (fun m => T.broadcast m.1 m.2)

/-- The listener goes from `l` to `l'` as the tracker does from `s` on `act`, and sends
what the tracker's move broadcasts. -/
def StepsTo (S : T.Block → Prop) (l l' : Listener) (s : Tracker T.Block) (act : Act T.Block) :
    Prop :=
  ∃ move s', Tracker.Step T.tree s act move s' ∧ l'.Tracks S s' ∧
    l'.sent = l.sent ++ moveBroadcast T move

section Relation
variable {S : T.Block → Prop}

/-- A phase has the current best block of its tracker, so the results about trackers are
about the best block of the source. -/
theorem Phase.Shows.currentBestBlock {p : Phase} {s : Tracker T.Block} (h : p.Shows S s) :
    p.currentBestBlock = s.best.map BlockTree.Block.hashAndNumber := by
  cases h <;> rfl

/-- The current best block of a listener that tracks is the tracker's. -/
theorem Listener.Tracks.currentBestBlock {l : Listener} {s : Tracker T.Block}
    (h : l.Tracks S s) :
    l.currentBestBlock = s.best.map BlockTree.Block.hashAndNumber := h.phase.currentBestBlock

/-- A listener that tracks has not panicked. -/
theorem Listener.Tracks.not_panicked {l : Listener} {s : Tracker T.Block}
    (h : l.Tracks S s) : l.phase ≠ .panicked := by
  intro hp
  have hphase := h.phase
  rw [hp] at hphase
  cases hphase

/-- A listener that tracks has not returned the error of a hash missing from the cache. -/
theorem Listener.Tracks.not_missingFromCache {l : Listener} {s : Tracker T.Block}
    (h : l.Tracks S s) (hash : BlockHash) :
    l.phase ≠ .returned (.missingBlockHashFromCache hash) := by
  intro hp
  have hphase := h.phase
  rw [hp] at hphase
  cases hphase with
  | returned err herr => exact herr

/-- A header of a block of the store stays one when the store grows. -/
theorem LoadSlot.Within.mono {S' : T.Block → Prop} (hsub : ∀ b, S b → S' b) {slot : LoadSlot}
    (h : slot.Within S) : slot.Within S' := by
  cases slot with
  | blockHash => trivial
  | header => trivial
  | done result =>
      cases result with
      | error err => exact h
      | ok hd =>
          obtain ⟨b, hb, hheader⟩ := h
          exact ⟨b, hsub b hb, hheader⟩

/-- A phase still shows its tracker when the store grows. Imports of the node between
two replies are harmless by this. -/
theorem Phase.Shows.mono {S' : T.Block → Prop} (hsub : ∀ b, S b → S' b) {p : Phase}
    {s : Tracker T.Block} (h : p.Shows S s) : p.Shows S' s := by
  cases h with
  | subscribe => exact .subscribe
  | loadNext => exact .loadNext
  | loadCanonical b hb => exact .loadCanonical b (hsub b hb)
  | loadHead b hb => exact .loadHead b (hsub b hb)
  | loadRange b hb slots hslots =>
      exact .loadRange b (hsub b hb) slots fun slot hslot => (hslots slot hslot).mono hsub
  | listenNext a ha => exact .listenNext a (hsub a ha)
  | listenCanonical a b ha hb => exact .listenCanonical a b (hsub a ha) (hsub b hb)
  | listenRoute a b x ha hb hx => exact .listenRoute a b x (hsub a ha) (hsub b hb) hx
  | returned err herr => exact .returned err herr

/-- The relation allows for more blocks. -/
theorem Listener.Tracks.mono {S' : T.Block → Prop} (hsub : ∀ b, S b → S' b) {l : Listener}
    {s : Tracker T.Block} (h : l.Tracks S s) : l.Tracks S' s := by
  refine ⟨fun hash header hl => ?_, h.phase.mono hsub⟩
  obtain ⟨b, hb, hhash, hheader⟩ := h.cache hash header hl
  exact ⟨b, hsub b hb, hhash, hheader⟩

/-- The start of `listen_for_all_blocks` tracks from the detached state. -/
theorem tracks_init : Listener.init.Tracks S .detached := by
  refine ⟨fun hash header h => ?_, .subscribe⟩
  simp [Listener.init, HeadersMetadataCache.empty] at h

/-- A step without a move. -/
theorem StepsTo.quiet {l l' : Listener} {s s' : Tracker T.Block} {act : Act T.Block}
    (hstep : Tracker.Step T.tree s act none s') (htracks : l'.Tracks S s')
    (hsent : l'.sent = l.sent) : StepsTo S l l' s act :=
  ⟨none, s', hstep, htracks, by simp [hsent, moveBroadcast]⟩

/-! ### The cache -/

/-- Adding the header of a block of `S` never panics, gives the block's hash, and keeps
the cache within `S`. -/
theorem HeadersMetadataCache.Within.addHeader (hlaw : env.Lawful T)
    {cache : HeadersMetadataCache} (hcache : cache.Within S) {b : T.Block} (hb : S b) :
    ∃ cache', cache.addHeader env b.header = some (b.hash, cache') ∧ cache'.Within S := by
  obtain ⟨cache', hadd, hdata⟩ := cache.addHeader_eq env b.header (hlaw.transcodeDigest_eq _)
  rw [b.headerHash_header] at hadd hdata
  refine ⟨cache', hadd, fun hash header hl => ?_⟩
  -- The header found is the one just added, or one from before.
  rw [hdata, HeadersMetadataCache.lookup_insert_eq] at hl
  split at hl
  · rename_i hhash
    exact ⟨b, hb, hhash.symm, Option.some.inj hl⟩
  · exact hcache hash header hl

/-- Adding the headers of blocks of `S` one after the other goes through, as their
digests decode, and the cache stays within `S`. -/
theorem HeadersMetadataCache.Within.addHeaders (hlaw : env.Lawful T) (headers : List Header) :
    ∀ {cache : HeadersMetadataCache}, cache.Within S →
      (∀ header ∈ headers, ∃ b : T.Block, S b ∧ b.header = header) →
      ∃ cache', headers.foldlM
          (fun cache header => (cache.addHeader env header).map Prod.snd) cache = some cache' ∧
        cache'.Within S := by
  induction headers with
  | nil => intro cache hcache _; exact ⟨cache, rfl, hcache⟩
  | cons header headers ih =>
      intro cache hcache hmem
      obtain ⟨b, hb, rfl⟩ := hmem _ List.mem_cons_self
      obtain ⟨cache₁, hadd, hcache₁⟩ := hcache.addHeader hlaw hb
      obtain ⟨cache', hrest, hcache'⟩ := ih hcache₁
        (fun header hheader => hmem header (List.mem_cons_of_mem _ hheader))
      refine ⟨cache', ?_, hcache'⟩
      rw [List.foldlM_cons, hadd]
      exact hrest

/-- Pruning only drops headers, so what is left in the cache are still headers of the store. -/
theorem HeadersMetadataCache.Within.removeHeaderUntil {cache : HeadersMetadataCache}
    (hcache : cache.Within S) (number : Nat) : (cache.removeHeaderUntil number).Within S :=
  fun hash header hl => hcache hash header (cache.lookup_removeHeaderUntil _ _ _ hl)

/-- The cached header of a block of the tree is the block's own. -/
theorem HeadersMetadataCache.Within.lookup_eq {cache : HeadersMetadataCache}
    (hcache : cache.Within S) {b : T.Block} {header : Header}
    (hl : cache.blockHeaderData.lookup b.hash = some header) : header = b.header := by
  obtain ⟨b', -, hhash, hheader⟩ := hcache _ _ hl
  rw [← hheader, BlockTree.Block.eq_of_hash_eq hhash]

/-- `header_metadata` answers as `tree_route` expects: with the metadata of the block,
or with the error that names its hash. -/
theorem HeadersMetadataCache.Within.backs {cache : HeadersMetadataCache}
    (hcache : cache.Within S) : T.Backs (cache.headerMetadata env) := by
  intro b
  unfold HeadersMetadataCache.headerMetadata
  -- The metadata is computed from the cached header, which is the block's own.
  cases hl : cache.blockHeaderData.lookup b.hash with
  | none => exact Or.inr rfl
  | some header =>
      rw [hcache.lookup_eq hl]
      simp [BlockTree.Block.metadata, b.headerHash_header, BlockTree.Block.number]

/-- A block whose metadata `tree_route` has read is cached, so `get_block_ext` finds it.
A round that has its route does not fail at an enacted block. -/
theorem HeadersMetadataCache.Within.getBlockExt_eq {cache : HeadersMetadataCache}
    (hcache : cache.Within S) {b : T.Block}
    (hread : cache.headerMetadata env b.hash = .ok b.metadata) :
    getBlockExt cache b.hash = .ok b.blockExt := by
  unfold getBlockExt HeadersMetadataCache.getHeader
  unfold HeadersMetadataCache.headerMetadata at hread
  cases hl : cache.blockHeaderData.lookup b.hash with
  | none =>
      rw [hl] at hread
      cases hread
  | some header =>
      rw [hcache.lookup_eq hl]
      rfl

/-! ### The round after the canonical check -/

/-- The blocks of the branch to `b` are on the route from `a` to `b`. -/
theorem onRoute_of_mem_branch {a b x : T.Block} (hx : x ∈ T.tree.branch a b) :
    T.OnRoute a b x := by
  obtain ⟨hxb, hxa⟩ := ParentTree.mem_branch.mp hx
  refine ⟨Or.inr hxb, ?_⟩
  rcases hxb.total (ParentTree.lca_isAncestor_right a b) with h | h
  · exact absurd (h.trans (ParentTree.lca_isAncestor_left a b)) hxa
  · exact h

/-- With no block to enact, the round ends where it began. -/
theorem enact_stay (l : Listener) {a b : T.Block} (h : T.tree.IsAncestor b a) :
    l.enact a.hashAndNumber b.item (T.route a b)
      = { l with phase := .listenNext a.hashAndNumber } := by
  have hnil : (T.route a b).enacted = [] := by
    show (T.tree.branch a b).map _ = []
    rw [ParentTree.branch_eq_nil_iff.mpr h]
    rfl
  unfold Listener.enact
  simp [hnil]

/-- With blocks to enact, all of them cached, the round sends the broadcast of the move
and ends at the received block. -/
theorem enact_move (l : Listener) (hcache : l.headerMetadata.Within S) {a b : T.Block}
    (h : ¬ T.tree.IsAncestor b a)
    (hread : ∀ x, T.OnRoute a b x → l.headerMetadata.headerMetadata env x.hash = .ok x.metadata) :
    l.enact a.hashAndNumber b.item (T.route a b)
      = { headerMetadata := l.headerMetadata.removeHeaderUntil (b.number - CACHE_HEADER_DEPTH)
          sent := l.sent ++ [T.broadcast a b]
          phase := .listenNext b.hashAndNumber } := by
  -- `tree_route` has read every block it enacts, so `get_block_ext` finds each of them.
  have hexts : ((T.tree.branch a b).map BlockTree.Block.hashAndNumber).mapM
      (fun hashAndNumber => getBlockExt l.headerMetadata hashAndNumber.hash)
        = .ok ((T.tree.branch a b).map BlockTree.Block.blockExt) := by
    rw [List.mapM_map]
    exact mapM_eq_ok fun x hx => hcache.getBlockExt_eq (hread x (onRoute_of_mem_branch hx))
  -- The block that `enacted.pop()` takes is the received one.
  have hlast : ((T.tree.branch a b).map BlockTree.Block.hashAndNumber).getLast?
      = some b.hashAndNumber := by
    rw [List.getLast?_map, ParentTree.getLast?_branch h]
    rfl
  have hne : T.tree.branch a b ≠ [] := fun hnil => h (ParentTree.branch_eq_nil_iff.mp hnil)
  -- The retracted list is empty exactly when `a` is an ancestor of `b`.
  have hretracted : T.tree.branch b a = [] ↔ T.tree.IsAncestor a b :=
    ParentTree.branch_eq_nil_iff
  unfold Listener.enact
  simp only [BlockTree.route, List.isEmpty_reverse, List.isEmpty_map, List.isEmpty_iff, hne,
    Bool.and_eq_true, false_and, if_false, hexts, hlast, List.reverse_reverse]
  unfold BlockTree.broadcast
  by_cases hab : T.tree.IsAncestor a b
  · rw [if_pos (hretracted.mpr hab), if_pos hab]
    rfl
  · rw [if_neg (fun hnil => hab (hretracted.mp hnil)), if_neg hab]
    rfl

/-- With a route, the rest of the round is `enact` on it. -/
theorem recursiveTreeRoute_of_ok (l : Listener) {best : HashAndNumber} {block : SubxtBlock}
    {route : TreeRoute}
    (h : env.treeRoute (l.headerMetadata.headerMetadata env) best.hash block.hash = .ok route) :
    l.recursiveTreeRoute env best block = l.enact best block route := by
  unfold Listener.recursiveTreeRoute
  rw [h]

/-- With a hash that is missing from the cache, the listener asks the node for its
header, and keeps the two ends of the route to try again. -/
theorem recursiveTreeRoute_of_missing (l : Listener) {best : HashAndNumber} {block : SubxtBlock}
    {hash : BlockHash}
    (h : env.treeRoute (l.headerMetadata.headerMetadata env) best.hash block.hash
      = .error (.missingBlockHashFromCache hash)) :
    l.recursiveTreeRoute env best block = { l with phase := .listenRoute best block hash } := by
  unfold Listener.recursiveTreeRoute
  rw [h]

/-- `recursive_tree_route` and the rest of the round, for two blocks of `S`: the work on
the received block goes on, or settles. -/
theorem recursiveTreeRoute_tracks (hlaw : env.Lawful T) (l : Listener)
    (hcache : l.headerMetadata.Within S) {a b : T.Block} (ha : S a) (hb : S b) :
    ∃ move s', Tracker.Settles T.tree a b move s' ∧
      (l.recursiveTreeRoute env a.hashAndNumber b.item).Tracks S s' ∧
      (l.recursiveTreeRoute env a.hashAndNumber b.item).sent
        = l.sent ++ moveBroadcast T move := by
  cases hroute : env.treeRoute (l.headerMetadata.headerMetadata env) a.hash b.hash with
  | ok route =>
      rw [recursiveTreeRoute_of_ok l hroute]
      -- A route: the round settles by whether there is a block to enact.
      obtain ⟨rfl, hread⟩ := hlaw.treeRoute_ok _ hcache.backs a b route hroute
      by_cases hba : T.tree.IsAncestor b a
      · rw [enact_stay l hba]
        exact ⟨none, _, .stay hba, ⟨hcache, .listenNext a ha⟩, by simp [moveBroadcast]⟩
      · rw [enact_move l hcache hba hread]
        exact ⟨some (a, b), _, .move hba, ⟨hcache.removeHeaderUntil _, .listenNext b hb⟩, rfl⟩
  | error err =>
      obtain ⟨x, hx, herr⟩ := hlaw.treeRoute_error _ hcache.backs a b err hroute
      -- The error is the backend's for a block of the route, so it names that block.
      have hmissing : err = .missingBlockHashFromCache x.hash := by
        rcases hcache.backs x with hok | hmiss
        · rw [hok] at herr
          cases herr
        · rw [hmiss] at herr
          exact (Except.error.inj herr).symm
      subst hmissing
      rw [recursiveTreeRoute_of_missing l hroute]
      exact ⟨none, _, .working, ⟨hcache, .listenRoute a b x ha hb hx⟩, by simp [moveBroadcast]⟩

/-! ### The header load -/

/-- An error of a fetch comes from outside: the request failed, or the node does not
have the block. None of these is the error about a hash missing from the cache. -/
theorem okOrMissingBlock_fromOutside {α : Type} {answer : Except SubxtRpcsError (Option α)}
    {err : Error} (h : okOrMissingBlock answer = .error err) : err.FromOutside := by
  cases answer with
  | error e =>
      cases h
      trivial
  | ok o =>
      cases o with
      | none =>
          cases h
          trivial
      | some a => cases h

/-- What `try_collect` hands out comes from the requests: headers of blocks of `S`, or
an error from outside. -/
theorem tryCollect_within (slots : List LoadSlot) (hslots : ∀ slot ∈ slots, slot.Within S) :
    ∀ result, tryCollect slots = some result →
      match result with
      | .ok headers => ∀ hd ∈ headers, ∃ b : T.Block, S b ∧ b.header = hd
      | .error err => err.FromOutside := by
  induction slots with
  | nil =>
      intro result h
      cases h
      simp
  | cons slot slots ih =>
      intro result h
      have hslot := hslots slot List.mem_cons_self
      have hrest := ih fun slot' hslot' => hslots slot' (List.mem_cons_of_mem _ hslot')
      cases slot with
      | blockHash => cases h
      | header => cases h
      | done res =>
          cases res with
          | error err =>
              cases h
              exact hslot
          | ok hd =>
              simp only [tryCollect, Option.map_eq_some_iff] at h
              obtain ⟨rest, hr, rfl⟩ := h
              have hrest' := hrest rest hr
              cases rest with
              | error err => exact hrest'
              | ok headers =>
                  show ∀ hd' ∈ hd :: headers, _
                  intro hd' hmem
                  rcases List.mem_cons.mp hmem with rfl | hmem
                  · exact hslot
                  · exact hrest' hd' hmem

/-- The header load stays, fails, or hands over the block it was for. To the tracker it
is internal work, which ends with the session on or stopped. -/
theorem loadProgress_tracks (hlaw : env.Lawful T) (l : Listener)
    (hcache : l.headerMetadata.Within S) {b : T.Block} (hb : S b) (slots : List LoadSlot)
    (hslots : ∀ slot ∈ slots, slot.Within S) :
    StepsTo S l (l.loadProgress env b.hashAndNumber slots) (.starting b) .internal := by
  unfold Listener.loadProgress
  have hwithin := tryCollect_within slots hslots
  cases hcollect : tryCollect slots with
  | none => exact .quiet (.prepare b) ⟨hcache, .loadRange b hb slots hslots⟩ rfl
  | some result =>
      have hresult := hwithin result hcollect
      cases result with
      | error err => exact .quiet (.abandon b) ⟨hcache, .returned err hresult⟩ rfl
      | ok headers =>
          obtain ⟨cache', hadd, hcache'⟩ := hcache.addHeaders hlaw headers hresult
          simp only [hadd]
          exact .quiet (.ready b) ⟨hcache', .listenNext b hb⟩ rfl

/-- The requests of the header load, before any answer. -/
theorem loadSlots_within (latestNumber : Nat) :
    ∀ slot ∈ Listener.loadSlots latestNumber, slot.Within S := by
  intro slot hslot
  obtain ⟨number, -, rfl⟩ := List.mem_map.mp hslot
  trivial

/-- An answer to one request of the header load. The other requests stay as they are,
and the load goes on with this one answered. -/
theorem answerSlot_tracks (hlaw : env.Lawful T) (l : Listener)
    (hcache : l.headerMetadata.Within S) {b : T.Block} (hb : S b) (slots : List LoadSlot)
    (hslots : ∀ slot ∈ slots, slot.Within S) (slot : Nat) (answer : LoadSlot → Option LoadSlot)
    (hanswer : ∀ request request', answer request = some request' → request'.Within S)
    {l' : Listener} (hstep : l.answerSlot env b.hashAndNumber slots slot answer = some l') :
    StepsTo S l l' (.starting b) .internal := by
  unfold Listener.answerSlot at hstep
  simp only [Option.bind_eq_bind, Option.bind_eq_some_iff, Option.pure_def,
    Option.some.injEq] at hstep
  obtain ⟨-, -, request, -, request', hrequest', rfl⟩ := hstep
  -- The other requests are as they were.
  refine loadProgress_tracks hlaw l hcache hb _ fun slot' hslot' => ?_
  rcases List.mem_or_eq_of_mem_set hslot' with hmem | rfl
  · exact hslots slot' hmem
  · exact hanswer request _ hrequest'

/-- An answer of `chain_get_block_hash` leaves a request of the load within `S`. -/
theorem answerBlockHash_within (answer : Except SubxtRpcsError (Option BlockHash))
    (request request' : LoadSlot) (h : request.answerBlockHash answer = some request') :
    request'.Within S := by
  cases request with
  | blockHash number =>
      simp only [LoadSlot.answerBlockHash] at h
      cases hok : okOrMissingBlock answer with
      | ok hash =>
          rw [hok] at h
          cases h
          trivial
      | error err =>
          rw [hok] at h
          cases h
          exact okOrMissingBlock_fromOutside hok
  | header hash => cases h
  | done result => cases h

/-- An answer of `chain_get_header` with the header of a block of `S` leaves a request
of the load within `S`. -/
theorem answerHeader_within (answer : Except SubxtRpcsError (Option Header))
    (hanswer : ∀ hd, answer = .ok (some hd) → ∃ b : T.Block, S b ∧ b.header = hd)
    (request request' : LoadSlot) (h : request.answerHeader answer = some request') :
    request'.Within S := by
  cases request with
  | blockHash number => cases h
  | header hash =>
      simp only [LoadSlot.answerHeader, Option.some.injEq] at h
      subst h
      match answer with
      | .error err => trivial
      | .ok none => trivial
      | .ok (some hd) => exact hanswer hd rfl
  | done result => cases h

/-- A lost connection in `listen_for_blocks` ends the session. -/
theorem listenForBlocksReturned_tracks (l : Listener) (hcache : l.headerMetadata.Within S)
    (s : Tracker T.Block) {err : Error} (herr : err.FromOutside) :
    StepsTo S l (l.listenForBlocksReturned err) s .lost := by
  cases err with
  | rpc e => exact .quiet (.detach s) ⟨hcache, .subscribe⟩ rfl
  | _ => exact .quiet (.exit s) ⟨hcache, .returned _ herr⟩ rfl

/-! ### The refinement -/

/-- A received block, in `listen_for_blocks`. -/
theorem receiveBlock_tracks (hlaw : env.Lawful T) (l : Listener)
    (hcache : l.headerMetadata.Within S) {a b : T.Block} (ha : S a) (hb : S b) :
    StepsTo S l (l.receiveBlock env a.hashAndNumber b.item) (.following a) (.receive b) := by
  obtain ⟨cache', hadd, hcache'⟩ := hcache.addHeader hlaw hb
  unfold Listener.receiveBlock
  simp only [BlockTree.Block.item, hadd, if_true]
  exact .quiet (.receive a b) ⟨hcache', .listenCanonical a b ha hb⟩ rfl

/-- A header that `recursive_tree_route` asked for. It is added to the cache, and the
route is computed again, which goes on or settles. -/
theorem receiveHeader_tracks (hlaw : env.Lawful T) (l : Listener)
    (hcache : l.headerMetadata.Within S) {a b x : T.Block} (ha : S a) (hb : S b) (hx : S x) :
    StepsTo S l (l.receiveHeader env a.hashAndNumber b.item x.header) (.routing a b)
      .internal := by
  obtain ⟨cache', hadd, hcache'⟩ := hcache.addHeader hlaw hx
  unfold Listener.receiveHeader
  simp only [hadd]
  obtain ⟨move, s', hsettles, htracks, hsent⟩ := recursiveTreeRoute_tracks hlaw
    { l with headerMetadata := cache' } hcache' ha hb
  exact ⟨move, s', .work a b hsettles, htracks, hsent⟩

/-- With an answer of the node, the check compares the two hashes. -/
theorem isCanonicalBlock_ok (blockHash hash : BlockHash) :
    isCanonicalBlock blockHash (.ok (some hash)) = .ok (decide (blockHash = hash)) := rfl

/-- The canonical check of the first block, answered with the block's hash. -/
theorem step_loadCanonical_of_eq {cache : HeadersMetadataCache} {sent : List BlocksExt}
    {block : SubxtBlock} {hash : BlockHash} (h : block.hash = hash) :
    Listener.step env ⟨cache, sent, .loadCanonical block⟩ (.blockHash (.ok (some hash)))
      = some ⟨cache, sent, .loadHead block.hash⟩ := by
  simp only [Listener.step, isCanonicalBlock_ok, decide_eq_true h]

/-- The canonical check of the first block, answered with another hash. -/
theorem step_loadCanonical_of_ne {cache : HeadersMetadataCache} {sent : List BlocksExt}
    {block : SubxtBlock} {hash : BlockHash} (h : block.hash ≠ hash) :
    Listener.step env ⟨cache, sent, .loadCanonical block⟩ (.blockHash (.ok (some hash)))
      = some ⟨cache, sent, .loadNext⟩ := by
  simp only [Listener.step, isCanonicalBlock_ok, decide_eq_false h]

/-- The canonical check of a received block, answered with the block's hash. -/
theorem step_listenCanonical_of_eq {cache : HeadersMetadataCache} {sent : List BlocksExt}
    {best : HashAndNumber} {block : SubxtBlock} {hash : BlockHash} (h : block.hash = hash) :
    Listener.step env ⟨cache, sent, .listenCanonical best block⟩ (.blockHash (.ok (some hash)))
      = some (Listener.recursiveTreeRoute env ⟨cache, sent, .listenCanonical best block⟩ best
          block) := by
  simp only [Listener.step, isCanonicalBlock_ok, decide_eq_true h]

/-- The canonical check of a received block, answered with another hash. -/
theorem step_listenCanonical_of_ne {cache : HeadersMetadataCache} {sent : List BlocksExt}
    {best : HashAndNumber} {block : SubxtBlock} {hash : BlockHash} (h : block.hash ≠ hash) :
    Listener.step env ⟨cache, sent, .listenCanonical best block⟩ (.blockHash (.ok (some hash)))
      = some ⟨cache, sent, .listenNext best⟩ := by
  simp only [Listener.step, isCanonicalBlock_ok, decide_eq_false h]

/-- One reply of the store is one step of the tracker, and the messages sent are the
broadcasts of its move. -/
theorem step_tracks (hlaw : env.Lawful T) {l l' : Listener} {s : Tracker T.Block}
    {reply : Reply} {act : Act T.Block} (htracks : l.Tracks S s)
    (hmeans : Means S l.phase reply act) (hstep : l.step env reply = some l') :
    StepsTo S l l' s act := by
  obtain ⟨cache, sent, phase⟩ := l
  obtain ⟨hcache, hphase⟩ := htracks
  -- One case for each phase, and in it one for each reply it waits for. A step on any
  -- other reply is `none`.
  cases hphase with
  | subscribe =>
      cases hmeans with
      | subscribed =>
          cases hstep
          exact .quiet .attach ⟨hcache, .loadNext⟩ rfl
      | notSubscribed =>
          cases hstep
          exact .quiet (.exit _) ⟨hcache, .returned _ trivial⟩ rfl
      | _ => cases hstep
  | loadNext =>
      cases hmeans with
      | block _ b hb =>
          cases hstep
          exact .quiet (.receiveFirst b) ⟨hcache, .loadCanonical b hb⟩ rfl
      | noBlock =>
          cases hstep
          exact .quiet (.stop _) ⟨hcache, .returned _ trivial⟩ rfl
      | blockLost =>
          cases hstep
          exact .quiet (.exit _) ⟨hcache, .returned _ trivial⟩ rfl
      | _ => cases hstep
  | loadCanonical b hb =>
      cases hmeans with
      | loadVerdict _ hash =>
          by_cases hhash : b.item.hash = hash
          · rw [step_loadCanonical_of_eq hhash] at hstep
            cases hstep
            rw [decide_eq_true hhash]
            exact .quiet (.acceptFirst b) ⟨hcache, .loadHead b hb⟩ rfl
          · rw [step_loadCanonical_of_ne hhash] at hstep
            cases hstep
            rw [decide_eq_false hhash]
            exact .quiet (.rejectFirst b) ⟨hcache, .loadNext⟩ rfl
      | noHash =>
          cases hstep
          exact .quiet (.stop _) ⟨hcache, .returned _ trivial⟩ rfl
      | hashLost =>
          cases hstep
          exact .quiet (.exit _) ⟨hcache, .returned _ trivial⟩ rfl
      | _ => cases hstep
  | loadHead b hb =>
      cases hmeans with
      | noHeader =>
          cases hstep
          exact .quiet (.stop _) ⟨hcache, .returned _ trivial⟩ rfl
      | headerLost =>
          cases hstep
          exact .quiet (.exit _) ⟨hcache, .returned _ trivial⟩ rfl
      | loadHeader _ x hx hhash =>
          cases hstep
          rw [BlockTree.Block.eq_of_hash_eq hhash]
          exact loadProgress_tracks hlaw _ hcache hb _ (loadSlots_within _)
      | _ => cases hstep
  | loadRange b hb slots hslots =>
      cases hmeans with
      | slotHash _ slot answer =>
          exact answerSlot_tracks hlaw _ hcache hb slots hslots slot _
            (answerBlockHash_within answer) hstep
      | slotHeader _ slot x hx =>
          exact answerSlot_tracks hlaw _ hcache hb slots hslots slot _
            (answerHeader_within _ fun hd h => by cases h; exact ⟨x, hx, rfl⟩) hstep
      | noSlotHeader _ slot =>
          exact answerSlot_tracks hlaw _ hcache hb slots hslots slot _
            (answerHeader_within _ fun hd h => by cases h) hstep
      | slotHeaderLost _ slot err =>
          exact answerSlot_tracks hlaw _ hcache hb slots hslots slot _
            (answerHeader_within _ fun hd h => by cases h) hstep
      | _ => cases hstep
  | listenNext a ha =>
      cases hmeans with
      | block _ b hb =>
          cases hstep
          exact receiveBlock_tracks hlaw _ hcache ha hb
      | noBlock =>
          cases hstep
          exact .quiet (.stop _) ⟨hcache, .returned _ trivial⟩ rfl
      | blockLost =>
          cases hstep
          exact listenForBlocksReturned_tracks _ hcache _ trivial
      | _ => cases hstep
  | listenCanonical a b ha hb =>
      cases hmeans with
      | listenVerdict _ _ hash =>
          by_cases hhash : b.item.hash = hash
          · rw [step_listenCanonical_of_eq hhash] at hstep
            cases hstep
            rw [decide_eq_true hhash]
            obtain ⟨move, s', hsettles, htracks, hsent⟩ :=
              recursiveTreeRoute_tracks hlaw _ hcache ha hb
            exact ⟨move, s', .accept a b hsettles, htracks, hsent⟩
          · rw [step_listenCanonical_of_ne hhash] at hstep
            cases hstep
            rw [decide_eq_false hhash]
            exact .quiet (.reject a b) ⟨hcache, .listenNext a ha⟩ rfl
      | noHash =>
          cases hstep
          exact .quiet (.stop _) ⟨hcache, .returned _ trivial⟩ rfl
      | hashLost =>
          cases hstep
          exact listenForBlocksReturned_tracks _ hcache _ trivial
      | _ => cases hstep
  | listenRoute a b x ha hb hx =>
      cases hmeans with
      | routeHeader _ _ _ y hy =>
          cases hstep
          exact receiveHeader_tracks hlaw _ hcache ha hb hy
      | noHeader =>
          cases hstep
          exact .quiet (.stop _) ⟨hcache, .returned _ trivial⟩ rfl
      | headerLost =>
          cases hstep
          exact listenForBlocksReturned_tracks _ hcache _ trivial
      | _ => cases hstep
  | returned err herr => cases hstep

end Relation

end ChainAlerter
