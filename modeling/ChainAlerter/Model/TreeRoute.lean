import ChainAlerter.Model.BlockTree

/-!
# `ChainAlerter.Model.TreeRoute`: what is assumed of `sp_blockchain::tree_route`

`tree_route` is not part of the repository, so the model takes it as a
parameter. `Externals.Lawful` states what the alerter relies on. Over a backend
that knows some of the blocks of a tree, `tree_route` walks the parents from
both ends to the lowest common ancestor:

* when it succeeds, it has read every block of the route, and the result is the
  route through the lowest common ancestor;
* when it fails, the error is the one the backend gave for a block of the route.

`walkTreeRoute` is such a walk, written over the backend alone, and
`walkTreeRoute_lawful` shows that it meets the assumptions for every tree. So
the assumptions are satisfiable, and the runs on concrete trees use it.
-/

set_option autoImplicit false

namespace ChainAlerter

open ChainAlerter.Library

variable {env : Externals}

/-- The backend answers each block of the tree with its metadata, or reports that the
block is missing. -/
def BlockTree.Backs (T : BlockTree env)
    (backend : BlockHash → Except Error CachedHeaderMetadata) : Prop :=
  ∀ b : T.Block, backend b.hash = .ok b.metadata ∨
    backend b.hash = .error (.missingBlockHashFromCache b.hash)

/-- What the alerter relies on in the code it calls.

- `transcodeDigest_eq`: the two digest types have one SCALE layout, so decoding an
  encoded digest gives it back;
- `treeRoute_ok`: a result is the route through the lowest common ancestor, and every
  block of the route was read;
- `treeRoute_error`: an error is the backend's, for a block of the route. -/
structure Externals.Lawful (env : Externals) (T : BlockTree env) : Prop where
  transcodeDigest_eq : ∀ digest, env.transcodeDigest digest = some digest
  treeRoute_ok : ∀ backend, T.Backs backend → ∀ (a b : T.Block) route,
    env.treeRoute backend a.hash b.hash = .ok route →
      route = T.route a b ∧ ∀ x, T.OnRoute a b x → backend x.hash = .ok x.metadata
  treeRoute_error : ∀ backend, T.Backs backend → ∀ (a b : T.Block) err,
    env.treeRoute backend a.hash b.hash = .error err →
      ∃ x, T.OnRoute a b x ∧ backend x.hash = .error err

/-! ### A walk that meets the assumptions -/

/-- The entry of a route for the block with this metadata. -/
def CachedHeaderMetadata.hashAndNumber (md : CachedHeaderMetadata) : HashAndNumber :=
  { number := md.number, hash := md.hash }

/-- The walk from both ends. The higher end goes down first. At one height both go
down, until they meet. `retracted` and `enacted` are the blocks passed so far,
from low to high. -/
def walk (backend : BlockHash → Except Error CachedHeaderMetadata) :
    Nat → CachedHeaderMetadata → CachedHeaderMetadata →
    List HashAndNumber → List HashAndNumber → Except Error TreeRoute
  | 0, _, _, _, _ => .error (.app "tree route too long")
  | fuel + 1, a, b, retracted, enacted =>
      if a.number < b.number then do
        let parent ← backend b.parent
        walk backend fuel a parent retracted (b.hashAndNumber :: enacted)
      else if b.number < a.number then do
        let parent ← backend a.parent
        walk backend fuel parent b (a.hashAndNumber :: retracted) enacted
      else if a.hash = b.hash then
        .ok { retracted := retracted.reverse, commonBlock := b.hashAndNumber, enacted := enacted }
      else do
        let bParent ← backend b.parent
        let aParent ← backend a.parent
        walk backend fuel aParent bParent (a.hashAndNumber :: retracted)
          (b.hashAndNumber :: enacted)

/-- The whole walk. Each round lowers one of the two numbers, which bounds the rounds. -/
def walkTreeRoute (backend : BlockHash → Except Error CachedHeaderMetadata)
    (start finish : BlockHash) : Except Error TreeRoute := do
  let a ← backend start
  let b ← backend finish
  walk backend (a.number + b.number + 1) a b [] []

section Walk
variable {T : BlockTree env} {backend : BlockHash → Except Error CachedHeaderMetadata}

/-- What the walk from `a₀` to `b₀` may end with. -/
def RouteOutcome (T : BlockTree env) (backend : BlockHash → Except Error CachedHeaderMetadata)
    (a₀ b₀ : T.Block) : Except Error TreeRoute → Prop
  | .ok route => route = T.route a₀ b₀ ∧
      ∀ x, T.OnRoute a₀ b₀ x → backend x.hash = .ok x.metadata
  | .error err => ∃ x, T.OnRoute a₀ b₀ x ∧ backend x.hash = .error err

/-- A step of the walk that reads a block of the route: the backend's error ends it, and
otherwise it goes on from the block's metadata. -/
theorem routeOutcome_bind (hback : T.Backs backend) {a₀ b₀ x : T.Block} {hash : BlockHash}
    (hhash : hash = x.hash) (hx : T.OnRoute a₀ b₀ x)
    {next : CachedHeaderMetadata → Except Error TreeRoute}
    (hnext : backend x.hash = .ok x.metadata → RouteOutcome T backend a₀ b₀ (next x.metadata)) :
    RouteOutcome T backend a₀ b₀ (backend hash >>= next) := by
  subst hhash
  rcases hback x with hok | herr
  · rw [hok]
    exact hnext hok
  · rw [herr]
    exact ⟨x, hx, herr⟩

/-- How far the walk from `a₀` has come: it stands at `a`, and has read every block
from there up. -/
structure WalkedTo (T : BlockTree env) (backend : BlockHash → Except Error CachedHeaderMetadata)
    (a₀ a : T.Block) : Prop where
  isAncestor : T.tree.IsAncestor a a₀
  read : ∀ x, T.tree.IsAncestor x a₀ → a.number ≤ x.number → backend x.hash = .ok x.metadata

/-- The walk starts at `a₀`, and has read that block alone. -/
theorem WalkedTo.start {a₀ : T.Block} (hread : backend a₀.hash = .ok a₀.metadata) :
    WalkedTo T backend a₀ a₀ := by
  refine ⟨ParentTree.IsAncestor.refl _ _, fun x hx hle => ?_⟩
  have hx₀ : x = a₀ := hx.eq_of_height_eq (ParentTree.IsAncestor.refl _ _)
    (Nat.le_antisymm hx.height_le hle)
  rw [hx₀, hread]

/-- One step down. The walk has read the block's parent, and everything above it
was read before. -/
theorem WalkedTo.parent {a₀ a : T.Block} (h : WalkedTo T backend a₀ a)
    (hread : backend a.parent.hash = .ok a.parent.metadata) :
    WalkedTo T backend a₀ a.parent := by
  have hparent : T.tree.IsAncestor a.parent a₀ := (T.tree.isAncestor_parent a).trans h.isAncestor
  refine ⟨hparent, fun x hx hle => ?_⟩
  rcases Nat.lt_or_ge x.number a.number with hlt | hge
  · have hnum := a.number_parent
    have hx₀ : x = a.parent := hx.eq_of_height_eq hparent (by
      show x.number = a.parent.number
      omega)
    rw [hx₀, hread]
  · exact h.read x hx hge

/-- The blocks passed so far, one step further down. -/
theorem segment_parent_map {a₀ a : T.Block} (h : T.tree.IsAncestor a a₀) (hpos : a.number ≠ 0) :
    a.hashAndNumber :: (T.tree.segment a.number a₀).map BlockTree.Block.hashAndNumber
      = (T.tree.segment a.parent.number a₀).map BlockTree.Block.hashAndNumber := by
  have hseg := ParentTree.segment_height_parent h hpos
  rw [BlockTree.tree_parent, BlockTree.tree_height] at hseg
  rw [hseg]
  rfl

/-- Where the two ways have met, the route is complete. They meet at the lowest common
ancestor, and the blocks of the two ways are its two sides. -/
theorem routeOutcome_met {a₀ b₀ a : T.Block} (ha : WalkedTo T backend a₀ a)
    (hb : WalkedTo T backend b₀ a) (hlca : T.tree.lca a₀ b₀ = a) :
    RouteOutcome T backend a₀ b₀
      (.ok { retracted := ((T.tree.segment a.number a₀).map BlockTree.Block.hashAndNumber).reverse
             commonBlock := a.hashAndNumber
             enacted := (T.tree.segment a.number b₀).map BlockTree.Block.hashAndNumber }) := by
  have hlca' : T.tree.lca b₀ a₀ = a := by rw [ParentTree.lca_comm, hlca]
  refine ⟨?_, ?_⟩
  · simp only [BlockTree.route, ParentTree.branch, hlca, hlca', BlockTree.tree_height]
  · rintro x ⟨hx, hcommon⟩
    rw [hlca] at hcommon
    rcases hx with hxa | hxb
    · exact ha.read x hxa hcommon.height_le
    · exact hb.read x hxb hcommon.height_le

/-- A block above the meeting point has its parent on the route. -/
theorem onRoute_parent_right {a₀ b₀ a b : T.Block} (hb : T.tree.IsAncestor b b₀)
    (hlca : T.tree.lca a b = T.tree.lca a₀ b₀) (hab : ¬ T.tree.IsAncestor b a) :
    T.OnRoute a₀ b₀ b.parent := by
  refine ⟨Or.inr ((T.tree.isAncestor_parent b).trans hb), ?_⟩
  rw [← hlca, ← ParentTree.lca_parent_right hab]
  exact ParentTree.lca_isAncestor_right _ _

/-- The same for the other end. The lowest common ancestor does not depend on the
order of the two. -/
theorem onRoute_parent_left {a₀ b₀ a b : T.Block} (ha : T.tree.IsAncestor a a₀)
    (hlca : T.tree.lca a b = T.tree.lca a₀ b₀) (hab : ¬ T.tree.IsAncestor a b) :
    T.OnRoute a₀ b₀ a.parent := by
  refine ⟨Or.inl ((T.tree.isAncestor_parent a).trans ha), ?_⟩
  rw [← hlca, ParentTree.lca_comm, ← ParentTree.lca_parent_right hab]
  exact ParentTree.lca_isAncestor_right _ _

/-- The walk, from any point it can reach. The induction is on the fuel, which the two
numbers stay below. -/
theorem walk_spec (hback : T.Backs backend) (a₀ b₀ : T.Block) :
    ∀ (fuel : Nat) (a b : T.Block), a.number + b.number < fuel →
      WalkedTo T backend a₀ a → WalkedTo T backend b₀ b →
      T.tree.lca a b = T.tree.lca a₀ b₀ →
      RouteOutcome T backend a₀ b₀
        (walk backend fuel a.metadata b.metadata
          ((T.tree.segment a.number a₀).map BlockTree.Block.hashAndNumber)
          ((T.tree.segment b.number b₀).map BlockTree.Block.hashAndNumber)) := by
  intro fuel
  induction fuel with
  | zero => intro a b hfuel; omega
  | succ fuel ih =>
      intro a b hfuel ha hb hlca
      have hanum := a.number_parent
      have hbnum := b.number_parent
      rw [walk]
      split
      · -- `b` is higher: it is not an ancestor of `a`, and goes down.
        rename_i hlt
        change a.number < b.number at hlt
        have hba : ¬ T.tree.IsAncestor b a := fun h => by
          have hle : b.number ≤ a.number := h.height_le
          omega
        refine routeOutcome_bind hback (BlockTree.Block.hash_parent (b := b) (by omega)).symm
          (onRoute_parent_right hb.isAncestor hlca hba) fun hread => ?_
        have hrec := ih a b.parent (by omega) ha (hb.parent hread)
          (by rw [← hlca]; exact ParentTree.lca_parent_right hba)
        rw [← segment_parent_map hb.isAncestor (by omega)] at hrec
        exact hrec
      · split
        · rename_i hlt
          change b.number < a.number at hlt
          have hab : ¬ T.tree.IsAncestor a b := fun h => by
            have hle : a.number ≤ b.number := h.height_le
            omega
          refine routeOutcome_bind hback (BlockTree.Block.hash_parent (b := a) (by omega)).symm
            (onRoute_parent_left ha.isAncestor hlca hab) fun hread => ?_
          have hrec := ih a.parent b (by omega) (ha.parent hread) hb (by
            rw [← hlca, ParentTree.lca_comm, ParentTree.lca_comm a b]
            exact ParentTree.lca_parent_right hab)
          rw [← segment_parent_map ha.isAncestor (by omega)] at hrec
          exact hrec
        · rename_i hnlt hngt
          change ¬ a.number < b.number at hnlt
          change ¬ b.number < a.number at hngt
          have hnum : a.number = b.number := by omega
          split
          · -- The two ways have met.
            rename_i hhash
            have hab : a = b := BlockTree.Block.eq_of_hash_eq hhash
            subst hab
            have hmet : T.tree.lca a₀ b₀ = a := by
              rw [← hlca, ParentTree.lca_eq_left_iff]
              exact ParentTree.IsAncestor.refl _ _
            exact routeOutcome_met ha hb hmet
          · -- Two blocks of one height: neither is an ancestor of the other.
            rename_i hhash
            have hne : a ≠ b := fun h => hhash (congrArg BlockTree.Block.hash h)
            have hba : ¬ T.tree.IsAncestor b a := fun h => hne
              (h.eq_of_height_eq (ParentTree.IsAncestor.refl _ _) hnum.symm).symm
            have hab : ¬ T.tree.IsAncestor a b := fun h => hne
              (h.eq_of_height_eq (ParentTree.IsAncestor.refl _ _) hnum)
            have hpos : a.number ≠ 0 := fun h0 => hne
              (T.tree.eq_of_height_eq_zero a b h0 (hnum.symm.trans h0))
            refine routeOutcome_bind hback
              (BlockTree.Block.hash_parent (b := b) (by omega)).symm
              (onRoute_parent_right hb.isAncestor hlca hba) fun hreadb => ?_
            refine routeOutcome_bind hback
              (BlockTree.Block.hash_parent (b := a) hpos).symm
              (onRoute_parent_left ha.isAncestor hlca hab) fun hreada => ?_
            have hbelow : ¬ T.tree.IsAncestor a b.parent := fun h => hab
              (h.trans (T.tree.isAncestor_parent b))
            have hrec := ih a.parent b.parent (by omega) (ha.parent hreada)
              (hb.parent hreadb) (by
                rw [← hlca, ← ParentTree.lca_parent_right hba, ParentTree.lca_comm,
                  ParentTree.lca_comm a]
                exact ParentTree.lca_parent_right hbelow)
            rw [← segment_parent_map ha.isAncestor hpos,
              ← segment_parent_map hb.isAncestor (by omega)] at hrec
            exact hrec

end Walk

/-- The walk from both ends meets what is assumed of `tree_route`, over every tree. So
the assumptions can be met, and the witnesses run with this walk. -/
theorem walkTreeRoute_lawful (T : BlockTree env)
    (hdigest : ∀ digest, env.transcodeDigest digest = some digest)
    (hroute : env.treeRoute = walkTreeRoute) : env.Lawful T := by
  have hspec : ∀ backend, T.Backs backend → ∀ a b : T.Block,
      RouteOutcome T backend a b (env.treeRoute backend a.hash b.hash) := by
    intro backend hback a b
    rw [hroute]
    refine routeOutcome_bind hback rfl
      ⟨Or.inl (ParentTree.IsAncestor.refl _ _), ParentTree.lca_isAncestor_left _ _⟩ fun ha => ?_
    refine routeOutcome_bind hback rfl
      ⟨Or.inr (ParentTree.IsAncestor.refl _ _), ParentTree.lca_isAncestor_right _ _⟩ fun hb => ?_
    have hwalk := walk_spec hback a b (a.number + b.number + 1) a b (Nat.lt_succ_self _)
      (WalkedTo.start ha) (WalkedTo.start hb) rfl
    have hnil : ∀ c : T.Block, T.tree.segment c.number c = [] := fun c => by
      rw [← List.length_eq_zero_iff, ParentTree.length_segment]
      exact Nat.sub_self _
    rw [hnil, hnil] at hwalk
    exact hwalk
  refine ⟨hdigest, fun backend hback a b route h => ?_, fun backend hback a b err h => ?_⟩
  · have hout := hspec backend hback a b
    rw [h] at hout
    exact hout
  · have hout := hspec backend hback a b
    rw [h] at hout
    exact hout

/-! ### A fork to run on -/

/-- Externals with the walk as `tree_route`, and headers whose state root is their hash. -/
def walkExternals : Externals where
  headerHash header := header.stateRoot
  transcodeDigest digest := some digest
  treeRoute := walkTreeRoute

/-- A header of the fork. Its hash is told by the state root. -/
def forkHeader (hash parentHash : BlockHash) (number : Nat) : Header :=
  { parentHash := parentHash, number := number, stateRoot := hash, extrinsicsRoot := 0
    digest := [] }

/-- The genesis block `1`, its child `2`, and above it the forks `3`, `5`, `7` and `4`, `6`. -/
def forkHeaders : List Header :=
  [forkHeader 1 0 0, forkHeader 2 1 1, forkHeader 3 2 2, forkHeader 4 2 2, forkHeader 5 3 3,
   forkHeader 6 4 3, forkHeader 7 5 4]

/-- The tree of the headers of the fork. -/
def forkTree : BlockTree walkExternals :=
  BlockTree.ofHeaders walkExternals forkHeaders (by decide)

/-- The walk meets what is assumed of `tree_route` on this tree, so every result with
that assumption applies to it. -/
theorem forkTree_lawful : walkExternals.Lawful forkTree :=
  walkTreeRoute_lawful forkTree (fun _ => rfl) rfl

/-- The block of the fork under a hash, the genesis block for a hash it does not have. -/
def forkBlock (hash : BlockHash) : forkTree.Block :=
  if h : (forkTree.header hash).isSome = true then ⟨hash, h⟩ else ⟨1, by decide⟩

end ChainAlerter
