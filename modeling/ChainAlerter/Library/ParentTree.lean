import Mathlib

/-!
# `ChainAlerter.Library.ParentTree`: rooted trees given by a parent map

A `ParentTree` is a type of nodes with a parent map and a height, where the
parent sits one level below its child and only one node has height `0`. The
root is its own parent, so the parent map is total and its iterates need no
partiality.

* `IsAncestor` is the ancestor-or-self order. Two ancestors of one node are
  comparable (`IsAncestor.total`), which is the one fact about trees that the
  arguments on forks rest on.
* `lca` is the lowest common ancestor, and `isAncestor_lca_iff` is its
  universal property.
* `branch a b` lists, from low to high, the nodes on the way to `b` that are
  not on the way to `a`: the path from the lowest common ancestor, excluded,
  to `b`, included. `mem_branch` is the membership form the proofs use, and
  `isChain_branch` says that the list is linked by the parent map.

No block, header or hash appears here.
-/

set_option autoImplicit false

namespace ChainAlerter.Library

/-- A rooted tree: a parent map and a height that falls by one along it, down to the
single node of height `0`. -/
structure ParentTree (α : Type) where
  parent : α → α
  height : α → Nat
  height_parent : ∀ a, height (parent a) = height a - 1
  eq_of_height_eq_zero : ∀ a b, height a = 0 → height b = 0 → a = b

namespace ParentTree

variable {α : Type} (t : ParentTree α)

/-- The node at height `n` on the way from `b` down to the root. It is meant for `n ≤
t.height b`. Above the height of `b` it is `b` itself. -/
def atHeight (b : α) (n : Nat) : α := t.parent^[t.height b - n] b

/-- `a` is `b` or one of the nodes below it. -/
def IsAncestor (a b : α) : Prop :=
  t.height a ≤ t.height b ∧ t.atHeight b (t.height a) = a

instance [DecidableEq α] (a b : α) : Decidable (t.IsAncestor a b) :=
  inferInstanceAs (Decidable (_ ∧ _))

/-- The nodes on the way to `b` with height above `n`, from low to high. -/
def segment (n : Nat) (b : α) : List α :=
  (List.range' (n + 1) (t.height b - n)).map (t.atHeight b)

/-! ### The nodes below a node -/

/-- Going to the parent `k` times lowers the height by `k`, down to the root. -/
theorem height_iterate (k : Nat) (b : α) :
    t.height (t.parent^[k] b) = t.height b - k := by
  induction k with
  | zero => rfl
  | succ k ih =>
      rw [Function.iterate_succ_apply', t.height_parent, ih]
      omega

/-- The ancestor at a height has that height. -/
theorem height_atHeight {b : α} {n : Nat} (h : n ≤ t.height b) :
    t.height (t.atHeight b n) = n := by
  rw [atHeight, height_iterate]
  omega

/-- The ancestor of a node at its own height is the node itself. -/
@[simp] theorem atHeight_height (b : α) : t.atHeight b (t.height b) = b := by
  simp [atHeight]

/-- Going down in two steps is going down in one. -/
theorem atHeight_atHeight {b : α} {m n : Nat} (hmn : m ≤ n) (hn : n ≤ t.height b) :
    t.atHeight (t.atHeight b n) m = t.atHeight b m := by
  have hsum : n - m + (t.height b - n) = t.height b - m := by omega
  rw [atHeight, height_atHeight t hn, atHeight, ← Function.iterate_add_apply, hsum, atHeight]

/-- One more parent goes down one more level. -/
theorem parent_atHeight {b : α} {n : Nat} (h : n < t.height b) :
    t.parent (t.atHeight b (n + 1)) = t.atHeight b n := by
  have hsucc : t.height b - n = t.height b - (n + 1) + 1 := by omega
  rw [atHeight, atHeight, hsucc, Function.iterate_succ_apply']

/-! ### Ancestors -/

/-- A node counts as its own ancestor. -/
theorem IsAncestor.refl (a : α) : t.IsAncestor a a := ⟨Nat.le_refl _, t.atHeight_height a⟩

variable {t}

/-- A node that is no ancestor of another is not that other. -/
theorem ne_of_not_isAncestor {a b : α} (h : ¬ t.IsAncestor a b) : a ≠ b :=
  fun hab => h (hab ▸ IsAncestor.refl t a)

/-- An ancestor is not higher than its descendant. -/
theorem IsAncestor.height_le {a b : α} (h : t.IsAncestor a b) : t.height a ≤ t.height b := h.1

/-- The ancestor relation is transitive: going down in two steps is going down at once. -/
theorem IsAncestor.trans {a b c : α} (hab : t.IsAncestor a b) (hbc : t.IsAncestor b c) :
    t.IsAncestor a c := by
  refine ⟨Nat.le_trans hab.1 hbc.1, ?_⟩
  have hdown := t.atHeight_atHeight hab.1 hbc.1
  rw [hbc.2, hab.2] at hdown
  exact hdown.symm

/-- Two ancestors of one node at one height are the same node. -/
theorem IsAncestor.eq_of_height_eq {a b c : α} (ha : t.IsAncestor a c)
    (hb : t.IsAncestor b c) (h : t.height a = t.height b) : a = b := by
  rw [← ha.2, ← hb.2, h]

/-- Two nodes that are ancestors of each other have one height, and so they are the same. -/
theorem IsAncestor.antisymm {a b : α} (hab : t.IsAncestor a b) (hba : t.IsAncestor b a) :
    a = b :=
  hab.eq_of_height_eq (IsAncestor.refl t b) (Nat.le_antisymm hab.1 hba.1)

/-- Of two ancestors of one node, the lower is an ancestor of the higher. -/
theorem IsAncestor.of_height_le {a b c : α} (ha : t.IsAncestor a c)
    (hb : t.IsAncestor b c) (h : t.height a ≤ t.height b) : t.IsAncestor a b := by
  refine ⟨h, ?_⟩
  have hdown := t.atHeight_atHeight h hb.1
  rw [hb.2, ha.2] at hdown
  exact hdown

/-- Two ancestors of one node lie on its path to the root, so one is an ancestor of the
other. This is what makes a chain a chain. -/
theorem IsAncestor.total {a b c : α} (ha : t.IsAncestor a c) (hb : t.IsAncestor b c) :
    t.IsAncestor a b ∨ t.IsAncestor b a := by
  rcases Nat.le_total (t.height a) (t.height b) with h | h
  · exact Or.inl (ha.of_height_le hb h)
  · exact Or.inr (hb.of_height_le ha h)

/-- The ancestor at a height is an ancestor. -/
theorem isAncestor_atHeight {b : α} {n : Nat} (h : n ≤ t.height b) :
    t.IsAncestor (t.atHeight b n) b := by
  refine ⟨?_, ?_⟩ <;> rw [t.height_atHeight h]
  exact h

variable (t) in
/-- A parent is an ancestor. For the root, whose parent is itself, this is reflexivity. -/
theorem isAncestor_parent (b : α) : t.IsAncestor (t.parent b) b := by
  have hheight := t.height_parent b
  rcases Nat.eq_zero_or_pos (t.height b) with h0 | hpos
  · -- The root is its own parent: both have height `0`.
    rw [t.eq_of_height_eq_zero (t.parent b) b (by omega) h0]
    exact IsAncestor.refl t b
  · have hdown := t.parent_atHeight (b := b) (n := t.height b - 1) (by omega)
    rw [Nat.sub_add_cancel hpos, atHeight_height] at hdown
    rw [hdown]
    exact isAncestor_atHeight (Nat.sub_le _ _)

/-- The ancestors of a node other than itself are the ancestors of its parent. -/
theorem IsAncestor.parent {x b : α} (h : t.IsAncestor x b) (hne : x ≠ b) :
    t.IsAncestor x (t.parent b) := by
  have hlt : t.height x ≠ t.height b := fun heq =>
    hne (h.eq_of_height_eq (IsAncestor.refl t b) heq)
  have hle := h.height_le
  exact h.of_height_le (t.isAncestor_parent b) (by rw [t.height_parent]; omega)

/-- A set of nodes that holds the parent of each of its nodes holds all their ancestors. -/
theorem IsAncestor.mem_of_closed {S : α → Prop} (hclosed : ∀ a, S a → S (t.parent a))
    {a b : α} (hab : t.IsAncestor a b) (hb : S b) : S a := by
  -- An ancestor is an iterate of the parent map.
  have hiter : ∀ k, S (t.parent^[k] b) := by
    intro k
    induction k with
    | zero => exact hb
    | succ k ih =>
        rw [Function.iterate_succ_apply']
        exact hclosed _ ih
  rw [← hab.2]
  exact hiter _

/-! ### The lowest common ancestor -/

section Lca
variable [DecidableEq α]

variable (t) in
/-- The lowest common ancestor: the highest node at which the ways down from `a` and
from `b` agree. -/
def lca (a b : α) : α :=
  t.atHeight a (Nat.findGreatest (fun n => t.atHeight a n = t.atHeight b n)
    (min (t.height a) (t.height b)))

/-- The two ways down agree at the height of `lca`. They do at height `0`, where both
have reached the root, so the search finds a height. -/
theorem lca_spec (a b : α) :
    ∃ n, n ≤ t.height a ∧ n ≤ t.height b ∧ t.lca a b = t.atHeight a n ∧
      t.atHeight a n = t.atHeight b n ∧
      ∀ m, m ≤ t.height a → m ≤ t.height b → t.atHeight a m = t.atHeight b m → m ≤ n := by
  have hroot : t.atHeight a 0 = t.atHeight b 0 :=
    t.eq_of_height_eq_zero _ _ (t.height_atHeight (Nat.zero_le _))
      (t.height_atHeight (Nat.zero_le _))
  have hle := Nat.findGreatest_le (P := fun n => t.atHeight a n = t.atHeight b n)
    (min (t.height a) (t.height b))
  refine ⟨_, by omega, by omega, rfl, ?_, ?_⟩
  · exact Nat.findGreatest_spec (P := fun n => t.atHeight a n = t.atHeight b n)
      (Nat.zero_le _) hroot
  · intro m hma hmb hm
    exact Nat.le_findGreatest (Nat.le_min.mpr ⟨hma, hmb⟩) hm

/-- The lowest common ancestor is an ancestor of the first node. -/
theorem lca_isAncestor_left (a b : α) : t.IsAncestor (t.lca a b) a := by
  obtain ⟨n, hna, -, hlca, -, -⟩ := lca_spec (t := t) a b
  rw [hlca]
  exact isAncestor_atHeight hna

/-- It is one of the second node as well. -/
theorem lca_isAncestor_right (a b : α) : t.IsAncestor (t.lca a b) b := by
  obtain ⟨n, -, hnb, hlca, heq, -⟩ := lca_spec (t := t) a b
  rw [hlca, heq]
  exact isAncestor_atHeight hnb

/-- The universal property: the ancestors of `lca a b` are the common ancestors
of `a` and `b`. -/
theorem isAncestor_lca_iff {x a b : α} :
    t.IsAncestor x (t.lca a b) ↔ t.IsAncestor x a ∧ t.IsAncestor x b := by
  constructor
  · intro h
    exact ⟨h.trans (lca_isAncestor_left a b), h.trans (lca_isAncestor_right a b)⟩
  · rintro ⟨hxa, hxb⟩
    -- Both are ancestors of `a`, so it is enough to compare heights, and the ways down
    -- agree at the height of `x`.
    refine hxa.of_height_le (lca_isAncestor_left a b) ?_
    obtain ⟨n, hna, -, hlca, -, hmax⟩ := lca_spec (t := t) a b
    rw [hlca, t.height_atHeight hna]
    exact hmax _ hxa.1 hxb.1 (hxa.2.trans hxb.2.symm)

/-- The lowest common ancestor does not depend on the order of the nodes. -/
theorem lca_comm (a b : α) : t.lca a b = t.lca b a :=
  IsAncestor.antisymm
    (isAncestor_lca_iff.mpr ⟨lca_isAncestor_right a b, lca_isAncestor_left a b⟩)
    (isAncestor_lca_iff.mpr ⟨lca_isAncestor_right b a, lca_isAncestor_left b a⟩)

/-- A node is the lowest common ancestor exactly when the other one is above it. This is
how the moves that retract nothing are recognised. -/
theorem lca_eq_left_iff {a b : α} : t.lca a b = a ↔ t.IsAncestor a b := by
  constructor
  · intro h
    have hright := lca_isAncestor_right (t := t) a b
    rwa [h] at hright
  · intro h
    exact (lca_isAncestor_left a b).antisymm
      (isAncestor_lca_iff.mpr ⟨IsAncestor.refl t a, h⟩)

/-- Two pairs with the same common ancestors have the same lowest one. -/
theorem lca_congr {a a' b b' : α}
    (h : ∀ x, t.IsAncestor x a ∧ t.IsAncestor x b ↔ t.IsAncestor x a' ∧ t.IsAncestor x b') :
    t.lca a b = t.lca a' b' :=
  IsAncestor.antisymm
    (isAncestor_lca_iff.mpr ((h _).mp ⟨lca_isAncestor_left a b, lca_isAncestor_right a b⟩))
    (isAncestor_lca_iff.mpr ((h _).mpr ⟨lca_isAncestor_left a' b', lca_isAncestor_right a' b'⟩))

/-- Going down from a node that is not an ancestor of `a` keeps the common
ancestors with `a`. -/
theorem lca_parent_right {a b : α} (h : ¬ t.IsAncestor b a) :
    t.lca a (t.parent b) = t.lca a b := by
  refine lca_congr fun x => and_congr_right fun hxa => ?_
  constructor
  · intro hx
    exact hx.trans (t.isAncestor_parent b)
  · intro hx
    exact hx.parent fun heq => h (heq ▸ hxa)

end Lca

/-! ### Segments -/

/-- The segment up to `b` has its ancestors above height `n`, and no other nodes. There
is one ancestor at each height, so an ancestor is told by its height. -/
theorem mem_segment {n : Nat} {b x : α} :
    x ∈ t.segment n b ↔ t.IsAncestor x b ∧ n < t.height x := by
  simp only [segment, List.mem_map, List.mem_range'_1]
  constructor
  · rintro ⟨m, ⟨hlo, hhi⟩, rfl⟩
    have hm : m ≤ t.height b := by omega
    rw [t.height_atHeight hm]
    exact ⟨isAncestor_atHeight hm, by omega⟩
  · rintro ⟨hx, hn⟩
    have hle := hx.height_le
    exact ⟨t.height x, ⟨by omega, by omega⟩, hx.2⟩

/-- A segment has one node for each height. -/
@[simp] theorem length_segment (n : Nat) (b : α) :
    (t.segment n b).length = t.height b - n := by
  simp [segment]

/-- No node is twice in a segment, since the heights differ. -/
theorem nodup_segment (n : Nat) (b : α) : (t.segment n b).Nodup := by
  rw [segment, List.nodup_map_iff_inj_on List.nodup_range']
  intro i hi j hj hij
  -- Nodes at different heights differ.
  simp only [List.mem_range'_1] at hi hj
  have hi' := t.height_atHeight (b := b) (n := i) (by omega)
  have hj' := t.height_atHeight (b := b) (n := j) (by omega)
  rw [hij] at hi'
  omega

/-- A segment that starts one level lower has one more node in front. -/
theorem segment_eq_cons {n : Nat} {b : α} (h : n < t.height b) :
    t.segment n b = t.atHeight b (n + 1) :: t.segment (n + 1) b := by
  have hlen : t.height b - n = t.height b - (n + 1) + 1 := by omega
  rw [segment, hlen, List.range'_succ, List.map_cons, segment]

/-- A segment that starts at the parent of a node on it has that node in front. -/
theorem segment_height_parent {b c : α} (hbc : t.IsAncestor b c) (hb : t.height b ≠ 0) :
    t.segment (t.height (t.parent b)) c = b :: t.segment (t.height b) c := by
  have hle := hbc.height_le
  have hsucc : t.height (t.parent b) + 1 = t.height b := by rw [t.height_parent]; omega
  rw [segment_eq_cons (by omega), hsucc, hbc.2]

/-- A segment ends in its node. -/
theorem getLast?_segment {n : Nat} {b : α} (h : n < t.height b) :
    (t.segment n b).getLast? = some b := by
  have hlast : n + (t.height b - n) = t.height b := by omega
  rw [segment, List.getLast?_map, List.getLast?_range', if_neg (by omega)]
  simp [hlast]

/-- A segment, with the node it starts above in front, is linked by the parent map. -/
theorem isChain_segment {n : Nat} {b : α} (h : n ≤ t.height b) :
    List.IsChain (fun x y => t.parent y = x ∧ t.height y = t.height x + 1)
      (t.atHeight b n :: t.segment n b) := by
  -- Induction on the length of the segment, from its top.
  obtain ⟨k, hk⟩ : ∃ k, t.height b - n = k := ⟨_, rfl⟩
  induction k generalizing n with
  | zero =>
      have hnil : t.segment n b = [] := by
        rw [← List.length_eq_zero_iff, length_segment, hk]
      rw [hnil]
      exact List.IsChain.singleton _
  | succ k ih =>
      have hlt : n < t.height b := by omega
      rw [segment_eq_cons hlt, List.isChain_cons_cons]
      refine ⟨⟨t.parent_atHeight hlt, ?_⟩, ih (by omega) (by omega)⟩
      rw [t.height_atHeight (Nat.succ_le_of_lt hlt), t.height_atHeight h]

/-! ### Branches -/

section Branch
variable [DecidableEq α]

variable (t) in
/-- The nodes on the way to `b` that are not on the way to `a`, from low to high. -/
def branch (a b : α) : List α := t.segment (t.height (t.lca a b)) b

/-- The branch from `a` to `b` has the ancestors of `b` that are not ancestors of `a`.
The common ancestors end at the lowest one, below which the segment does not go. -/
theorem mem_branch {a b x : α} :
    x ∈ t.branch a b ↔ t.IsAncestor x b ∧ ¬ t.IsAncestor x a := by
  rw [branch, mem_segment]
  refine and_congr_right fun hxb => ?_
  constructor
  · intro hlt hxa
    -- A common ancestor is not above the lowest one.
    have hle := (isAncestor_lca_iff.mpr ⟨hxa, hxb⟩).height_le
    omega
  · intro hxa
    by_contra hle
    exact hxa ((hxb.of_height_le (lca_isAncestor_right a b) (by omega)).trans
      (lca_isAncestor_left a b))

/-- The nodes of a branch to `a` are off the chains through `b`, unless `b` is on
the way to `a`. -/
theorem not_isAncestor_of_mem_branch {a b c x : α} (hba : ¬ t.IsAncestor b a)
    (hbc : t.IsAncestor b c) (hx : x ∈ t.branch b a) : ¬ t.IsAncestor x c := by
  intro hxc
  obtain ⟨hxa, hxb⟩ := mem_branch.mp hx
  rcases hxc.total hbc with hxb' | hbx
  · exact hxb hxb'
  · exact hba (hbx.trans hxa)

/-- A branch is as long as `b` is above the lowest common ancestor. -/
theorem length_branch (a b : α) :
    (t.branch a b).length = t.height b - t.height (t.lca a b) := length_segment _ _

/-- The branch is empty exactly when `b` is on the chain of `a` already, since otherwise
`b` itself is on it. -/
theorem branch_eq_nil_iff {a b : α} : t.branch a b = [] ↔ t.IsAncestor b a := by
  constructor
  · intro h
    by_contra hba
    have hmem : b ∈ t.branch a b := mem_branch.mpr ⟨IsAncestor.refl t b, hba⟩
    rw [h] at hmem
    exact List.not_mem_nil hmem
  · intro h
    rw [List.eq_nil_iff_forall_not_mem]
    intro x hx
    obtain ⟨hxb, hxa⟩ := mem_branch.mp hx
    exact hxa (hxb.trans h)

/-- No node is twice in a branch. -/
theorem nodup_branch (a b : α) : (t.branch a b).Nodup := nodup_segment _ _

/-- The lowest common ancestor lies strictly below a node that is not an ancestor of
the other one. -/
theorem height_lca_lt {a b : α} (h : ¬ t.IsAncestor b a) :
    t.height (t.lca a b) < t.height b := by
  have hmem : b ∈ t.branch a b := mem_branch.mpr ⟨IsAncestor.refl t b, h⟩
  exact (mem_segment.mp hmem).2

/-- A branch that is not empty ends in `b`. -/
theorem getLast?_branch {a b : α} (h : ¬ t.IsAncestor b a) :
    (t.branch a b).getLast? = some b := getLast?_segment (height_lca_lt h)

/-- The lowest common ancestor followed by the branch is linked by the parent map. -/
theorem isChain_branch (a b : α) :
    List.IsChain (fun x y => t.parent y = x ∧ t.height y = t.height x + 1)
      (t.lca a b :: t.branch a b) := by
  have hanc := lca_isAncestor_right (t := t) a b
  have hchain := isChain_segment hanc.height_le
  rwa [hanc.2] at hchain

end Branch

end ParentTree

end ChainAlerter.Library
