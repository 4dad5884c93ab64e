import Mathlib

/-!
# `ChainAlerter.Library.Passes`: passes over a list, one for each kind

The elements of a list have kinds, some of them none. A pass reads the elements of
one kind in their order. Reading an element gives a result, gives none, or fails,
and a pass fails with its first failure. `passes` makes one pass for each of a list
of kinds and joins the results.

`passes_of_readable` and `passes_of_not_readable` say when the passes succeed, and
with what. `perm_passResults` says that together they read each element once: the
results are those of one walk over the list, in the order of the kinds.
-/

set_option autoImplicit false

namespace ChainAlerter.Library

open scoped List

/-! ### Lists of results -/

section
variable {α β γ ε ε' : Type}

/-- A pass that succeeds on every element gives the list of the results. -/
theorem mapM_eq_ok {f : α → Except ε β} {g : α → β} {xs : List α}
    (h : ∀ x ∈ xs, f x = .ok (g x)) : xs.mapM f = .ok (xs.map g) := by
  induction xs with
  | nil => rfl
  | cons x xs ih =>
      rw [List.mapM_cons, h x List.mem_cons_self, ih fun y hy => h y (List.mem_cons_of_mem _ hy)]
      rfl

/-- A pass that fails on an element fails, with the error of the first such element.
Which element this is does not matter to those who only ask whether the pass fails. -/
theorem exists_mapM_eq_error {f : α → Except ε β} {xs : List α} {x : α} {err : ε}
    (hx : x ∈ xs) (h : f x = .error err) : ∃ err', xs.mapM f = .error err' := by
  induction xs with
  | nil => cases hx
  | cons y xs ih =>
      rw [List.mapM_cons]
      cases hy : f y with
      | error err' => exact ⟨err', rfl⟩
      -- The first failure is further on, since `y` can be read.
      | ok value =>
          have hne : x ≠ y := by
            rintro rfl
            rw [h] at hy
            cases hy
          obtain ⟨err', herr'⟩ := ih ((List.mem_cons.mp hx).resolve_left hne)
          exact ⟨err', by rw [herr']; rfl⟩

/-- Errors may be translated for each element or at the end, since only the
first one is seen. -/
theorem mapError_mapM (f : α → Except ε β) (g : ε → ε') (xs : List α) :
    (xs.mapM f).mapError g = xs.mapM fun x => (f x).mapError g := by
  induction xs with
  | nil => rfl
  | cons x xs ih =>
      rw [List.mapM_cons, List.mapM_cons, ← ih]
      cases f x with
      | error err => rfl
      | ok value => cases xs.mapM f <;> rfl

/-- Results may be translated for each element or at the end, as the pass stops at the
same place in both cases. -/
theorem mapM_map_result (f : α → Except ε β) (g : β → γ) (xs : List α) :
    (xs.mapM fun x => (f x).map g) = (xs.mapM f).map (List.map g) := by
  induction xs with
  | nil => rfl
  | cons x xs ih =>
      rw [List.mapM_cons, List.mapM_cons, ih]
      cases f x with
      | error err => rfl
      | ok value => cases xs.mapM f <;> rfl

end

/-! ### The passes -/

/-- How to read elements: their kinds, and what reading one of a kind gives. -/
structure Reader (α β κ ε : Type) where
  kind? : α → Option κ
  read : κ → α → Except ε (Option β)

namespace Reader

variable {α β κ ε : Type} [DecidableEq κ] (R : Reader α β κ ε)

/-- The elements of a kind. -/
def ofKind (kind : κ) (xs : List α) : List α := xs.filter fun x => R.kind? x = some kind

/-- One pass. -/
def pass (xs : List α) (kind : κ) : Except ε (List β) :=
  ((R.ofKind kind xs).mapM (R.read kind)).map List.reduceOption

/-- One pass for each kind. -/
def passes (kinds : List κ) (xs : List α) : Except ε (List β) :=
  (kinds.mapM (R.pass xs)).map List.flatten

/-- Reading the element does not fail. -/
def readable (x : α) : Bool :=
  match R.kind? x with
  | some kind => (R.read kind x).isOk
  | none => true

/-- The result of the element. -/
def result? (x : α) : Option β :=
  (R.kind? x).bind fun kind => (R.read kind x).toOption.join

/-- The results of the passes: kind by kind, and in each kind in the order of the list. -/
def passResults (kinds : List κ) (xs : List α) : List β :=
  kinds.flatMap fun kind => (R.ofKind kind xs).filterMap R.result?

variable {R}

/-! ### Reading every element, and the first failure -/

/-- The elements of a kind are those with that kind, and no other. -/
theorem mem_ofKind {kind : κ} {xs : List α} {x : α} :
    x ∈ R.ofKind kind xs ↔ x ∈ xs ∧ R.kind? x = some kind := by
  simp [ofKind]

omit [DecidableEq κ] in
/-- A readable element of a kind is read without an error, and yields its result. -/
theorem read_of_readable {kind : κ} {x : α} (hkind : R.kind? x = some kind)
    (h : R.readable x = true) : R.read kind x = .ok (R.result? x) := by
  simp only [readable, hkind] at h
  simp only [result?, hkind, Option.bind_some]
  cases hread : R.read kind x with
  | error err =>
      rw [hread] at h
      cases h
  | ok value => simp [Except.toOption]

omit [DecidableEq κ] in
/-- An element that is not readable has a kind, and reading it as this kind fails. An
element of no kind is passed over, and counts as readable. -/
theorem exists_read_of_not_readable {x : α} (h : R.readable x = false) :
    ∃ kind err, R.kind? x = some kind ∧ R.read kind x = .error err := by
  cases hkind : R.kind? x with
  | none => simp [readable, hkind] at h
  | some kind =>
      simp only [readable, hkind] at h
      cases hread : R.read kind x with
      | error err => exact ⟨kind, err, rfl, hread⟩
      | ok value =>
          rw [hread] at h
          cases h

/-- A pass over readable elements succeeds, with the results of those of its
kind in their order. -/
theorem pass_of_readable {kind : κ} {xs : List α} (h : ∀ x ∈ xs, R.readable x = true) :
    R.pass xs kind = .ok ((R.ofKind kind xs).filterMap R.result?) := by
  have hread : ∀ x ∈ R.ofKind kind xs, R.read kind x = .ok (R.result? x) := fun x hx =>
    read_of_readable (mem_ofKind.mp hx).2 (h x (mem_ofKind.mp hx).1)
  rw [pass, mapM_eq_ok hread]
  simp [Except.map, List.reduceOption, List.filterMap_map]

/-- When every element can be read, so can all of them, kind by kind. -/
theorem passes_of_readable {kinds : List κ} {xs : List α} (h : ∀ x ∈ xs, R.readable x = true) :
    R.passes kinds xs = .ok (R.passResults kinds xs) := by
  rw [passes, mapM_eq_ok fun kind _ => pass_of_readable h]
  rfl

/-- When an element of one of the kinds cannot be read, the passes fail. The pass of its
kind does, if none before it has. -/
theorem passes_of_not_readable {kinds : List κ} {xs : List α}
    (hkinds : ∀ x ∈ xs, ∀ kind, R.kind? x = some kind → kind ∈ kinds) {x : α} (hx : x ∈ xs)
    (h : R.readable x = false) : ∃ err, R.passes kinds xs = .error err := by
  obtain ⟨kind, err, hkind, hread⟩ := exists_read_of_not_readable h
  have hpass : ∃ err', R.pass xs kind = .error err' := by
    obtain ⟨err', herr'⟩ := exists_mapM_eq_error (mem_ofKind.mpr ⟨hx, hkind⟩) hread
    exact ⟨err', by rw [pass, herr']; rfl⟩
  obtain ⟨err', herr'⟩ := hpass
  obtain ⟨err'', herr''⟩ := exists_mapM_eq_error (hkinds x hx kind hkind) herr'
  exact ⟨err'', by rw [passes, herr'']; rfl⟩

/-! ### One walk over the list -/

/-- Without the elements of a kind, the other kinds have the same elements. -/
theorem ofKind_filter_ne {kind other : κ} (h : other ≠ kind) (xs : List α) :
    R.ofKind other (xs.filter fun x => ! decide (R.kind? x = some kind)) = R.ofKind other xs := by
  rw [ofKind, ofKind, List.filter_filter]
  refine List.filter_congr fun x _ => ?_
  by_cases hx : R.kind? x = some other
  · simp [hx, h]
  · simp [hx]

/-- The passes read each element once. By induction on the kinds: the first pass takes
the elements of its kind, and the others pass over the rest, so the results differ from
those of one pass in their order only. -/
theorem perm_passResults {kinds : List κ} (hnodup : kinds.Nodup) :
    ∀ {xs : List α}, (∀ x ∈ xs, ∀ kind, R.kind? x = some kind → kind ∈ kinds) →
      (R.passResults kinds xs).Perm (xs.filterMap R.result?) := by
  induction kinds with
  | nil =>
      intro xs hkinds
      have hnone : ∀ x ∈ xs, R.result? x = none := by
        intro x hx
        cases hkind : R.kind? x with
        | none => simp [result?, hkind]
        | some kind => cases hkinds x hx kind hkind
      rw [List.filterMap_eq_nil_iff.mpr hnone]
      exact List.Perm.refl _
  | cons kind kinds ih =>
      intro xs hkinds
      obtain ⟨hnot, hnodup⟩ := List.nodup_cons.mp hnodup
      -- The other kinds do not see the elements of this one.
      let others := xs.filter fun x => ! decide (R.kind? x = some kind)
      have hothers : R.passResults kinds others = R.passResults kinds xs := by
        refine List.flatMap_congr fun other hother => ?_
        have hne : other ≠ kind := by
          rintro rfl
          exact hnot hother
        rw [ofKind_filter_ne hne]
      have hperm : (R.passResults kinds others).Perm (others.filterMap R.result?) := by
        refine ih hnodup fun x hx k hk => ?_
        obtain ⟨hx, hne⟩ := List.mem_filter.mp hx
        have hmem := hkinds x hx k hk
        refine (List.mem_cons.mp hmem).resolve_left ?_
        rintro rfl
        simp [hk] at hne
      calc R.passResults (kind :: kinds) xs
          = (R.ofKind kind xs).filterMap R.result? ++ R.passResults kinds others := by
            rw [hothers]
            rfl
        _ ~ (R.ofKind kind xs).filterMap R.result? ++ others.filterMap R.result? :=
            hperm.append_left _
        _ = (R.ofKind kind xs ++ others).filterMap R.result? := (List.filterMap_append ..).symm
        _ ~ xs.filterMap R.result? :=
            (List.filter_append_perm (fun x => decide (R.kind? x = some kind)) xs).filterMap _

end Reader

end ChainAlerter.Library
