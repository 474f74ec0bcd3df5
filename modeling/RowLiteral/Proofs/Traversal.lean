import Mathlib.Data.List.Forall2

/-!
# Lists read up to the first failure

A list is traversed by a function that may fail, from the first member on; what comes after a
failure is not looked at.

* `mapM_eq_ok_iff`: the traversal succeeds when the function does so on each member, and gives its
  answers in order.
* `mapM_eq_error_iff`: it fails as the function does on the first member on which that fails.
* `mapM_eq_ok_map_iff`: what is said of the function by a relation is said of the traversal.
-/

namespace RowLiteral

variable {α β γ ε : Type} {f : α → Except ε β}

/-! ### Results under a function -/

theorem map_eq_ok_iff {x : Except ε α} {g : α → β} {y : β} :
    x.map g = .ok y ↔ ∃ z, x = .ok z ∧ g z = y := by
  cases x with
  | error e => exact ⟨nofun, fun ⟨_, h, _⟩ => (nomatch h)⟩
  | ok z =>
      constructor
      · exact fun h => ⟨z, rfl, Except.ok.inj h⟩
      · rintro ⟨z', h, rfl⟩
        rw [Except.ok.inj h]
        rfl

theorem map_eq_error_iff {x : Except ε α} {g : α → β} {e : ε} :
    x.map g = .error e ↔ x = .error e := by
  cases x with
  | error e' =>
      exact ⟨fun h => congrArg Except.error (Except.error.inj h),
        fun h => congrArg Except.error (Except.error.inj h)⟩
  | ok z => exact ⟨nofun, nofun⟩

/-- Lists that are related member by member have the same image where related members have. -/
theorem map_eq_map_of_forall₂ {R : α → β → Prop} {g : α → γ} {g' : β → γ} {xs : List α}
    {ys : List β} (h : List.Forall₂ R xs ys) (same : ∀ x y, R x y → g x = g' y) :
    xs.map g = ys.map g' := by
  induction h with
  | nil => rfl
  | cons head _ ih => rw [List.map_cons, List.map_cons, same _ _ head, ih]

/-- A member of the one list is related to one of the other. -/
theorem exists_of_forall₂_of_mem {R : α → β → Prop} {xs : List α} {ys : List β}
    (h : List.Forall₂ R xs ys) {y : β} (mem : y ∈ ys) : ∃ x ∈ xs, R x y := by
  induction h with
  | nil => cases mem
  | cons head _ ih =>
      rcases List.mem_cons.1 mem with rfl | mem
      · exact ⟨_, List.mem_cons_self, head⟩
      · obtain ⟨x, mem, related⟩ := ih mem
        exact ⟨x, List.mem_cons_of_mem _ mem, related⟩

/-! ### Traversals -/

/-- Functions that agree on each member traverse the list alike. -/
theorem mapM_congr {g : α → Except ε β} {xs : List α} (same : ∀ x ∈ xs, f x = g x) :
    xs.mapM f = xs.mapM g := by
  induction xs with
  | nil => rfl
  | cons x xs ih =>
      obtain ⟨head, tail⟩ := List.forall_mem_cons.1 same
      rw [List.mapM_cons, List.mapM_cons, head, ih tail]

theorem mapM_cons_ok {x : α} {y : β} (h : f x = .ok y) (xs : List α) :
    (x :: xs).mapM f = (xs.mapM f).map (y :: ·) := by
  rw [List.mapM_cons, h]
  cases List.mapM f xs <;> rfl

theorem mapM_cons_error {x : α} {e : ε} (h : f x = .error e) (xs : List α) :
    (x :: xs).mapM f = .error e := by
  rw [List.mapM_cons, h]
  rfl

/-- What comes before a member is traversed before it, and what comes after it afterwards. -/
theorem mapM_append_cons {before after : List α} {x : α} {bs : List β}
    (earlier : before.mapM f = .ok bs) : (before ++ x :: after).mapM f =
      (f x).bind fun b => (after.mapM f).map fun as => bs ++ b :: as := by
  rw [List.mapM_append, earlier, List.mapM_cons]
  cases f x with
  | error => rfl
  | ok b => cases List.mapM f after <;> rfl

theorem mapM_eq_ok_iff {xs : List α} {ys : List β} :
    xs.mapM f = .ok ys ↔ List.Forall₂ (fun x y => f x = .ok y) xs ys := by
  induction xs generalizing ys with
  | nil =>
      rw [List.forall₂_nil_left_iff]
      exact ⟨fun h => (Except.ok.inj h).symm, fun h => h ▸ rfl⟩
  | cons x xs ih =>
      rw [List.forall₂_cons_left_iff]
      cases h : f x with
      | error e =>
          rw [mapM_cons_error h]
          exact ⟨nofun, fun ⟨_, _, hy, _⟩ => (nomatch hy)⟩
      | ok y =>
          rw [mapM_cons_ok h, map_eq_ok_iff]
          constructor
          · rintro ⟨zs, rest, rfl⟩
            exact ⟨y, zs, rfl, ih.1 rest, rfl⟩
          · rintro ⟨z, zs, hz, rest, rfl⟩
            exact ⟨zs, ih.2 rest, by rw [Except.ok.inj hz]⟩

/-- A function that answers with the image of what it is related to is traversed like that. -/
theorem mapM_eq_ok_map_iff {g : γ → β} {R : α → γ → Prop}
    (spec : ∀ x y, f x = .ok y ↔ ∃ z, y = g z ∧ R x z) {xs : List α} {ys : List β} :
    xs.mapM f = .ok ys ↔ ∃ zs, ys = zs.map g ∧ List.Forall₂ R xs zs := by
  rw [mapM_eq_ok_iff]
  constructor
  · intro h
    induction h with
    | nil => exact ⟨[], rfl, .nil⟩
    | cons head _ ih =>
        obtain ⟨z, rfl, hz⟩ := (spec _ _).1 head
        obtain ⟨zs, rfl, hzs⟩ := ih
        exact ⟨z :: zs, rfl, .cons hz hzs⟩
  · rintro ⟨zs, rfl, h⟩
    exact List.forall₂_map_right_iff.2 (h.imp fun x z hz => (spec x (g z)).2 ⟨z, rfl, hz⟩)

theorem mapM_eq_error_iff {xs : List α} {e : ε} :
    xs.mapM f = .error e ↔ ∃ before x after, xs = before ++ x :: after ∧
      (∀ b ∈ before, ∃ y, f b = .ok y) ∧ f x = .error e := by
  induction xs with
  | nil =>
      refine ⟨nofun, fun ⟨before, x, after, h, _⟩ => ?_⟩
      exact absurd h.symm (List.append_ne_nil_of_right_ne_nil _ (List.cons_ne_nil x after))
  | cons x xs ih =>
      cases h : f x with
      | error e' =>
          rw [mapM_cons_error h]
          constructor
          · intro same
            obtain rfl := Except.error.inj same
            exact ⟨[], x, xs, rfl, fun _ hb => absurd hb List.not_mem_nil, h⟩
          · rintro ⟨before, z, after, parts, fine, hz⟩
            rcases List.cons_eq_append_iff.1 parts with ⟨rfl, same⟩ | ⟨before', rfl, -⟩
            · obtain ⟨rfl, rfl⟩ := List.cons.inj same
              exact congrArg Except.error (Except.error.inj (h.symm.trans hz))
            · obtain ⟨y, hy⟩ := fine x List.mem_cons_self
              exact nomatch h.symm.trans hy
      | ok y =>
          rw [mapM_cons_ok h, map_eq_error_iff, ih]
          constructor
          · rintro ⟨before, z, after, rfl, fine, hz⟩
            exact ⟨x :: before, z, after, rfl, List.forall_mem_cons.2 ⟨⟨y, h⟩, fine⟩, hz⟩
          · rintro ⟨before, z, after, parts, fine, hz⟩
            rcases List.cons_eq_append_iff.1 parts with ⟨rfl, same⟩ | ⟨before', rfl, rfl⟩
            · obtain ⟨rfl, rfl⟩ := List.cons.inj same
              exact nomatch h.symm.trans hz
            · exact ⟨before', z, after, rfl, (List.forall_mem_cons.1 fine).2, hz⟩

/-- A traversal succeeds if and only if the function succeeds on each member. -/
theorem exists_mapM_eq_ok_iff {xs : List α} :
    (∃ ys, xs.mapM f = .ok ys) ↔ ∀ x ∈ xs, ∃ y, f x = .ok y := by
  constructor
  · rintro ⟨ys, h⟩ x hx
    obtain ⟨i, hi, rfl⟩ := List.getElem_of_mem hx
    have all := mapM_eq_ok_iff.1 h
    exact ⟨_, List.Forall₂.get all hi (all.length_eq ▸ hi)⟩
  · intro h
    cases all : xs.mapM f with
    | ok ys => exact ⟨ys, rfl⟩
    | error e =>
        obtain ⟨before, x, after, rfl, -, hx⟩ := mapM_eq_error_iff.1 all
        obtain ⟨y, hy⟩ := h x (List.mem_append_right before List.mem_cons_self)
        exact nomatch hx.symm.trans hy

/-- A traversal fails if and only if the function fails on a member. -/
theorem exists_mapM_eq_error_iff {xs : List α} :
    (∃ e, xs.mapM f = .error e) ↔ ∃ x ∈ xs, ∃ e, f x = .error e := by
  constructor
  · rintro ⟨e, h⟩
    obtain ⟨before, x, after, rfl, -, hx⟩ := mapM_eq_error_iff.1 h
    exact ⟨x, List.mem_append_right before List.mem_cons_self, e, hx⟩
  · rintro ⟨x, mem, e, hx⟩
    cases all : xs.mapM f with
    | error e' => exact ⟨e', rfl⟩
    | ok ys =>
        obtain ⟨y, hy⟩ := exists_mapM_eq_ok_iff.1 ⟨ys, all⟩ x mem
        exact nomatch hx.symm.trans hy

end RowLiteral
