import Mathlib.Data.List.Forall2

namespace Worksheet

variable {α β γ ε δ : Type}

theorem mapM_cons_of_ok {f : α → Except ε β} {x : α} {y : β} (h : f x = .ok y) (xs : List α) :
    (x :: xs).mapM f = (xs.mapM f).map (y :: ·) := by
  rw [List.mapM_cons, h]
  cases hs : xs.mapM f <;> rfl

theorem mapM_cons_of_error {f : α → Except ε β} {x : α} {e : ε} (h : f x = .error e)
    (xs : List α) : (x :: xs).mapM f = .error e := by
  rw [List.mapM_cons, h]
  rfl

theorem mapError_bind {γ : Type} (g : ε → δ) (x : Except ε α) (f : α → Except ε γ) :
    (x >>= f).mapError g = x.mapError g >>= fun a => (f a).mapError g := by
  cases x <;> rfl

theorem map_eq_error_iff {f : α → β} {x : Except ε α} {e : ε} :
    x.map f = .error e ↔ x = .error e := by
  cases x <;> simp [Except.map]

theorem mapError_eq_error_iff {g : ε → δ} {x : Except ε α} {e : δ} :
    x.mapError g = .error e ↔ ∃ e', x = .error e' ∧ g e' = e := by
  cases x <;> simp [Except.mapError]

theorem mapError_eq_ok_iff {g : ε → δ} {x : Except ε α} {a : α} :
    x.mapError g = .ok a ↔ x = .ok a := by
  cases x <;> simp [Except.mapError]

/-- If the faults of items are changed, so is the fault of the list. -/
theorem mapM_mapError {f : α → Except ε β} {f' : α → Except δ β} {g : ε → δ}
    (h : ∀ x, f' x = (f x).mapError g) (xs : List α) : xs.mapM f' = (xs.mapM f).mapError g := by
  induction xs with
  | nil => rfl
  | cons x xs ih =>
    have hx := h x
    cases hf : f x with
    | error e =>
      rw [hf] at hx
      rw [mapM_cons_of_error hx, mapM_cons_of_error hf]
      rfl
    | ok y =>
      rw [hf] at hx
      rw [mapM_cons_of_ok hx, mapM_cons_of_ok hf, ih]
      cases xs.mapM f <;> rfl

/-- A list is read as the list of what its items are read as. -/
theorem mapM_eq_ok_iff {f : α → Except ε β} {xs : List α} {ys : List β} :
    xs.mapM f = .ok ys ↔ List.Forall₂ (fun x y => f x = .ok y) xs ys := by
  induction xs generalizing ys with
  | nil =>
    constructor
    · intro h
      obtain rfl : [] = ys := Except.ok.inj h
      exact .nil
    · rintro ⟨⟩
      rfl
  | cons x xs ih =>
    cases hx : f x with
    | error e =>
      rw [mapM_cons_of_error hx]
      constructor
      · intro h
        cases h
      · rintro ⟨⟩
        simp_all
    | ok y =>
      rw [mapM_cons_of_ok hx]
      constructor
      · intro h
        cases hs : xs.mapM f with
        | error e => simp [hs, Except.map] at h
        | ok zs =>
          obtain rfl : y :: zs = ys := by simpa [hs, Except.map] using h
          exact .cons hx (ih.1 hs)
      · intro h
        cases h with
        | cons hz hs =>
          obtain rfl := Except.ok.inj (hx.symm.trans hz)
          rw [ih.2 hs]
          rfl

/-- A list is read exactly if each of its items is. -/
theorem exists_mapM_eq_ok_iff {f : α → Except ε β} {xs : List α} :
    (∃ ys, xs.mapM f = .ok ys) ↔ ∀ x ∈ xs, ∃ y, f x = .ok y := by
  induction xs with
  | nil => exact ⟨fun _ x hx => absurd hx (List.not_mem_nil), fun _ => ⟨[], rfl⟩⟩
  | cons x xs ih =>
    rw [List.forall_mem_cons, ← ih]
    cases hx : f x with
    | error e =>
      rw [mapM_cons_of_error hx]
      simp
    | ok y =>
      rw [mapM_cons_of_ok hx]
      cases xs.mapM f <;> simp [Except.map]

/-- The fault of a list is the fault of one of its items. -/
theorem exists_of_mapM_eq_error {f : α → Except ε β} {xs : List α} {e : ε}
    (h : xs.mapM f = .error e) : ∃ x ∈ xs, f x = .error e := by
  induction xs with
  | nil => cases h
  | cons x xs ih =>
    cases hx : f x with
    | error e' =>
      rw [mapM_cons_of_error hx] at h
      obtain rfl := Except.error.inj h
      exact ⟨x, by simp, hx⟩
    | ok y =>
      rw [mapM_cons_of_ok hx] at h
      obtain ⟨other, hother, he⟩ := ih (map_eq_error_iff.1 h)
      exact ⟨other, by simp [hother], he⟩

/-- A list is read alike by what reads its items alike. -/
theorem mapM_congr {f g : α → Except ε β} {xs : List α} (h : ∀ x ∈ xs, f x = g x) :
    xs.mapM f = xs.mapM g := by
  induction xs with
  | nil => rfl
  | cons x xs ih =>
    have hrest := ih fun other hother => h other (by simp [hother])
    rw [List.mapM_cons, List.mapM_cons, h x (by simp), hrest]

theorem map_eq_ok_iff {f : α → β} {x : Except ε α} {b : β} :
    x.map f = .ok b ↔ ∃ a, x = .ok a ∧ f a = b := by
  cases x <;> simp [Except.map]

/-- A list of which no item may be missing is read if it has items. -/
theorem bind_nonempty_eq_ok_iff {result : Except ε (List α)} {e : ε} {f : List α → β} {b : β} :
    (result >>= fun found => if found.isEmpty then .error e else .ok (f found)) = .ok b ↔
      ∃ found, result = .ok found ∧ found ≠ [] ∧ f found = b := by
  cases result with
  | error err =>
    constructor
    · intro h
      cases h
    · rintro ⟨found, hf, -⟩
      cases hf
  | ok found =>
    constructor
    · intro h
      cases found with
      | nil => cases h
      | cons x xs => exact ⟨x :: xs, rfl, by simp, Except.ok.inj h⟩
    · rintro ⟨other, ho, hne, rfl⟩
      obtain rfl : found = other := Except.ok.inj ho
      cases found with
      | nil => exact absurd rfl hne
      | cons x xs => rfl

/-- What stands on the right of a pairing stands opposite something on the left. -/
theorem forall₂_exists_left {R : α → β → Prop} {xs : List α} {ys : List β}
    (h : List.Forall₂ R xs ys) {y : β} (hy : y ∈ ys) : ∃ x ∈ xs, R x y := by
  induction h with
  | nil => simp at hy
  | cons hr _ ih =>
    rcases List.mem_cons.1 hy with rfl | hy
    · exact ⟨_, by simp, hr⟩
    · obtain ⟨x, hx, hr⟩ := ih hy
      exact ⟨x, by simp [hx], hr⟩

/-- What holds between neighbours near and far on the left of a pairing comes over to the right. -/
theorem pairwise_of_forall₂ {R : α → β → Prop} {S : α → α → Prop} {T : β → β → Prop}
    {xs : List α} {ys : List β} (h : List.Forall₂ R xs ys) (hxs : xs.Pairwise S)
    (hST : ∀ x x' y y', R x y → R x' y' → S x x' → T y y') : ys.Pairwise T := by
  induction h with
  | nil => exact .nil
  | @cons x y xs ys hxy hrest ih =>
    obtain ⟨hx, hxs⟩ := List.pairwise_cons.1 hxs
    refine List.pairwise_cons.2 ⟨?_, ih hxs⟩
    intro y' hy'
    obtain ⟨x', hx', hxy'⟩ := forall₂_exists_left hrest hy'
    exact hST x x' y y' hxy hxy' (hx x' hx')

end Worksheet
