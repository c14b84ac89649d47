import Mathlib.Data.List.Nodup
import Mathlib.Data.List.Perm.Basic
import Worksheet.Random

namespace Worksheet

variable {α σ : Type}

/-- Numbers of which the first is below the bound, the next below the bound less one, and so on. -/
def Falling (bound : Nat) (draws : List Nat) : Prop :=
  ∀ i (h : i < draws.length), draws[i] < bound - i

theorem falling_nil (bound : Nat) : Falling bound [] := by
  intro i h
  cases h

theorem falling_cons {bound d : Nat} {draws : List Nat} :
    Falling bound (d :: draws) ↔ d < bound ∧ Falling (bound - 1) draws := by
  constructor
  · intro h
    refine ⟨h 0 (by simp), ?_⟩
    intro i hi
    have hnext := h (i + 1) (by simpa using hi)
    simp only [List.getElem_cons_succ] at hnext
    omega
  · rintro ⟨hd, h⟩ i hi
    cases i with
    | zero => simpa using hd
    | succ i =>
      have hnext := h i (by simpa using hi)
      simp only [List.getElem_cons_succ]
      omega

/-- Rearranges what is left of a list once the item at a place is taken. -/
structure Removal (α : Type) where
  remove : Nat → List α → List α
  perm : ∀ {items : List α} {place : Nat} {item : α}, items[place]? = some item →
    (item :: remove place items).Perm items

namespace Removal

variable (r : Removal α)

/-- The items that the draws take, in their order. -/
def taken : List Nat → List α → List α
  | [], _ => []
  | d :: draws, items => items[d]?.toList ++ taken draws (r.remove d items)

/-- The items that the draws leave. -/
def left : List Nat → List α → List α
  | [], items => items
  | d :: draws, items => left draws (r.remove d items)

variable {r} {items : List α} {d : Nat} {draws : List Nat}

theorem taken_cons {item : α} (h : items[d]? = some item) :
    r.taken (d :: draws) items = item :: r.taken draws (r.remove d items) := by
  simp [taken, h]

theorem length_remove (h : d < items.length) : (r.remove d items).length = items.length - 1 := by
  have hperm := r.perm (List.getElem?_eq_getElem h)
  have hlength := hperm.length_eq
  simp only [List.length_cons] at hlength
  omega

theorem falling_remove (h : Falling items.length (d :: draws)) :
    Falling (r.remove d items).length draws := by
  obtain ⟨hd, hdraws⟩ := falling_cons.1 h
  rw [length_remove hd]
  exact hdraws

/-- Taking items loses none and doubles none. -/
theorem perm_taken (h : Falling items.length draws) :
    (r.taken draws items ++ r.left draws items).Perm items := by
  induction draws generalizing items with
  | nil => exact List.Perm.refl items
  | cons d draws ih =>
    have hitem := List.getElem?_eq_getElem (falling_cons.1 h).1
    rw [taken_cons hitem, left, List.cons_append]
    exact ((ih (falling_remove h)).cons _).trans (r.perm hitem)

theorem length_taken (h : Falling items.length draws) :
    (r.taken draws items).length = draws.length := by
  induction draws generalizing items with
  | nil => rfl
  | cons d draws ih =>
    rw [taken_cons (List.getElem?_eq_getElem (falling_cons.1 h).1), List.length_cons,
      ih (falling_remove h), List.length_cons]

theorem nodup_taken (hitems : items.Nodup) (h : Falling items.length draws) :
    (r.taken draws items).Nodup :=
  (List.nodup_append.1 ((perm_taken h).nodup_iff.2 hitems)).1

theorem mem_of_mem_taken (h : Falling items.length draws) {item : α}
    (hitem : item ∈ r.taken draws items) : item ∈ items :=
  (perm_taken h).mem_iff.1 (List.mem_append_left _ hitem)

/-- Distinct items are taken in a given order by exactly one list of draws. The induction is on the
items to take. The place of the first is unique because the items are distinct, and the others are
among those that are left. -/
theorem existsUnique_taken {picks : List α} (hitems : items.Nodup) (hpicks : picks.Nodup)
    (hsub : ∀ pick ∈ picks, pick ∈ items) :
    ∃! draws, Falling items.length draws ∧ r.taken draws items = picks := by
  induction picks generalizing items with
  | nil =>
    refine ⟨[], ⟨falling_nil _, rfl⟩, ?_⟩
    rintro draws ⟨hfalling, hdraws⟩
    have hlength := length_taken (r := r) hfalling
    rw [hdraws] at hlength
    exact List.eq_nil_of_length_eq_zero hlength.symm
  | cons pick picks ih =>
    obtain ⟨d, hd, rfl⟩ := List.getElem_of_mem (hsub pick (by simp))
    have hitem : items[d]? = some items[d] := List.getElem?_eq_getElem hd
    have hperm := r.perm hitem
    obtain ⟨hnew, hrest⟩ := List.nodup_cons.1 hpicks
    have hleft : (r.remove d items).Nodup := (List.nodup_cons.1 (hperm.nodup_iff.2 hitems)).2
    have hamong : ∀ pick ∈ picks, pick ∈ r.remove d items := by
      intro pick hpick
      have hmem := hperm.mem_iff.2 (hsub pick (by simp [hpick]))
      rcases List.mem_cons.1 hmem with heq | hmem
      · exact absurd (heq ▸ hpick) hnew
      · exact hmem
    obtain ⟨draws, ⟨hfalling, htaken⟩, hunique⟩ := ih hleft hrest hamong
    refine ⟨d :: draws, ⟨?_, ?_⟩, ?_⟩
    · rw [length_remove hd] at hfalling
      exact falling_cons.2 ⟨hd, hfalling⟩
    · rw [taken_cons hitem, htaken]
    · rintro others ⟨hfallingOthers, htakenOthers⟩
      cases others with
      | nil => cases htakenOthers
      | cons e others =>
        have he : e < items.length := (falling_cons.1 hfallingOthers).1
        rw [taken_cons (List.getElem?_eq_getElem he)] at htakenOthers
        obtain ⟨hfirst, hothers⟩ := List.cons.inj htakenOthers
        obtain rfl : e = d := (List.Nodup.getElem_inj_iff hitems).1 hfirst
        rw [hunique others ⟨falling_remove hfallingOthers, hothers⟩]

end Removal

/-- An exchange of two places, on the list of the items. -/
theorem toList_swapIfInBounds {pool : Array α} {i j : Nat} {x y : α}
    (hx : pool.toList[i]? = some x) (hy : pool.toList[j]? = some y) :
    (pool.swapIfInBounds i j).toList = (pool.toList.set i y).set j x := by
  obtain ⟨hi, hgetx⟩ := List.getElem?_eq_some_iff.1 hx
  obtain ⟨hj, hgety⟩ := List.getElem?_eq_some_iff.1 hy
  rw [Array.getElem_toList] at hgetx hgety
  rw [Array.length_toList] at hi hj
  rw [Array.swapIfInBounds_def, dif_pos hi, dif_pos hj, Array.toList_swap, hgetx, hgety]

theorem cons_set_perm {items : List α} {place : Nat} {item : α} (h : items[place]? = some item)
    (other : α) : (item :: items.set place other).Perm (other :: items) := by
  obtain ⟨hlt, rfl⟩ := List.getElem?_eq_some_iff.1 h
  have hset := List.set_perm_cons_eraseIdx hlt other
  have hget := List.getElem_cons_eraseIdx_perm hlt
  exact ((hset.cons _).trans (List.Perm.swap _ _ _)).trans (hget.cons other)

/-- The first item moves to the place of the one that is taken. -/
def Removal.moveFirst : Removal α where
  remove place
    | [] => []
    | first :: rest => ((first :: rest).set place first).tail
  perm := by
    intro items place item h
    cases items with
    | nil => cases h
    | cons first rest =>
      cases place with
      | zero =>
        obtain rfl := Option.some.inj h
        exact List.Perm.refl _
      | succ place =>
        have hrest : rest[place]? = some item := by simpa using h
        exact cons_set_perm hrest first

/-- The last item moves to the place of the one that is taken. -/
def Removal.moveLast : Removal α where
  remove place items :=
    match items.getLast? with
    | none => []
    | some last => (items.set place last).dropLast
  perm := by
    intro items place item h
    obtain rfl | ⟨others, last, rfl⟩ := items.eq_nil_or_concat'
    · cases h
    · rw [List.getLast?_concat]
      dsimp only
      by_cases hplace : place < others.length
      · rw [List.getElem?_append_left hplace] at h
        rw [List.set_append_left _ _ hplace, List.dropLast_concat]
        exact (cons_set_perm h last).trans (List.perm_append_singleton last others).symm
      · rw [List.getElem?_append_right (by omega), List.getElem?_singleton] at h
        obtain ⟨hzero, hlast⟩ := Option.ite_none_right_eq_some.1 h
        obtain rfl := Option.some.inj hlast
        obtain rfl : place = others.length := by omega
        rw [List.set_append_right _ _ (by omega), hzero, List.set_cons_zero, List.dropLast_concat]
        exact (List.perm_append_singleton _ others).symm

/-- A source that gives listed answers one after the other, whatever it is asked, and then 0. -/
structure Answers where
  values : List Nat

instance : RandomSource Answers where
  below _ a := (a.values.headD 0, ⟨a.values.tail⟩)

variable [RandomSource σ]

/-- The choices of a source for bounds that fall by one from choice to choice. -/
def fallingDraws : Nat → Nat → σ → List Nat × σ
  | 0, _, s => ([], s)
  | count + 1, bound, s =>
    let (d, s) := RandomSource.below bound s
    let (draws, s) := fallingDraws count (bound - 1) s
    (d :: draws, s)

theorem length_fallingDraws (count bound : Nat) (s : σ) :
    (fallingDraws count bound s).1.length = count := by
  induction count generalizing bound s with
  | zero => rfl
  | succ count ih => simp [fallingDraws, ih]

theorem falling_fallingDraws [LawfulRandomSource σ] {count bound : Nat} (h : count ≤ bound)
    (s : σ) : Falling bound (fallingDraws count bound s).1 := by
  induction count generalizing bound s with
  | zero => exact falling_nil bound
  | succ count ih =>
    have hfirst := LawfulRandomSource.below_lt bound s
    have hpositive : max bound 1 = bound := by omega
    rw [hpositive] at hfirst
    exact falling_cons.2 ⟨hfirst, ih (by omega) _⟩

end Worksheet
