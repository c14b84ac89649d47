import Mathlib.Control.Lawful
import Worksheet.Proofs.Chars.Bytes

namespace Worksheet.Checked

open Chars (size)

/-- The difference of two numbers, which must not be below zero. -/
def sub (a b : Nat) : Option Nat :=
  if b ≤ a then some (a - b) else none

/-- The text between two byte offsets, which must be character boundaries in this order. -/
def slice (cs : List Char) (start stop : Nat) : Option (List Char) :=
  Chars.slice? cs ⟨start, stop⟩

def upTo (cs : List Char) (stop : Nat) : Option (List Char) :=
  slice cs 0 stop

def onward (cs : List Char) (start : Nat) : Option (List Char) :=
  slice cs start (size cs)

/-- Puts a text in the place of a stretch. -/
def splice (cs : List Char) (span : Span) (text : List Char) : Option (List Char) := do
  let _ ← slice cs span.start span.stop
  return (← upTo cs span.start) ++ text ++ (← onward cs span.stop)

/-- The items between two places. -/
def range (xs : List α) (start stop : Nat) : Option (List α) :=
  if start ≤ stop ∧ stop ≤ xs.length then some ((xs.take stop).drop start) else none

/-- Writes an item to a place. -/
def put (xs : List α) (place : Nat) (a : α) : Option (List α) :=
  if place < xs.length then some (xs.set place a) else none

/-- Exchanges the items at two places. -/
def exchange (xs : Array α) (i j : Nat) : Option (Array α) :=
  if i < xs.size ∧ j < xs.size then some (xs.swapIfInBounds i j) else none

theorem sub_of_le {a b : Nat} (h : b ≤ a) : sub a b = some (a - b) :=
  if_pos h

section Texts

variable {cs : List Char} {start stop : Nat}

theorem slice_append {xs ys zs : List Char} (hcs : cs = xs ++ ys ++ zs) (hstart : start = size xs)
    (hstop : stop = start + size ys) : slice cs start stop = some ys := by
  rw [hcs, hstop, hstart]
  exact Chars.slice?_append xs ys zs

theorem upTo_append {xs ys : List Char} (hcs : cs = xs ++ ys) (hstop : stop = size xs) :
    upTo cs stop = some xs := by
  have hwhole : cs = [] ++ xs ++ ys := hcs
  exact slice_append hwhole rfl (by simp [hstop])

theorem onward_append {xs ys : List Char} (hcs : cs = xs ++ ys) (hstart : start = size xs) :
    onward cs start = some ys := by
  have hwhole : cs = xs ++ ys ++ [] := by simp [hcs]
  exact slice_append hwhole hstart (by simp [hcs, hstart])

theorem splice_append {xs ys zs : List Char} {span : Span} (hcs : cs = xs ++ ys ++ zs)
    (hstart : span.start = size xs) (hstop : span.stop = size xs + size ys) (text : List Char) :
    splice cs span text = some (xs ++ text ++ zs) := by
  have hafter : cs = (xs ++ ys) ++ zs := hcs
  have hbefore : cs = xs ++ (ys ++ zs) := by simp [hcs]
  have hinside : slice cs span.start span.stop = some ys :=
    slice_append hcs hstart (by rw [hstop, hstart])
  rw [splice, hinside, upTo_append hbefore hstart, onward_append hafter (by simp [hstop])]
  rfl

/-- A stretch that is not between characters is refused. -/
example : slice "é=".toList 0 1 = none := by decide

end Texts

section Finding

/-- The byte offset of the last occurrence of a character. -/
def findLast (sep : Char) : List Char → Option Nat
  | [] => none
  | c :: cs =>
    match findLast sep cs with
    | some place => some (c.utf8Size + place)
    | none => if c == sep then some 0 else none

theorem findLast_eq (sep : Char) (cs : List Char) :
    findLast sep cs = (Chars.splitLast sep cs).map (size ·.1) := by
  induction cs with
  | nil => rfl
  | cons c cs ih =>
    rw [findLast, Chars.splitLast, ih]
    cases Chars.splitLast sep cs with
    | some parts => rfl
    | none =>
      dsimp only [Option.map_none]
      split <;> rfl

/-- The byte offset of the first character that satisfies a test, in a text that begins at an
offset. -/
def findWhere (p : Char → Bool) (offset : Nat) : List Char → Option Nat
  | [] => none
  | c :: cs => if p c then some offset else findWhere p (offset + c.utf8Size) cs

theorem findWhere_of_none {p : Char → Bool} {cs : List Char} (h : cs.dropWhile (!p ·) = [])
    (offset : Nat) : findWhere p offset cs = none := by
  induction cs generalizing offset with
  | nil => rfl
  | cons c cs ih =>
    rw [findWhere]
    cases hc : p c with
    | true => simp [hc] at h
    | false =>
      rw [if_neg Bool.false_ne_true]
      exact ih (by simpa [hc] using h) _

theorem findWhere_of_some {p : Char → Bool} {c : Char} {cs rest : List Char}
    (h : cs.dropWhile (!p ·) = c :: rest) (offset : Nat) :
    findWhere p offset cs = some (offset + size (cs.takeWhile (!p ·))) := by
  induction cs generalizing offset with
  | nil => cases h
  | cons d cs ih =>
    rw [findWhere]
    cases hd : p d with
    | true => simp [hd]
    | false =>
      rw [if_neg Bool.false_ne_true, ih (by simpa [hd] using h)]
      simp [hd, Nat.add_assoc]

end Finding

theorem range_of_le {xs : List α} {start stop : Nat} (h : start ≤ stop) (hstop : stop ≤ xs.length) :
    range xs start stop = some ((xs.take stop).drop start) :=
  if_pos ⟨h, hstop⟩

theorem put_of_lt {xs : List α} {place : Nat} (h : place < xs.length) (a : α) :
    put xs place a = some (xs.set place a) :=
  if_pos h

theorem exchange_of_lt {xs : Array α} {i j : Nat} (hi : i < xs.size) (hj : j < xs.size) :
    exchange xs i j = some (xs.swapIfInBounds i j) :=
  if_pos ⟨hi, hj⟩

section Safe

variable {m : Type → Type} [Monad m] {α β : Type}

/-- The result of an access within a computation. -/
def access (result : Option α) : OptionT m α :=
  OptionT.mk (pure result)

/-- The first computation makes no failing access, and it does what the second one does. -/
def Safe (c : OptionT m α) (x : m α) : Prop :=
  c.run = some <$> x

theorem Safe.of_eq {c : OptionT m α} {x y : m α} (h : Safe c x) (hxy : x = y) : Safe c y :=
  hxy ▸ h

variable [LawfulMonad m]

theorem safe_pure (a : α) : Safe (m := m) (pure a) (pure a) := by
  rw [Safe, OptionT.run_pure, map_pure]

theorem safe_lift (x : m α) : Safe (OptionT.lift x) x := by
  rw [Safe, OptionT.run_lift, map_eq_pure_bind]

theorem safe_access {result : Option α} {a : α} (h : result = some a) :
    Safe (m := m) (access result) (pure a) := by
  rw [Safe, h, map_pure]
  rfl

theorem Safe.bind {c : OptionT m α} {x : m α} {f : α → OptionT m β} {g : α → m β} (hc : Safe c x)
    (hf : ∀ a, Safe (f a) (g a)) : Safe (c >>= f) (x >>= g) := by
  rw [Safe, OptionT.run_bind, hc, Option.elimM, bind_map_left, map_bind]
  exact bind_congr hf

/-- An access that does not fail leads to what is done with its result. -/
theorem Safe.after {result : Option α} {a : α} {f : α → OptionT m β} {x : m β} (h : Safe (f a) x)
    (hresult : result = some a) : Safe (access result >>= f) x := by
  subst hresult
  rw [Safe, OptionT.run_bind, access, OptionT.run_mk, Option.elimM, pure_bind]
  exact h

theorem Safe.map {c : OptionT m α} {x : m α} (h : Safe c x) (f : α → β) :
    Safe (f <$> c) (f <$> x) := by
  rw [map_eq_pure_bind, map_eq_pure_bind]
  exact h.bind fun a => safe_pure (f a)

theorem Safe.mapM {f : α → OptionT m β} {g : α → m β} {xs : List α}
    (h : ∀ a ∈ xs, Safe (f a) (g a)) : Safe (xs.mapM f) (xs.mapM g) := by
  induction xs with
  | nil =>
    rw [List.mapM_nil, List.mapM_nil]
    exact safe_pure []
  | cons x xs ih =>
    rw [List.mapM_cons, List.mapM_cons]
    have hrest := ih fun a ha => h a (by simp [ha])
    exact (h x (by simp)).bind fun b => hrest.bind fun bs => safe_pure (b :: bs)

end Safe

/-- Items that are read one by one without a failing access. -/
theorem mapM_eq_some {f : α → Option β} {g : α → β} {xs : List α} (h : ∀ a ∈ xs, f a = some (g a)) :
    xs.mapM f = some (xs.map g) := by
  induction xs with
  | nil => rfl
  | cons x xs ih =>
    rw [List.mapM_cons, h x (by simp), ih fun a ha => h a (by simp [ha])]
    rfl

theorem mapM_eq_filterMap {f : α → Option β} {xs : List α} (h : ∀ a ∈ xs, (f a).isSome) :
    xs.mapM f = some (xs.filterMap f) := by
  induction xs with
  | nil => rfl
  | cons x xs ih =>
    obtain ⟨b, hb⟩ := Option.isSome_iff_exists.1 (h x (by simp))
    rw [List.mapM_cons, hb, ih fun a ha => h a (by simp [ha]), List.filterMap_cons_some hb]
    rfl

end Worksheet.Checked
