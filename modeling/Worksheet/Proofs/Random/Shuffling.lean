import Mathlib.Data.Set.Function
import Worksheet.Proofs.Random.Taken

namespace Worksheet

variable {α σ : Type}

/-- One exchange: the item that is drawn is placed, and the last of the others moves to where it
stood. -/
theorem toList_exchange_last {pool : Array α} {items after : List α} {place d : Nat} {item : α}
    (hpool : pool.toList = items ++ after) (hplace : place + 1 = items.length)
    (hitem : items[d]? = some item) : (pool.swapIfInBounds place d).toList =
      Removal.moveLast.remove d items ++ item :: after := by
  obtain rfl | ⟨others, last, rfl⟩ := items.eq_nil_or_concat'
  · cases hitem
  · have hothers : place = others.length := by simpa using hplace
    subst hothers
    obtain ⟨hd, hget⟩ := List.getElem?_eq_some_iff.1 hitem
    have hlast : pool.toList[others.length]? = some last := by simp [hpool]
    have hdrawn : pool.toList[d]? = some item := by
      rw [hpool, List.getElem?_append_left hd, hitem]
    have hremove : Removal.moveLast.remove d (others ++ [last]) =
        ((others ++ [last]).set d last).dropLast := by
      simp [Removal.moveLast]
    rw [toList_swapIfInBounds hlast hdrawn, hpool, hremove, List.append_assoc,
      List.set_append_right _ _ (Nat.le_refl _), Nat.sub_self, List.singleton_append,
      List.set_cons_zero]
    by_cases hbelow : d < others.length
    · rw [List.set_append_left _ _ hbelow, List.set_append_left _ _ hbelow, List.dropLast_concat]
    · have hlength : d < others.length + 1 := by simpa using hd
      obtain rfl : d = others.length := by omega
      have hsame : item = last := by simpa using hget.symm
      rw [List.set_append_right _ _ (Nat.le_refl _), List.set_append_right _ _ (Nat.le_refl _),
        Nat.sub_self, List.set_cons_zero, List.set_cons_zero, List.dropLast_concat, hsame]

/-- The loop of a shuffle: before what is placed already come the items that the answers leave, and
then those that they take, the last one first. -/
theorem toList_shuffleFrom {pool : Array α} {items after : List α} {draws : List Nat}
    (hpool : pool.toList = items ++ after) (hcount : draws.length + 1 = items.length)
    (h : Falling items.length draws) :
    (shuffleFrom draws.length pool (⟨draws⟩ : Answers)).1.toList =
      Removal.moveLast.left draws items ++
        ((Removal.moveLast.taken draws items).reverse ++ after) := by
  induction draws generalizing pool items after with
  | nil => simp [shuffleFrom, Removal.taken, Removal.left, hpool]
  | cons d draws ih =>
    have hd : d < items.length := (falling_cons.1 h).1
    have hitem := List.getElem?_eq_getElem hd
    have hlength : draws.length + 1 = (Removal.moveLast.remove d items).length := by
      rw [Removal.length_remove hd, ← hcount]
      rfl
    have hnext := ih (toList_exchange_last hpool hcount hitem) hlength
      (Removal.falling_remove h)
    rw [Removal.taken_cons hitem, Removal.left, List.reverse_cons, List.append_assoc]
    exact hnext

/-- Only the choices of a source count for the loop. -/
theorem shuffleFrom_eq [RandomSource σ] (count : Nat) (items : Array α) (s : σ) :
    shuffleFrom count items s =
      ((shuffleFrom count items (⟨(fallingDraws count (count + 1) s).1⟩ : Answers)).1,
        (fallingDraws count (count + 1) s).2) := by
  induction count generalizing items s with
  | zero => rfl
  | succ count ih =>
    let drawn := RandomSource.below (count + 2) s
    exact ih (items.swapIfInBounds (count + 1) drawn.1) drawn.2

/-- A source leaves the order that a source with its choices as answers leaves. -/
theorem shuffle_eq [RandomSource σ] (items : List α) (s : σ) :
    shuffle items s =
      ((shuffle items (⟨(fallingDraws (items.length - 1) items.length s).1⟩ : Answers)).1,
        (fallingDraws (items.length - 1) items.length s).2) := by
  cases items with
  | nil => rfl
  | cons first rest =>
    have hloop := shuffleFrom_eq rest.length (first :: rest).toArray s
    rw [shuffle, List.length_cons, Nat.add_sub_cancel, hloop]
    rfl

theorem shuffle_answers {items : List α} {draws : List Nat}
    (hcount : draws.length = items.length - 1) (h : Falling items.length draws) :
    (shuffle items (⟨draws⟩ : Answers)).1 =
      Removal.moveLast.left draws items ++ (Removal.moveLast.taken draws items).reverse := by
  cases items with
  | nil =>
    obtain rfl := List.eq_nil_of_length_eq_zero hcount
    rfl
  | cons first rest =>
    have hpool : (first :: rest).toArray.toList = first :: rest ++ [] := by simp
    have hlength : draws.length + 1 = (first :: rest).length := by
      rw [hcount]
      rfl
    have hloop := toList_shuffleFrom hpool hlength h
    rw [List.append_nil, hcount] at hloop
    exact hloop

theorem perm_shuffle_answers {items : List α} {draws : List Nat}
    (hcount : draws.length = items.length - 1) (h : Falling items.length draws) :
    (shuffle items (⟨draws⟩ : Answers)).1.Perm items := by
  rw [shuffle_answers hcount h]
  have htaken := (Removal.moveLast.taken draws items).reverse_perm
  have hsame := Removal.perm_taken (r := Removal.moveLast) h
  exact ((htaken.append_left _).trans List.perm_append_comm).trans hsame

theorem perm_shuffle [RandomSource σ] [LawfulRandomSource σ] (items : List α) (s : σ) :
    (shuffle items s).1.Perm items := by
  rw [shuffle_eq]
  exact perm_shuffle_answers (length_fallingDraws _ _ s)
    (falling_fallingDraws (Nat.sub_le items.length 1) s)

/-- A list with the same items is told by all but its first item. -/
theorem eq_of_perm_of_tail_eq {xs ys : List α} (h : xs.Perm ys) (htail : xs.tail = ys.tail) :
    xs = ys := by
  cases xs with
  | nil => rw [h.nil_eq]
  | cons x xs =>
    cases ys with
    | nil => exact absurd h.length_eq (by simp)
    | cons y ys =>
      obtain rfl : xs = ys := htail
      have hfirst : [x].Perm [y] := (List.perm_append_right_iff xs).1 h
      rw [List.singleton_perm_singleton.1 hfirst]

theorem tail_shuffle_answers {items : List α} {draws : List Nat}
    (hcount : draws.length = items.length - 1) (h : Falling items.length draws) :
    (shuffle items (⟨draws⟩ : Answers)).1.tail =
      (Removal.moveLast.taken draws items).reverse := by
  rw [shuffle_answers hcount h]
  cases items with
  | nil =>
    obtain rfl := List.eq_nil_of_length_eq_zero hcount
    rfl
  | cons first rest =>
    have hsame := (Removal.perm_taken (r := Removal.moveLast) h).length_eq
    rw [List.length_append, Removal.length_taken h, hcount, List.length_cons] at hsame
    have hone : (Removal.moveLast.left draws (first :: rest)).length = 1 := by omega
    obtain ⟨last, hlast⟩ := List.length_eq_one_iff.1 hone
    rw [hlast]
    rfl

/-- The first draw is for the last place, the next one for the place before it, and so on down to
place 1, each at most the place. Such draws and the orders of distinct items correspond to each
other, and a source leaves the order to which its choices lead. -/
theorem shuffle_bijOn {items : List α} (hitems : items.Nodup) :
    Set.BijOn (fun draws => (shuffle items (⟨draws⟩ : Answers)).1)
        {draws | draws.length = items.length - 1 ∧ Falling items.length draws}
        {order | order.Perm items} ∧
      ∀ (σ : Type) [RandomSource σ] (s : σ), shuffle items s =
        ((shuffle items (⟨(fallingDraws (items.length - 1) items.length s).1⟩ : Answers)).1,
          (fallingDraws (items.length - 1) items.length s).2) := by
  -- All but the first item of an order are what is taken, the last one first.
  have hunique : ∀ order : List α, order.Perm items →
      ∃! draws, Falling items.length draws ∧
        Removal.moveLast.taken draws items = order.tail.reverse := by
    intro order horder
    apply Removal.existsUnique_taken hitems
    · have hnodup := horder.nodup_iff.2 hitems
      exact List.nodup_reverse.2 (hnodup.sublist (List.tail_sublist order))
    · intro pick hpick
      exact horder.mem_iff.1 (List.mem_of_mem_tail (List.mem_reverse.1 hpick))
  refine ⟨⟨?_, ?_, ?_⟩, fun σ _ s => shuffle_eq items s⟩
  · rintro draws ⟨hcount, hfalling⟩
    exact perm_shuffle_answers hcount hfalling
  · rintro draws ⟨hcount, hfalling⟩ others ⟨hcountOthers, hfallingOthers⟩ hsame
    have htail := congrArg List.tail hsame
    simp only [tail_shuffle_answers hcount hfalling,
      tail_shuffle_answers hcountOthers hfallingOthers] at htail
    have horder := perm_shuffle_answers hcount hfalling
    have htaken : Removal.moveLast.taken draws items =
        (shuffle items (⟨draws⟩ : Answers)).1.tail.reverse := by
      rw [tail_shuffle_answers hcount hfalling, List.reverse_reverse]
    have htakenOthers : Removal.moveLast.taken others items =
        (shuffle items (⟨draws⟩ : Answers)).1.tail.reverse := by
      rw [← htaken, List.reverse_inj.1 htail]
    exact (hunique _ horder).unique ⟨hfalling, htaken⟩ ⟨hfallingOthers, htakenOthers⟩
  · intro order horder
    obtain ⟨draws, ⟨hfalling, htaken⟩, -⟩ := hunique order horder
    have hcount : draws.length = items.length - 1 := by
      rw [← Removal.length_taken hfalling, htaken, List.length_reverse, List.length_tail,
        List.Perm.length_eq horder]
    refine ⟨draws, ⟨hcount, hfalling⟩, ?_⟩
    have hshuffled := perm_shuffle_answers hcount hfalling
    apply eq_of_perm_of_tail_eq (hshuffled.trans (List.Perm.symm horder))
    rw [tail_shuffle_answers hcount hfalling, htaken, List.reverse_reverse]

theorem shuffle_bijOn_letters :
    ['a', 'b', 'c', 'd'].Nodup ∧ ['d', 'a', 'c', 'b'].Perm ['a', 'b', 'c', 'd'] ∧
      ∃ draws : List Nat, draws.length = 3 ∧ Falling 4 draws ∧
        (shuffle ['a', 'b', 'c', 'd'] (⟨draws⟩ : Answers)).1 = ['d', 'a', 'c', 'b'] := by
  have hitems : ['a', 'b', 'c', 'd'].Nodup := by decide
  have horder : ['d', 'a', 'c', 'b'].Perm ['a', 'b', 'c', 'd'] := by decide
  obtain ⟨draws, ⟨hcount, hfalling⟩, hdraws⟩ := (shuffle_bijOn hitems).1.surjOn horder
  exact ⟨hitems, horder, draws, hcount, hfalling, hdraws⟩

end Worksheet
