import Worksheet.Proofs.Random.Taken
import Worksheet.Words.Library

namespace Worksheet

variable {α σ : Type}

/-- As many distinct numbers as the count says, all of them below the length. -/
structure IsSample (length count : Nat) (places : List Nat) : Prop where
  length_eq : places.length = count
  nodup : places.Nodup
  lt : ∀ place ∈ places, place < length

/-- One exchange: the item that is drawn is placed, and the first of the others moves to where it
stood. -/
theorem toList_exchange_first {pool : Array α} {before items : List α} {d : Nat} {item : α}
    (hpool : pool.toList = before ++ items) (hitem : items[d]? = some item) :
    (pool.swapIfInBounds before.length (before.length + d)).toList =
      before ++ [item] ++ Removal.moveFirst.remove d items := by
  cases items with
  | nil => cases hitem
  | cons first rest =>
    have hplace : pool.toList[before.length]? = some first := by simp [hpool]
    have hdrawn : pool.toList[before.length + d]? = some item := by
      rw [hpool, List.getElem?_append_right (Nat.le_add_right _ _), Nat.add_sub_cancel_left, hitem]
    rw [toList_swapIfInBounds hplace hdrawn, hpool, List.set_append_right _ _ (Nat.le_refl _),
      List.set_append_right _ _ (Nat.le_add_right _ _), Nat.sub_self, Nat.add_sub_cancel_left,
      List.set_cons_zero]
    cases d with
    | zero =>
      obtain rfl := Option.some.inj hitem
      simp [Removal.moveFirst]
    | succ d => simp [Removal.moveFirst]

/-- The loop of a sample: behind what is placed already come the items that the answers take, and
then those that they leave. -/
theorem toList_chooseFrom {pool : Array α} {before items : List α} {draws : List Nat}
    (hpool : pool.toList = before ++ items) (h : Falling items.length draws) :
    (chooseFrom draws.length before.length pool (⟨draws⟩ : Answers)).1.toList =
      before ++ Removal.moveFirst.taken draws items ++ Removal.moveFirst.left draws items := by
  induction draws generalizing pool before items with
  | nil => simp [chooseFrom, Removal.taken, Removal.left, hpool]
  | cons d draws ih =>
    have hitem := List.getElem?_eq_getElem (falling_cons.1 h).1
    have hnext := ih (toList_exchange_first hpool hitem) (Removal.falling_remove h)
    rw [List.length_append, List.length_singleton] at hnext
    rw [Removal.taken_cons hitem, Removal.left, List.append_cons]
    exact hnext

/-- Only the choices of a source count for the loop. -/
theorem chooseFrom_eq [RandomSource σ] (count place : Nat) (pool : Array α) (s : σ) :
    chooseFrom count place pool s =
      ((chooseFrom count place pool
          (⟨(fallingDraws count (pool.size - place) s).1⟩ : Answers)).1,
        (fallingDraws count (pool.size - place) s).2) := by
  induction count generalizing place pool s with
  | zero => rfl
  | succ count ih =>
    let drawn := RandomSource.below (pool.size - place) s
    have hnext := ih (place + 1) (pool.swapIfInBounds place (place + drawn.1)) drawn.2
    rw [Array.size_swapIfInBounds, ← Nat.sub_sub] at hnext
    exact hnext

/-- A source takes the sample that a source with its choices as answers takes. -/
theorem sampleIndices_eq [RandomSource σ] (length amount : Nat) (s : σ) :
    sampleIndices length amount s =
      ((sampleIndices length amount
          (⟨(fallingDraws (min amount length) length s).1⟩ : Answers)).1,
        (fallingDraws (min amount length) length s).2) := by
  have hloop := chooseFrom_eq (min amount length) 0 (Array.range length) s
  rw [Array.size_range, Nat.sub_zero] at hloop
  rw [sampleIndices, hloop]
  rfl

theorem sampleIndices_answers {length amount : Nat} {draws : List Nat}
    (hcount : draws.length = min amount length) (h : Falling length draws) :
    (sampleIndices length amount (⟨draws⟩ : Answers)).1 =
      Removal.moveFirst.taken draws (List.range length) := by
  have hrange : Falling (List.range length).length draws := by rwa [List.length_range]
  have hpool : (Array.range length).toList = [] ++ List.range length := by simp
  have hloop := toList_chooseFrom hpool hrange
  rw [hcount, List.nil_append, List.length_nil] at hloop
  show List.take (min amount length) (chooseFrom (min amount length) 0 (Array.range length)
    (⟨draws⟩ : Answers)).1.toList = _
  rw [hloop, List.take_left']
  rw [Removal.length_taken hrange, hcount]

theorem isSample_taken {length count : Nat} {draws : List Nat} (hcount : draws.length = count)
    (h : Falling length draws) :
    IsSample length count (Removal.moveFirst.taken draws (List.range length)) := by
  have hrange : Falling (List.range length).length draws := by rwa [List.length_range]
  refine ⟨?_, Removal.nodup_taken List.nodup_range hrange, ?_⟩
  · rw [Removal.length_taken hrange, hcount]
  · intro place hplace
    exact List.mem_range.1 (Removal.mem_of_mem_taken hrange hplace)

theorem isSample_sampleIndices [RandomSource σ] [LawfulRandomSource σ] (length amount : Nat)
    (s : σ) : IsSample length (min amount length) (sampleIndices length amount s).1 := by
  have hcount := length_fallingDraws (min amount length) length s
  have hfalling := falling_fallingDraws (Nat.min_le_right amount length) s
  rw [sampleIndices_eq, sampleIndices_answers hcount hfalling]
  exact isSample_taken hcount hfalling

section Words

variable [RandomSource σ] {library : WordLibrary} {query : String} {filter : WordFilter}

theorem WordLibrary.sample_of_pool_eq_nil (h : library.pool query filter = []) (amount : Nat)
    (s : σ) : library.sample query filter amount s =
      (.error (.notFound (Text.trim query) filter.describe), s) := by
  simp [sample, h]

theorem forall₂_words_at {pool : List WordEntry} {places : List Nat}
    (h : ∀ place ∈ places, place < pool.length) :
    List.Forall₂ (fun place word => ∃ entry, pool[place]? = some entry ∧ entry.word = word) places
      (places.filterMap fun place => pool[place]?.map (·.word)) := by
  induction places with
  | nil => exact .nil
  | cons place places ih =>
    have hplace := List.getElem?_eq_getElem (h place (by simp))
    simp only [List.filterMap_cons, hplace, Option.map_some]
    refine .cons ⟨_, hplace, rfl⟩ (ih ?_)
    intro other hother
    exact h other (by simp [hother])

theorem WordLibrary.exists_sample [LawfulRandomSource σ] (h : library.pool query filter ≠ [])
    (amount : Nat) (s : σ) :
    let pool := library.pool query filter
    ∃ words places, (library.sample query filter amount s).1 = .ok words ∧
      IsSample pool.length (min amount pool.length) places ∧
      List.Forall₂ (fun place word => ∃ entry, pool[place]? = some entry ∧ entry.word = word)
        places words := by
  intro pool
  have hsample := isSample_sampleIndices pool.length amount s
  have hempty : (library.pool query filter).isEmpty = false := by simpa using h
  refine ⟨_, _, ?_, hsample, forall₂_words_at hsample.lt⟩
  simp only [sample, hempty]
  rfl

end Words

/-- The sample is one of distinct numbers below the length for all answers within their bounds, and
each such sample is the one of exactly one list of them. A source takes the sample that its choices
take. So a query for words fails exactly if it finds none, and else gets the words at distinct
places of those it finds, as many as it asks for but no more than there are. -/
theorem sampleIndices_unbiased (length amount : Nat) :
    let count := min amount length
    (∀ draws : List Nat, draws.length = count → Falling length draws →
      IsSample length count (sampleIndices length amount (⟨draws⟩ : Answers)).1) ∧
    (∀ places : List Nat, IsSample length count places →
      ∃! draws : List Nat, draws.length = count ∧ Falling length draws ∧
        (sampleIndices length amount (⟨draws⟩ : Answers)).1 = places) ∧
    ∀ (σ : Type) [RandomSource σ] (s : σ),
      (sampleIndices length amount s =
        ((sampleIndices length amount (⟨(fallingDraws count length s).1⟩ : Answers)).1,
          (fallingDraws count length s).2)) ∧
      ∀ [LawfulRandomSource σ] (library : WordLibrary) (query : String) (filter : WordFilter),
        let pool := library.pool query filter
        let found := (library.sample query filter amount s).1
        ((∃ e, found = .error e) ↔ pool = []) ∧
        (pool ≠ [] → ∃ words places, found = .ok words ∧
          IsSample pool.length (min amount pool.length) places ∧
          List.Forall₂ (fun place word => ∃ entry, pool[place]? = some entry ∧ entry.word = word)
            places words) := by
  intro count
  refine ⟨?_, ?_, ?_⟩
  · intro draws hcount hfalling
    rw [sampleIndices_answers hcount hfalling]
    exact isSample_taken hcount hfalling
  · intro places hplaces
    have hamong : ∀ place ∈ places, place ∈ List.range length := by
      intro place hplace
      exact List.mem_range.2 (hplaces.lt place hplace)
    obtain ⟨draws, ⟨hfalling, htaken⟩, hunique⟩ :=
      Removal.moveFirst.existsUnique_taken List.nodup_range hplaces.nodup hamong
    have hcount : draws.length = count := by
      rw [← Removal.length_taken hfalling, htaken, hplaces.length_eq]
    rw [List.length_range] at hfalling
    refine ⟨draws, ⟨hcount, hfalling, ?_⟩, ?_⟩
    · rw [sampleIndices_answers hcount hfalling, htaken]
    · rintro others ⟨hcountOthers, hfallingOthers, hothers⟩
      rw [sampleIndices_answers hcountOthers hfallingOthers] at hothers
      apply hunique
      rw [List.length_range]
      exact ⟨hfallingOthers, hothers⟩
  · intro σ _ s
    refine ⟨sampleIndices_eq length amount s, ?_⟩
    intro _ library query filter pool found
    refine ⟨⟨?_, ?_⟩, ?_⟩
    · rintro ⟨e, he⟩
      by_contra hpool
      obtain ⟨words, -, hwords, -⟩ := WordLibrary.exists_sample hpool amount s
      cases he.symm.trans hwords
    · intro hpool
      exact ⟨_, congrArg Prod.fst (WordLibrary.sample_of_pool_eq_nil hpool amount s)⟩
    · intro hpool
      exact WordLibrary.exists_sample hpool amount s

/-- A library with one set of two words. -/
def WordLibrary.farm : WordLibrary where
  sets := [("farm", ⟨"farm", [], [⟨"cow", "mammals", "A1", []⟩, ⟨"hen", "birds", "A1", []⟩]⟩)]

theorem sampleIndices_unbiased_farm :
    Falling 5 [4, 0, 2] ∧ IsSample 5 3 [4, 1, 3] ∧ WordLibrary.farm.pool "Farm" {} ≠ [] ∧
      IsSample 5 3 (sampleIndices 5 3 (⟨[4, 0, 2]⟩ : Answers)).1 ∧
      (∃! draws : List Nat, draws.length = 3 ∧ Falling 5 draws ∧
        (sampleIndices 5 3 (⟨draws⟩ : Answers)).1 = [4, 1, 3]) ∧
      ∃ words, (WordLibrary.farm.sample "Farm" {} 3 (⟨[1], 0⟩ : Draws)).1 = .ok words := by
  have hfalling : Falling 5 [4, 0, 2] := by
    rw [Falling]
    decide
  have hplaces : IsSample 5 3 [4, 1, 3] := ⟨rfl, by decide, by decide⟩
  have hpool : WordLibrary.farm.pool "Farm" {} ≠ [] := by decide +kernel
  obtain ⟨hsample, hunique, hsource⟩ := sampleIndices_unbiased 5 3
  obtain ⟨-, -, hwords⟩ := sampleIndices_unbiased 3 3
  obtain ⟨words, -, hfound, -⟩ := ((hwords Draws ⟨[1], 0⟩).2 .farm "Farm" {}).2 hpool
  exact ⟨hfalling, hplaces, hpool, hsample _ rfl hfalling, hunique _ hplaces, words, hfound⟩

end Worksheet
