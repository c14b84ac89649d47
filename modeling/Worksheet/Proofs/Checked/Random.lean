import Worksheet.Eval.Builtin
import Worksheet.Proofs.Checked.Access

namespace Worksheet.Checked

variable {σ α β : Type}

/-- Safe choices come to the same from every state of the source. -/
theorem safe_iff {c : OptionT (StateM σ) α} {x : StateM σ α} :
    Safe c x ↔ ∀ s, c.run s = (some (x s).1, (x s).2) :=
  ⟨fun h s => congrFun h s, funext⟩

/-- A computation goes on with what a choice can come to. -/
theorem Safe.bind_result {c : OptionT (StateM σ) α} {x : StateM σ α} {f : α → OptionT (StateM σ) β}
    {g : α → StateM σ β} (hc : Safe c x) (hf : ∀ s, Safe (f (x s).1) (g (x s).1)) :
    Safe (c >>= f) (x >>= g) := by
  rw [safe_iff] at hc ⊢
  intro s
  have hs := safe_iff.1 (hf s) (x s).2
  rw [OptionT.run_bind]
  show (match c.run s with
    | (a, s) => (Option.elim a (pure none) fun a => (f a).run : StateM σ _) s) = _
  rw [hc]
  exact hs

theorem eachWord_eq (change : List Char → StateM σ (List Char)) (words : List (List Char)) :
    Builtin.eachWord change words = (words.mapM change : StateM σ (List (List Char))) := by
  induction words with
  | nil => rfl
  | cons word rest ih =>
    rw [List.mapM_cons, ← ih]
    rfl

variable [RandomSource σ]

/-- A choice below a bound. -/
def draw (bound : Nat) : StateM σ Nat :=
  fun s => RandomSource.below bound s

def shuffleFrom : Nat → Array α → OptionT (StateM σ) (Array α)
  | 0, items => pure items
  | count + 1, items => do
    let place ← OptionT.lift (draw (count + 2))
    shuffleFrom count (← access (exchange items (count + 1) place))

def shuffle (items : List α) : OptionT (StateM σ) (List α) :=
  (·.toList) <$> shuffleFrom (items.length - 1) items.toArray

/-- Exchanges places from the given one on, of as many as the given length. -/
def chooseFrom (length : Nat) : Nat → Nat → Array α → OptionT (StateM σ) (Array α)
  | 0, _, pool => pure pool
  | count + 1, place, pool => do
    let step ← OptionT.lift (draw (← access (sub length place)))
    chooseFrom length count (place + 1) (← access (exchange pool place (place + step)))

def sampleIndices (length amount : Nat) : OptionT (StateM σ) (List Nat) :=
  let count := min amount length
  (·.toList.take count) <$> chooseFrom length count 0 (Array.range length)

def sample (library : WordLibrary) (query : String) (filter : WordFilter) (amount : Nat) :
    OptionT (StateM σ) (Except WordError (List String)) :=
  let pool := library.pool query filter
  if pool.isEmpty then pure (.error (.notFound (Text.trim query) filter.describe))
  else do
    let places ← sampleIndices pool.length amount
    .ok <$> access (places.mapM fun i => pool[i]?.map (·.word))

/-- Writes a gap to one place after the other. -/
def putAll (gap : α) : List Nat → List α → Option (List α)
  | [], items => some items
  | place :: places, items => do putAll gap places (← put items place gap)

def maskWords (amount : Nat) (words : List (List Char)) :
    OptionT (StateM σ) (List (List Char)) := do
  let places ← sampleIndices words.length amount
  access (putAll ['_', '_', '_'] places words)

def maskWord (amount : Nat) (word : List Char) : OptionT (StateM σ) (List Char) := do
  let letters := (List.range word.length).filter fun i => word[i]?.any Chars.isAlphabetic
  let picks ← sampleIndices letters.length amount
  access (do putAll '_' (← picks.mapM (letters[·]?)) word)

/-- Changes the words of a text. -/
def applyMode (mode : Builtin.Mode) (amount : Nat) (words : List (List Char)) :
    OptionT (StateM σ) (List (List Char)) :=
  match mode with
  | .words => shuffle words
  | .letters => words.mapM shuffle
  | .mask => maskWords amount words
  | .maskLetters => words.mapM (maskWord amount)

section Bounds

theorem mem_swapIfInBounds {a : α} {items : Array α} {i j : Nat} :
    a ∈ items.swapIfInBounds i j ↔ a ∈ items := by
  rw [Array.swapIfInBounds_def]
  split
  · split
    · exact (Array.swap_perm _ _).mem_iff
    · rfl
  · rfl

theorem mem_chooseFrom {a : α} {count place : Nat} {pool : Array α} {s : σ} :
    a ∈ (Worksheet.chooseFrom count place pool s).1 ↔ a ∈ pool := by
  induction count generalizing place pool s with
  | zero => rfl
  | succ count ih => rw [Worksheet.chooseFrom, ih, mem_swapIfInBounds]

theorem lt_of_mem_sampleIndices {length amount i : Nat} {s : σ}
    (h : i ∈ (Worksheet.sampleIndices length amount s).1) : i < length := by
  have hmem : i ∈ (Worksheet.chooseFrom (min amount length) 0 (Array.range length) s).1 :=
    Array.mem_toList_iff.1 (List.mem_of_mem_take h)
  simpa using mem_chooseFrom.1 hmem

theorem replaceAt_cons (place : Nat) (places : List Nat) (gap : α) (items : List α) :
    Builtin.replaceAt (place :: places) gap items =
      Builtin.replaceAt places gap (items.set place gap) := by
  apply List.ext_getElem?
  intro i
  by_cases hi : i = place
  · subst hi
    by_cases hlt : i < items.length
    · simp [Builtin.replaceAt, hlt]
    · simp [Builtin.replaceAt, hlt]
  · simp [Builtin.replaceAt, hi, Ne.symm hi]

theorem replaceAt_nil (gap : α) (items : List α) : Builtin.replaceAt [] gap items = items := by
  apply List.ext_getElem?
  intro i
  simp [Builtin.replaceAt]

theorem putAll_eq {gap : α} {places : List Nat} {items : List α}
    (h : ∀ place ∈ places, place < items.length) :
    putAll gap places items = some (Builtin.replaceAt places gap items) := by
  induction places generalizing items with
  | nil => rw [putAll, replaceAt_nil]
  | cons place places ih =>
    rw [putAll, put_of_lt (h place (by simp)), replaceAt_cons]
    refine ih fun other hother => ?_
    rw [List.length_set]
    exact h other (by simp [hother])

end Bounds

section Safe

variable [LawfulRandomSource σ]

/-- A choice may be relied on to be below its bound. -/
theorem safe_draw {bound : Nat} {f : Nat → OptionT (StateM σ) α} {g : Nat → StateM σ α}
    (h : ∀ n < max bound 1, Safe (f n) (g n)) :
    Safe (OptionT.lift (draw bound) >>= f) (draw bound >>= g) :=
  Safe.bind_result (safe_lift (draw bound)) fun s =>
    h _ (LawfulRandomSource.below_lt bound s)

theorem shuffleFrom_safe (count : Nat) (items : Array α) (h : count < items.size ∨ count = 0) :
    Safe (shuffleFrom count items) (Worksheet.shuffleFrom count items : σ → Array α × σ) := by
  induction count generalizing items with
  | zero => exact safe_pure (m := StateM σ) items
  | succ count ih =>
    refine safe_draw (g := fun place => Worksheet.shuffleFrom count
      (items.swapIfInBounds (count + 1) place)) fun place hplace => ?_
    refine Safe.after ?_ (exchange_of_lt (by omega) (by omega))
    exact ih _ (Or.inl (by rw [Array.size_swapIfInBounds]; omega))

theorem shuffle_safe (items : List α) :
    Safe (shuffle items) (Worksheet.shuffle items : σ → List α × σ) := by
  refine (shuffleFrom_safe _ _ ?_).map (·.toList)
  rw [List.size_toArray]
  omega

theorem chooseFrom_safe {length count place : Nat} {pool : Array α} (hsize : pool.size = length)
    (h : place + count ≤ length) : Safe (chooseFrom length count place pool)
      (Worksheet.chooseFrom count place pool : σ → Array α × σ) := by
  induction count generalizing place pool with
  | zero => exact safe_pure (m := StateM σ) pool
  | succ count ih =>
    refine Safe.after ?_ (sub_of_le (by omega))
    rw [← hsize]
    refine safe_draw (g := fun step => Worksheet.chooseFrom count (place + 1)
      (pool.swapIfInBounds place (place + step))) fun step hstep => ?_
    refine Safe.after ?_ (exchange_of_lt (by omega) (by omega))
    rw [hsize]
    exact ih (by rw [Array.size_swapIfInBounds, hsize]) (by omega)

theorem sampleIndices_safe (length amount : Nat) : Safe (sampleIndices length amount)
    (Worksheet.sampleIndices length amount : σ → List Nat × σ) := by
  refine (chooseFrom_safe ?_ ?_).map _
  · simp
  · omega

theorem sample_safe (library : WordLibrary) (query : String) (filter : WordFilter) (amount : Nat) :
    Safe (sample library query filter amount)
      (library.sample query filter amount : σ → Except WordError (List String) × σ) := by
  obtain ⟨pool, hpool⟩ : ∃ pool, pool = library.pool query filter := ⟨_, rfl⟩
  have hread : Safe (do
        let places ← sampleIndices pool.length amount
        .ok <$> access (places.mapM fun i => pool[i]?.map (·.word)))
      ((Worksheet.sampleIndices pool.length amount : StateM σ (List Nat)) >>= fun places =>
        (pure (.ok (places.filterMap fun i => pool[i]?.map (·.word))) :
          StateM σ (Except WordError (List String)))) := by
    refine Safe.bind_result (sampleIndices_safe _ _) fun s => ?_
    refine (safe_access (mapM_eq_filterMap fun i hi => ?_)).map (m := StateM σ) _
    have hlt := lt_of_mem_sampleIndices hi
    simp [hlt]
  rw [safe_iff] at hread ⊢
  intro s
  rw [sample, WordLibrary.sample]
  dsimp only
  rw [← hpool]
  split
  · rfl
  · exact hread s

theorem maskWords_safe (amount : Nat) (words : List (List Char)) :
    Safe (maskWords amount words) (Builtin.maskWords amount words : σ → List (List Char) × σ) := by
  refine Safe.bind_result (g := fun places => pure
    (Builtin.replaceAt places ['_', '_', '_'] words)) (sampleIndices_safe _ _) fun s => ?_
  exact safe_access (putAll_eq fun place hplace => lt_of_mem_sampleIndices hplace)

theorem maskWord_safe (amount : Nat) (word : List Char) :
    Safe (maskWord amount word) (Builtin.maskWord amount word : σ → List Char × σ) := by
  obtain ⟨letters, hletters⟩ : ∃ letters, letters =
      (List.range word.length).filter fun i => word[i]?.any Chars.isAlphabetic := ⟨_, rfl⟩
  have hmask : Safe (do
        let picks ← sampleIndices letters.length amount
        access (do putAll '_' (← picks.mapM (letters[·]?)) word))
      ((Worksheet.sampleIndices letters.length amount : StateM σ (List Nat)) >>= fun picks =>
        (pure (Builtin.replaceAt (picks.filterMap (letters[·]?)) '_' word) :
          StateM σ (List Char))) := by
    refine Safe.bind_result (sampleIndices_safe _ _) fun s => safe_access ?_
    have hpicks : ∀ pick ∈ (Worksheet.sampleIndices letters.length amount s).1,
        (letters[pick]?).isSome := by
      intro pick hpick
      simp [lt_of_mem_sampleIndices hpick]
    rw [mapM_eq_filterMap hpicks]
    refine putAll_eq fun place hplace => ?_
    -- The places that are picked are those of letters of the word.
    obtain ⟨pick, -, hpick⟩ := List.mem_filterMap.1 hplace
    have hmem := List.mem_of_getElem? hpick
    rw [hletters] at hmem
    exact List.mem_range.1 (List.mem_filter.1 hmem).1
  rw [hletters] at hmask
  exact hmask

theorem applyMode_safe (mode : Builtin.Mode) (amount : Nat) (words : List (List Char)) :
    Safe (applyMode mode amount words) (mode.apply amount words : σ → List (List Char) × σ) := by
  cases mode with
  | words => exact shuffle_safe words
  | letters =>
    have h : Safe (applyMode .letters amount words)
        (words.mapM Worksheet.shuffle : StateM σ (List (List Char))) :=
      Safe.mapM fun word _ => shuffle_safe word
    rwa [← eachWord_eq] at h
  | mask => exact maskWords_safe amount words
  | maskLetters =>
    have h : Safe (applyMode .maskLetters amount words)
        (words.mapM (Builtin.maskWord amount) : StateM σ (List (List Char))) :=
      Safe.mapM fun word _ => maskWord_safe amount word
    rwa [← eachWord_eq] at h

end Safe

end Worksheet.Checked
