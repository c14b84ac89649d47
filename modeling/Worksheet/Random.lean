namespace Worksheet

/-- A source of choices. -/
class RandomSource (σ : Type) where
  /-- A choice among the numbers below the bound. There is nothing to choose below 0 and 1, where
  the answer is 0. -/
  below : Nat → σ → Nat × σ

/-- Every choice respects its bound. -/
class LawfulRandomSource (σ : Type) [RandomSource σ] : Prop where
  below_lt : ∀ (bound : Nat) (s : σ), (RandomSource.below bound s).1 < max bound 1

/-- Replays a list of draws over and over. Each is reduced to its bound, and without draws all
choices are 0. -/
structure Draws where
  values : List Nat
  /-- Number of draws so far. -/
  used : Nat := 0
  deriving DecidableEq, Repr

namespace Draws

def below (bound : Nat) (d : Draws) : Nat × Draws :=
  if bound ≤ 1 || d.values.isEmpty then (0, d)
  else ((d.values[d.used % d.values.length]?).getD 0 % bound, { d with used := d.used + 1 })

instance : RandomSource Draws := ⟨below⟩

instance : LawfulRandomSource Draws where
  below_lt bound d := by
    simp only [RandomSource.below, below]
    split
    · show 0 < max bound 1
      omega
    · rename_i h
      simp only [Bool.or_eq_true, decide_eq_true_eq, not_or] at h
      have := Nat.mod_lt ((d.values[d.used % d.values.length]?).getD 0) (show bound > 0 by omega)
      simp; omega

end Draws

/-- A source of 64-bit words. -/
class WordSource (σ : Type) where
  next : σ → UInt64 × σ

/-- The largest multiple of the bound that a word can count up to. Words from here on are rejected,
so that each number below the bound is the remainder of equally many accepted words. -/
def acceptedBelow (bound : Nat) : Nat :=
  (Nat.pow 2 64 - 1) - (Nat.pow 2 64 - 1) % bound

/-- The remainder of the first accepted word, with what is left of the source. The search for the
word ends only if there is one. -/
def firstAccepted [WordSource σ] (bound : Nat) (h : 0 < bound) (s : σ) : Fin bound × σ :=
  have : Nonempty (Fin bound × σ) := ⟨⟨0, h⟩, s⟩
  repeatM (m := Id) (fun s =>
    let (word, rest) := WordSource.next s
    if word.toNat < acceptedBelow bound then .inr (⟨word.toNat % bound, Nat.mod_lt _ h⟩, rest)
    else .inl rest) s

/-- One word of the search. -/
theorem firstAccepted_eq [WordSource σ] {bound : Nat} (h : 0 < bound) (s : σ) :
    firstAccepted bound h s =
      if (WordSource.next s).1.toNat < acceptedBelow bound then
        (⟨(WordSource.next s).1.toNat % bound, Nat.mod_lt _ h⟩, (WordSource.next s).2)
      else firstAccepted bound h (WordSource.next s).2 := by
  have : Nonempty (Fin bound × σ) := ⟨⟨0, h⟩, s⟩
  rw [firstAccepted, repeatM_eq_of_monadTail]
  by_cases haccepted : (WordSource.next s).1.toNat < acceptedBelow bound
  · simp only [repeatM.body, if_pos haccepted]
    rfl
  · simp only [repeatM.body, if_neg haccepted]
    rfl

/-- Makes choices from words. At least half of all words are accepted for every bound. -/
structure Uniform (σ : Type) where
  words : σ

namespace Uniform

def below [WordSource σ] (bound : Nat) (u : Uniform σ) : Nat × Uniform σ :=
  if h : bound ≤ 1 then (0, u)
  else
    let (choice, rest) := firstAccepted bound (Nat.zero_lt_of_lt (Nat.lt_of_not_le h)) u.words
    (choice, ⟨rest⟩)

instance [WordSource σ] : RandomSource (Uniform σ) := ⟨below⟩

instance [WordSource σ] : LawfulRandomSource (Uniform σ) where
  below_lt bound u := by
    simp only [RandomSource.below, below]
    split
    · show 0 < max bound 1
      omega
    · rename_i h
      have hlt := (firstAccepted bound (Nat.zero_lt_of_lt (Nat.lt_of_not_le h)) u.words).1.isLt
      simp only
      omega

end Uniform

/-- A counter in steps of an odd number whose values are scrambled into words. -/
structure SplitMix where
  state : UInt64

namespace SplitMix

def scramble (z : UInt64) : UInt64 :=
  let z := (z ^^^ (z >>> 30)) * 0xBF58476D1CE4E5B9
  let z := (z ^^^ (z >>> 27)) * 0x94D049BB133111EB
  z ^^^ (z >>> 31)

instance : WordSource SplitMix where
  next g :=
    let state := g.state + 0x9E3779B97F4A7C15
    (scramble state, ⟨state⟩)

end SplitMix

variable [RandomSource σ]

/-- Exchanges each of the places `count`, …, 1 with a chosen one that is not above it. -/
def shuffleFrom : Nat → Array α → σ → Array α × σ
  | 0, items, s => (items, s)
  | count + 1, items, s =>
    let (j, s) := RandomSource.below (count + 2) s
    shuffleFrom count (items.swapIfInBounds (count + 1) j) s

/-- A random order of the items. -/
def shuffle (items : List α) (s : σ) : List α × σ :=
  let (shuffled, s) := shuffleFrom (items.length - 1) items.toArray s
  (shuffled.toList, s)

/-- Exchanges `count` places from the given one on with chosen ones that are not below them. -/
def chooseFrom : Nat → Nat → Array α → σ → Array α × σ
  | 0, _, pool, s => (pool, s)
  | count + 1, place, pool, s =>
    let (step, s) := RandomSource.below (pool.size - place) s
    chooseFrom count (place + 1) (pool.swapIfInBounds place (place + step)) s

/-- Distinct numbers below `length` in the order in which they are drawn, as many as asked for but
no more than there are. -/
def sampleIndices (length amount : Nat) (s : σ) : List Nat × σ :=
  let count := min amount length
  let (pool, s) := chooseFrom count 0 (Array.range length) s
  (pool.toList.take count, s)

end Worksheet
