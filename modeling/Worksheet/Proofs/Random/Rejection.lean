import Mathlib.Data.Int.CardIntervalMod
import Mathlib.Data.Set.Card
import Mathlib.Data.UInt
import Worksheet.Random

namespace Worksheet

variable {σ : Type}

namespace WordSource

variable [WordSource σ]

/-- The source once a number of words have been taken from it. -/
def after : Nat → σ → σ
  | 0, s => s
  | n + 1, s => after n (next s).2

/-- The word that comes after a number of others. -/
def word (n : Nat) (s : σ) : UInt64 :=
  (next (after n s)).1

end WordSource

/-- Whether a word is accepted for a bound. -/
def Accepted (bound : Nat) (w : UInt64) : Prop :=
  w.toNat < acceptedBelow bound

section Counting

variable {bound : Nat}

theorem dvd_acceptedBelow (bound : Nat) : bound ∣ acceptedBelow bound :=
  Nat.dvd_sub_mod _

theorem acceptedBelow_le (bound : Nat) : acceptedBelow bound ≤ 2 ^ 64 - 1 :=
  Nat.sub_le _ _

/-- The arithmetic of words does not wrap around here. -/
theorem toNat_acceptedBelow (hlt : bound < 2 ^ 64) :
    (0xFFFFFFFFFFFFFFFF - 0xFFFFFFFFFFFFFFFF % UInt64.ofNat bound : UInt64).toNat =
      acceptedBelow bound := by
  have hbound : (UInt64.ofNat bound).toNat = bound := UInt64.toNat_ofNat_of_lt' hlt
  have hlargest : (0xFFFFFFFFFFFFFFFF : UInt64).toNat = 2 ^ 64 - 1 := rfl
  have hle : 0xFFFFFFFFFFFFFFFF % UInt64.ofNat bound ≤ (0xFFFFFFFFFFFFFFFF : UInt64) := by
    rw [UInt64.le_iff_toNat_le, UInt64.toNat_mod]
    exact Nat.mod_le _ _
  rw [UInt64.toNat_sub_of_le _ _ hle, UInt64.toNat_mod, hbound, hlargest]
  rfl

/-- A remainder is less than the bound, and for a large bound it is what the bound leaves. -/
theorem half_le_acceptedBelow (hpos : 0 < bound) (hlt : bound < 2 ^ 64) :
    2 ^ 63 ≤ acceptedBelow bound := by
  have hmod : (2 ^ 64 - 1) % bound < bound := Nat.mod_lt _ hpos
  rw [acceptedBelow]
  show 2 ^ 63 ≤ (2 ^ 64 - 1) - (2 ^ 64 - 1) % bound
  by_cases hsmall : bound ≤ 2 ^ 63
  · omega
  · have hlarge : (2 ^ 64 - 1) % bound = 2 ^ 64 - 1 - bound := by
      rw [Nat.mod_eq_sub_mod (by omega), Nat.mod_eq_of_lt (by omega)]
    omega

/-- The words below a number that have a property are as many as the numbers that do. -/
theorem ncard_words (p : Nat → Prop) [DecidablePred p] {n : Nat} (h : n ≤ 2 ^ 64) :
    {w : UInt64 | w.toNat < n ∧ p w.toNat}.ncard = Nat.count p n := by
  have himage : UInt64.toNat '' {w : UInt64 | w.toNat < n ∧ p w.toNat} =
      ↑((Finset.range n).filter p) := by
    ext m
    simp only [Set.mem_image, Set.mem_ofPred_eq, Finset.coe_filter, Finset.mem_range]
    constructor
    · rintro ⟨w, hw, rfl⟩
      exact hw
    · intro hm
      have hlt : m < UInt64.size := Nat.lt_of_lt_of_le hm.1 h
      have hword : (UInt64.ofNat m).toNat = m := UInt64.toNat_ofNat_of_lt' hlt
      exact ⟨UInt64.ofNat m, by rwa [hword], hword⟩
  rw [← Set.ncard_image_of_injective _ (fun _ _ => UInt64.toNat.inj), himage,
    Set.ncard_coe_finset, Nat.count_eq_card_filter_range]

theorem card_words : Nat.card UInt64 = 2 ^ 64 := by
  have hall := ncard_words (fun _ => True) (Nat.le_refl (2 ^ 64))
  have huniv : {w : UInt64 | w.toNat < 2 ^ 64 ∧ True} = Set.univ := by
    ext w
    simpa using w.toNat_lt
  rw [huniv, Set.ncard_univ, Nat.count_true] at hall
  exact hall

theorem ncard_accepted (bound : Nat) : {w | Accepted bound w}.ncard = acceptedBelow bound := by
  have hle := acceptedBelow_le bound
  have hall := ncard_words (fun _ => True) (show acceptedBelow bound ≤ 2 ^ 64 by omega)
  rw [Nat.count_true] at hall
  simpa [Accepted] using hall

theorem ncard_accepted_mod {r : Nat} (h : r < bound) :
    {w | Accepted bound w ∧ w.toNat % bound = r}.ncard = acceptedBelow bound / bound := by
  have hle := acceptedBelow_le bound
  have hmod : acceptedBelow bound % bound = 0 :=
    Nat.mod_eq_zero_of_dvd (dvd_acceptedBelow bound)
  have hcount := Nat.count_modEq_card (acceptedBelow bound) (show 0 < bound by omega) r
  rw [hmod, if_neg (Nat.not_lt_zero _), Nat.add_zero] at hcount
  rw [← hcount, ← ncard_words _ (show acceptedBelow bound ≤ 2 ^ 64 by omega)]
  simp only [Accepted, Nat.ModEq, Nat.mod_eq_of_lt h]

end Counting

section Search

variable [WordSource σ] {bound : Nat}

/-- The search goes on until a word is accepted. The induction is on the words that are rejected. -/
theorem firstAccepted_of_first (hpos : 0 < bound) {n : Nat} {s : σ}
    (haccepted : Accepted bound (WordSource.word n s))
    (hrejected : ∀ m < n, ¬ Accepted bound (WordSource.word m s)) :
    firstAccepted bound hpos s =
      (⟨(WordSource.word n s).toNat % bound, Nat.mod_lt _ hpos⟩, WordSource.after (n + 1) s) := by
  induction n generalizing s with
  | zero =>
    rw [firstAccepted_eq]
    exact if_pos haccepted
  | succ n ih =>
    have hfirst : ¬ Accepted bound (WordSource.word 0 s) := hrejected 0 (Nat.succ_pos n)
    have hnext := ih (s := (WordSource.next s).2) haccepted fun m hm =>
      hrejected (m + 1) (Nat.succ_lt_succ hm)
    rw [firstAccepted_eq]
    exact (if_neg hfirst).trans hnext

theorem Uniform.below_of_first {n : Nat} {s : σ} (hbound : 2 ≤ bound)
    (haccepted : Accepted bound (WordSource.word n s))
    (hrejected : ∀ m < n, ¬ Accepted bound (WordSource.word m s)) :
    below bound ⟨s⟩ = ((WordSource.word n s).toNat % bound, ⟨WordSource.after (n + 1) s⟩) := by
  have hlarge : ¬ bound ≤ 1 := by omega
  rw [below, dif_neg hlarge, firstAccepted_of_first _ haccepted hrejected]

end Search

/-- The number below which words are accepted can be computed with words. Each choice is the
remainder of equally many accepted words, and at least half of all words are accepted. A source some
word of which is accepted makes the choice that is the remainder of the first such word, and goes on
behind it. -/
theorem Uniform.below_unbiased {bound : Nat} (hbound : 2 ≤ bound) (hlt : bound < 2 ^ 64) :
    (0xFFFFFFFFFFFFFFFF - 0xFFFFFFFFFFFFFFFF % UInt64.ofNat bound : UInt64).toNat =
        acceptedBelow bound ∧
      bound ∣ acceptedBelow bound ∧ 2 ^ 63 ≤ acceptedBelow bound ∧
      (∀ r < bound, {w | Accepted bound w ∧ w.toNat % bound = r}.ncard =
        acceptedBelow bound / bound) ∧
      Nat.card UInt64 ≤ 2 * {w | Accepted bound w}.ncard ∧
      ∀ (σ : Type) [WordSource σ] (s : σ), (∃ n, Accepted bound (WordSource.word n s)) →
        ∃ n, Accepted bound (WordSource.word n s) ∧
          (∀ m < n, ¬ Accepted bound (WordSource.word m s)) ∧
          RandomSource.below bound (⟨s⟩ : Uniform σ) =
            ((WordSource.word n s).toNat % bound, ⟨WordSource.after (n + 1) s⟩) ∧
          (WordSource.word n s).toNat % bound < bound := by
  have hhalf := half_le_acceptedBelow (show 0 < bound by omega) hlt
  refine ⟨toNat_acceptedBelow hlt, dvd_acceptedBelow bound, hhalf, ?_, ?_, ?_⟩
  · intro r hr
    exact ncard_accepted_mod hr
  · rw [ncard_accepted, card_words]
    omega
  · intro σ _ s hsome
    classical
    have haccepted := Nat.find_spec hsome
    have hrejected : ∀ m < Nat.find hsome, ¬ Accepted bound (WordSource.word m s) :=
      fun m hm => Nat.find_min hsome hm
    exact ⟨Nat.find hsome, haccepted, hrejected, below_of_first hbound haccepted hrejected,
      Nat.mod_lt _ (by omega)⟩

/-- A source of listed words, and then of the word 0. -/
structure ListedWords where
  values : List UInt64

instance : WordSource ListedWords where
  next s := (s.values.headD 0, ⟨s.values.tail⟩)

/-- A source that first gives the largest word, which no bound accepts. -/
def ListedWords.atEnd : ListedWords := ⟨[0xFFFFFFFFFFFFFFFF, 5]⟩

theorem Uniform.below_unbiased_large :
    2 ≤ 2 ^ 63 + 1 ∧ 2 ^ 63 + 1 < 2 ^ 64 ∧
      ¬ Accepted (2 ^ 63 + 1) (WordSource.word 0 ListedWords.atEnd) ∧
      Accepted (2 ^ 63 + 1) (WordSource.word 1 ListedWords.atEnd) ∧
      (RandomSource.below (2 ^ 63 + 1) (⟨.atEnd⟩ : Uniform ListedWords)).1 = 5 := by
  have hfirst : ¬ Accepted (2 ^ 63 + 1) (WordSource.word 0 ListedWords.atEnd) := by
    rw [Accepted]
    decide
  have hsecond : Accepted (2 ^ 63 + 1) (WordSource.word 1 ListedWords.atEnd) := by
    rw [Accepted]
    decide
  have hlow : 2 ≤ 2 ^ 63 + 1 := by decide
  have hhigh : 2 ^ 63 + 1 < 2 ^ 64 := by decide
  obtain ⟨-, -, -, -, -, hsource⟩ := below_unbiased hlow hhigh
  obtain ⟨n, haccepted, hrejected, hbelow, -⟩ := hsource ListedWords .atEnd ⟨1, hsecond⟩
  have hplace : n = 1 := by
    have hpos : n ≠ 0 := by
      rintro rfl
      exact hfirst haccepted
    have hle : ¬ 1 < n := fun hlt => hrejected 1 hlt hsecond
    omega
  subst hplace
  refine ⟨hlow, hhigh, hfirst, hsecond, ?_⟩
  rw [hbelow]
  decide

end Worksheet
