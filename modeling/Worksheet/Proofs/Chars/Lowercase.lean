import Worksheet.Chars.Lowercase
import Worksheet.Proofs.Chars.Trim

namespace Worksheet.Chars

/-- A character before the small letters that is its own small form. -/
structure IsSign (d : Char) : Prop where
  pos : 0 < d.toNat
  lt : d.toNat < 0x61
  small : smallCode d.toNat capitalRuns = d.toNat
  ne : d ≠ 'Σ' ∧ d ≠ '\u0130'

theorem isSign_comma : IsSign ',' := by constructor <;> decide

/-- Small forms are no smaller than the first small letter. -/
theorem le_target_of_mem_capitalRuns : ∀ run ∈ capitalRuns, 0x61 ≤ run.target := by decide +kernel

theorem smallCode_eq_or_le (n : Nat) {runs : List CapitalRun}
    (h : ∀ run ∈ runs, 0x61 ≤ run.target) : smallCode n runs = n ∨ 0x61 ≤ smallCode n runs := by
  induction runs with
  | nil => exact Or.inl rfl
  | cons run rest ih =>
    have hrun := h run (by simp)
    rw [smallCode]
    split
    · exact Or.inl rfl
    · split
      · exact Or.inr (by omega)
      · exact ih fun r hr => h r (by simp [hr])

theorem toNat_ofNat (n : Nat) : (Char.ofNat n).toNat = n ∨ (Char.ofNat n).toNat = 0 := by
  by_cases h : n.isValidChar
  · left
    rw [Char.ofNat, dif_pos h]
    rfl
  · exact Or.inr (by simp [Char.ofNat, h])

theorem mem_lowerChar_iff {d : Char} (hd : IsSign d) (c : Char) : d ∈ lowerChar c ↔ d = c := by
  rw [lowerChar]
  split
  · rename_i hc
    have hc : c = '\u0130' := by simpa using hc
    subst hc
    have hi : d ≠ 'i' := by
      rintro rfl
      exact absurd hd.lt (by decide)
    have hdot : d ≠ '\u0307' := by
      rintro rfl
      exact absurd hd.lt (by decide)
    simp [hi, hdot, hd.ne.2]
  · rw [List.mem_singleton]
    constructor
    · intro h
      have hn := toNat_ofNat (smallCode c.toNat capitalRuns)
      rw [← h] at hn
      have hpos := hd.pos
      have hlt := hd.lt
      rcases smallCode_eq_or_le c.toNat le_target_of_mem_capitalRuns with hs | hs
      · exact Char.toNat_inj.1 (by omega)
      · omega
    · rintro rfl
      rw [hd.small, Char.ofNat_toNat]

theorem mem_lowerAfter_iff {d : Char} (hd : IsSign d) (before cs : List Char) :
    d ∈ lowerAfter before cs ↔ d ∈ cs := by
  induction cs generalizing before with
  | nil => simp [lowerAfter]
  | cons c cs ih =>
    rw [lowerAfter, List.mem_append, ih, List.mem_cons]
    split
    · rename_i hc
      have hc : c = 'Σ' := by simpa using hc
      have hsigma : d ≠ 'σ' ∧ d ≠ 'ς' := by
        constructor <;> rintro rfl <;> exact absurd hd.lt (by decide)
      rw [hc]
      split <;> simp [hsigma.1, hsigma.2, hd.ne.1]
    · rw [mem_lowerChar_iff hd]

/-- Lower case neither brings in nor takes out a sign. -/
theorem mem_lower_iff {d : Char} (hd : IsSign d) (cs : List Char) : d ∈ lower cs ↔ d ∈ cs :=
  mem_lowerAfter_iff hd [] cs

/-- The code point is among the capitals of the run. -/
structure CapitalRun.Holds (run : CapitalRun) (n : Nat) : Prop where
  low : run.low ≤ n
  high : n ≤ run.high
  step : (n - run.low) % run.step = 0

/-- The small forms of a run stand before the capitals of another one, after them or between
them. -/
def CapitalRun.clearOf (run other : CapitalRun) : Bool :=
  Nat.blt (run.target + (run.high - run.low)) other.low || Nat.blt other.high run.target ||
    (other.step == 2 && (run.step == 2 || run.high == run.low) &&
      (run.target + other.low) % 2 == 1)

theorem CapitalRun.not_holds_of_clearOf {run other : CapitalRun} (h : run.clearOf other = true)
    {i : Nat} (hi : i ≤ run.high - run.low) (hstep : i % run.step = 0) :
    ¬ other.Holds (run.target + i) := by
  rintro ⟨hlow, hhigh, hother⟩
  simp only [clearOf, Bool.or_eq_true, Nat.blt_eq, Bool.and_eq_true, beq_iff_eq] at h
  rcases h with (hbefore | hafter) | ⟨⟨htwo, heven⟩, hodd⟩
  · omega
  · omega
  · have hparity : i % 2 = 0 := by
      rcases heven with hrunstep | hone
      · rwa [hrunstep] at hstep
      · omega
    rw [htwo] at hother
    omega

/-- Other code points that are no small forms: the capital I with a dot, and white space. -/
def otherRuns : List CapitalRun :=
  ⟨0x130, 0x130, 1, 0x69⟩ :: blankRanges.map fun r => ⟨r.1, r.2, 1, r.1⟩

theorem clearOf_capitalRuns :
    (capitalRuns.all fun run => (capitalRuns ++ otherRuns).all run.clearOf) = true := by
  decide +kernel

theorem holds_or_smallCode_eq (n : Nat) (runs : List CapitalRun) :
    smallCode n runs = n ∨
      ∃ run ∈ runs, run.Holds n ∧ smallCode n runs = run.target + (n - run.low) := by
  induction runs with
  | nil => exact Or.inl rfl
  | cons run rest ih =>
    rw [smallCode]
    split
    · exact Or.inl rfl
    · rename_i hlow
      split
      · rename_i hrun
        obtain ⟨hhigh, hstep⟩ : n ≤ run.high ∧ (n - run.low) % run.step = 0 := by
          simpa using hrun
        exact Or.inr ⟨run, List.mem_cons_self, ⟨Nat.le_of_not_lt hlow, hhigh, hstep⟩, rfl⟩
      · refine ih.imp_right ?_
        rintro ⟨other, hmem, hother⟩
        exact ⟨other, List.mem_cons_of_mem _ hmem, hother⟩

/-- A small form other than the code point itself is in no run. -/
theorem smallCode_cases (n : Nat) : smallCode n capitalRuns = n ∨
    ∀ other ∈ capitalRuns ++ otherRuns, ¬ other.Holds (smallCode n capitalRuns) := by
  refine (holds_or_smallCode_eq n capitalRuns).imp_right ?_
  rintro ⟨run, hrun, hholds, heq⟩ other hother
  have hclear := List.all_eq_true.1 (List.all_eq_true.1 clearOf_capitalRuns run hrun) other hother
  have hhigh : n - run.low ≤ run.high - run.low := Nat.sub_le_sub_right hholds.high _
  rw [heq]
  exact CapitalRun.not_holds_of_clearOf hclear hhigh hholds.step

theorem smallCode_eq_self {n : Nat} {runs : List CapitalRun} (h : ∀ run ∈ runs, ¬ run.Holds n) :
    smallCode n runs = n := by
  rcases holds_or_smallCode_eq n runs with heq | ⟨run, hrun, hholds, -⟩
  · exact heq
  · exact absurd hholds (h run hrun)

/-- What the small form of a character consists of: characters that are their own small forms, with
no white space among them but the character itself. -/
theorem of_mem_lowerChar {c d : Char} (h : d ∈ lowerChar c) :
    lowerChar d = [d] ∧ (isBlank d = true → d = c) := by
  rw [lowerChar] at h
  split at h
  · have hd : d = 'i' ∨ d = '\u0307' := by simpa using h
    rcases hd with rfl | rfl <;> exact ⟨by decide +kernel, fun hblank => absurd hblank (by decide)⟩
  · rename_i hdot
    rw [List.mem_singleton] at h
    rcases smallCode_cases c.toNat with hself | hclear
    · obtain rfl : d = c := by rw [h, hself, Char.ofNat_toNat]
      refine ⟨?_, fun _ => rfl⟩
      rw [lowerChar, if_neg hdot, ← h]
    · rcases toNat_ofNat (smallCode c.toNat capitalRuns) with hcode | hzero
      · rw [← h] at hcode
        rw [← hcode] at hclear
        have hnodot : ¬ (d == '\u0130') = true := by
          rw [beq_iff_eq]
          rintro rfl
          exact hclear ⟨0x130, 0x130, 1, 0x69⟩ (by simp [otherRuns]) ⟨by decide, by decide, rfl⟩
        have hsmall : smallCode d.toNat capitalRuns = d.toNat :=
          smallCode_eq_self fun run hrun => hclear run (List.mem_append_left _ hrun)
        refine ⟨?_, fun hblank => ?_⟩
        · rw [lowerChar, if_neg hnodot, hsmall, Char.ofNat_toNat]
        · obtain ⟨r, hr, hlow, hhigh⟩ := inRanges_spec hblank
          have hrun : (⟨r.1, r.2, 1, r.1⟩ : CapitalRun) ∈ capitalRuns ++ otherRuns :=
            List.mem_append_right _ (List.mem_cons_of_mem _ (List.mem_map.2 ⟨r, hr, rfl⟩))
          exact absurd ⟨hlow, hhigh, Nat.mod_one _⟩ (hclear _ hrun)
      · rw [← h] at hzero
        obtain rfl : d = '\x00' := Char.toNat_inj.1 hzero
        exact ⟨by decide +kernel, fun hblank => absurd hblank (by decide)⟩

/-- What the first character of a text becomes. -/
theorem exists_lowerAfter_cons (before : List Char) (c : Char) (cs : List Char) :
    ∃ small, small ≠ [] ∧ lowerAfter before (c :: cs) = small ++ lowerAfter (c :: before) cs ∧
      ∀ d ∈ small, lowerChar d = [d] ∧ (isBlank d = true → d = c) := by
  refine ⟨_, ?_, rfl, ?_⟩
  · split
    · split <;> simp
    · rw [lowerChar]
      split <;> simp
  · intro d hd
    split at hd
    · have hsigma : d = 'ς' ∨ d = 'σ' := by
        split at hd
        · exact Or.inl (List.mem_singleton.1 hd)
        · exact Or.inr (List.mem_singleton.1 hd)
      rcases hsigma with rfl | rfl <;>
        exact ⟨by decide +kernel, fun hblank => absurd hblank (by decide)⟩
    · exact of_mem_lowerChar hd

/-- Lower case changes nothing where all characters are their own small forms. -/
theorem lowerAfter_eq_self {cs : List Char} (h : ∀ c ∈ cs, lowerChar c = [c])
    (before : List Char) : lowerAfter before cs = cs := by
  induction cs generalizing before with
  | nil => rfl
  | cons c cs ih =>
    have hsigma : c ≠ 'Σ' := by
      rintro rfl
      exact absurd (h 'Σ' List.mem_cons_self) (by decide +kernel)
    rw [lowerAfter, ih (fun d hd => h d (List.mem_cons_of_mem _ hd)), h c List.mem_cons_self]
    simp [hsigma]

theorem lowerChar_of_mem_lowerAfter {before cs : List Char} {d : Char}
    (h : d ∈ lowerAfter before cs) : lowerChar d = [d] := by
  induction cs generalizing before with
  | nil => cases h
  | cons c cs ih =>
    obtain ⟨small, -, heq, hsmall⟩ := exists_lowerAfter_cons before c cs
    rw [heq, List.mem_append] at h
    rcases h with h | h
    · exact (hsmall d h).1
    · exact ih h

theorem lower_lower (cs : List Char) : lower (lower cs) = lower cs :=
  lowerAfter_eq_self (fun _ hd => lowerChar_of_mem_lowerAfter hd) []

theorem head?_lowerAfter {cs : List Char} (h : cs.head?.any isBlank = false)
    (before : List Char) : (lowerAfter before cs).head?.any isBlank = false := by
  cases cs with
  | nil => rfl
  | cons c cs =>
    obtain ⟨small, hne, heq, hsmall⟩ := exists_lowerAfter_cons before c cs
    obtain ⟨d, rest, rfl⟩ := List.exists_cons_of_ne_nil hne
    rw [heq, List.cons_append, List.head?_cons, Option.any_some, Bool.eq_false_iff]
    intro hblank
    obtain rfl := (hsmall d List.mem_cons_self).2 hblank
    simp [hblank] at h

theorem getLast?_lowerAfter {cs : List Char} (h : cs.getLast?.any isBlank = false)
    (before : List Char) : (lowerAfter before cs).getLast?.any isBlank = false := by
  induction cs generalizing before with
  | nil => rfl
  | cons c cs ih =>
    obtain ⟨small, hne, heq, hsmall⟩ := exists_lowerAfter_cons before c cs
    rw [heq, List.getLast?_append]
    cases cs with
    | nil =>
      rw [lowerAfter, List.getLast?_nil, Option.none_or, List.getLast?_eq_some_getLast hne,
        Option.any_some, Bool.eq_false_iff]
      intro hblank
      have hlast := (hsmall _ (List.getLast_mem hne)).2 hblank
      rw [hlast] at hblank
      simp [hblank] at h
    | cons next cs =>
      obtain ⟨other, hother, hnext, -⟩ := exists_lowerAfter_cons (c :: before) next cs
      have hrest : lowerAfter (c :: before) (next :: cs) ≠ [] := by
        rw [hnext]
        exact List.append_ne_nil_of_left_ne_nil hother _
      have hlast := ih (by simpa using h) (c :: before)
      rw [List.getLast?_eq_some_getLast hrest] at hlast ⊢
      exact hlast

theorem Tight.lower {cs : List Char} (h : Tight cs) : Tight (lower cs) :=
  ⟨head?_lowerAfter h.head [], getLast?_lowerAfter h.last []⟩

/-- White space in a small form was there before. -/
theorem mem_of_mem_lowerAfter {before cs : List Char} {d : Char} (h : d ∈ lowerAfter before cs)
    (hblank : isBlank d = true) : d ∈ cs := by
  induction cs generalizing before with
  | nil => cases h
  | cons c cs ih =>
    obtain ⟨small, -, heq, hsmall⟩ := exists_lowerAfter_cons before c cs
    rw [heq, List.mem_append] at h
    rcases h with h | h
    · rw [(hsmall d h).2 hblank]
      exact List.mem_cons_self
    · exact List.mem_cons_of_mem _ (ih h)

/-- What follows a space does not count for the letters before it. -/
theorem beginsCased_append_space (xs ys : List Char) :
    beginsCased (xs ++ ' ' :: ys) = beginsCased xs := by
  have hspace : isCaseIgnorable ' ' = false := by decide +kernel
  have hcased : isCased ' ' = false := by decide +kernel
  rw [beginsCased, beginsCased, List.dropWhile_append]
  cases xs.dropWhile isCaseIgnorable with
  | nil => simp [hspace, hcased]
  | cons c rest => rfl

theorem lowerAfter_space (before cs ys : List Char) :
    lowerAfter before (cs ++ ' ' :: ys) =
      lowerAfter before cs ++ ' ' :: lowerAfter (' ' :: (cs.reverse ++ before)) ys := by
  induction cs generalizing before with
  | nil =>
    have hspace : lowerChar ' ' = [' '] := by decide +kernel
    simp [lowerAfter, hspace]
  | cons c cs ih =>
    simp only [List.cons_append, lowerAfter, ih, beginsCased_append_space, List.reverse_cons,
      List.append_assoc, List.nil_append]

theorem lowerAfter_after_space (xs before cs : List Char) :
    lowerAfter (xs ++ ' ' :: before) cs = lowerAfter xs cs := by
  induction cs generalizing xs with
  | nil => rfl
  | cons c cs ih =>
    rw [lowerAfter, lowerAfter, beginsCased_append_space, ← List.cons_append, ih]

/-- The small forms of texts with a space between them are found one by one: the space ends a word,
so that it decides the form of a sigma before it and of none after it. -/
theorem lower_append_space (xs ys : List Char) :
    lower (xs ++ ' ' :: ys) = lower xs ++ ' ' :: lower ys := by
  have hafter := lowerAfter_after_space [] (xs.reverse ++ []) ys
  rw [List.nil_append] at hafter
  rw [lower, lowerAfter_space, hafter]
  rfl

end Worksheet.Chars
