namespace Worksheet.Chars

/-- Whether a code point lies in one of the ranges, which are given in increasing order. -/
def inRanges (n : Nat) : List (Nat × Nat) → Bool
  | [] => false
  | (low, high) :: rest =>
    if n < low then false else n ≤ high || inRanges n rest

theorem inRanges_spec {n : Nat} {ranges : List (Nat × Nat)} (h : inRanges n ranges = true) :
    ∃ r ∈ ranges, r.1 ≤ n ∧ n ≤ r.2 := by
  induction ranges with
  | nil => simp [inRanges] at h
  | cons r rest ih =>
    rw [inRanges] at h
    split at h
    · simp at h
    · simp only [Bool.or_eq_true, decide_eq_true_eq] at h
      rcases h with h | h
      · exact ⟨r, by simp, by omega, h⟩
      · obtain ⟨s, hs, hn⟩ := ih h
        exact ⟨s, by simp [hs], hn⟩

end Worksheet.Chars
