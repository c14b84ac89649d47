import Worksheet.Chars.Basic

namespace Worksheet.Chars

/-- An offset behind a text that is not empty is behind the first character. -/
theorem exists_add_size_cons (n : Nat) (c : Char) (cs : List Char) :
    ∃ m, n + size (c :: cs) = m + 1 ∧ c.utf8Size ≤ m + 1 ∧ m + 1 - c.utf8Size = n + size cs := by
  have hpos := Char.utf8Size_pos c
  refine ⟨n + size (c :: cs) - 1, ?_, ?_, ?_⟩ <;> rw [size_cons] <;> omega

theorem eq_nil_of_size_eq_zero {cs : List Char} (h : size cs = 0) : cs = [] := by
  cases cs with
  | nil => rfl
  | cons c cs =>
    have hpos := Char.utf8Size_pos c
    rw [size_cons] at h
    omega

/-- Of two beginnings of a text the one with more bytes goes on from the other. -/
theorem exists_of_size_le {xs ys before after : List Char} (h : xs ++ ys = before ++ after)
    (hsize : size xs ≤ size before) : ∃ mid, before = xs ++ mid ∧ ys = mid ++ after := by
  rcases List.append_eq_append_iff.1 h with ⟨mid, hbefore, hys⟩ | ⟨mid, hxs, hafter⟩
  · exact ⟨mid, hbefore, hys⟩
  · rw [hxs, size_append] at hsize
    obtain rfl : mid = [] := eq_nil_of_size_eq_zero (by omega)
    exact ⟨[], by rw [hxs, List.append_nil, List.append_nil], hafter.symm⟩

theorem of_cut? {n : Nat} {cs before after : List Char} (h : cut? n cs = some (before, after)) :
    before ++ after = cs ∧ size before = n := by
  induction cs generalizing n before with
  | nil =>
    cases n with
    | zero =>
      simp only [cut?, Option.some.injEq, Prod.mk.injEq] at h
      simp [← h.1, ← h.2]
    | succ n => simp [cut?] at h
  | cons c cs ih =>
    cases n with
    | zero =>
      simp only [cut?, Option.some.injEq, Prod.mk.injEq] at h
      simp [← h.1, ← h.2]
    | succ n =>
      rw [cut?] at h
      split at h
      · obtain ⟨⟨b, a⟩, hb, he⟩ := Option.map_eq_some_iff.1 h
        simp only [Prod.mk.injEq] at he
        obtain ⟨rfl, rfl⟩ := he
        obtain ⟨hcs, hsize⟩ := ih hb
        refine ⟨by rw [List.cons_append, hcs], ?_⟩
        rw [size_cons, hsize]
        omega
      · cases h

theorem cut?_append_of_le {n : Nat} {xs : List Char} (h : n ≤ size xs) (ys : List Char) :
    cut? n (xs ++ ys) = (cut? n xs).map fun (before, after) => (before, after ++ ys) := by
  induction xs generalizing n with
  | nil =>
    obtain rfl : n = 0 := by simpa using h
    simp [cut?]
  | cons c cs ih =>
    cases n with
    | zero => simp [cut?]
    | succ n =>
      rw [List.cons_append, cut?, cut?]
      split
      · rw [size_cons] at h
        rw [ih (by omega), Option.map_map, Option.map_map]
        rfl
      · rfl

theorem cut?_add_size (n : Nat) (xs ys : List Char) :
    cut? (n + size xs) (xs ++ ys) = (cut? n ys).map fun (before, after) =>
      (xs ++ before, after) := by
  induction xs with
  | nil => simp
  | cons c cs ih =>
    obtain ⟨m, hm, hle, hsub⟩ := exists_add_size_cons n c cs
    rw [hm, List.cons_append, cut?, if_pos hle, hsub, ih, Option.map_map]
    rfl

theorem append_of_slice? {cs text : List Char} {span : Span} (h : slice? cs span = some text) :
    ∃ before after, before ++ text ++ after = cs ∧ size before = span.start ∧
      span.stop = span.start + size text := by
  rw [slice?] at h
  split at h
  · cases h
  · rename_i hle
    simp only [Option.bind_eq_bind, Option.bind_eq_some_iff] at h
    obtain ⟨⟨before, rest⟩, hbefore, ⟨inside, after⟩, hinside, htext⟩ := h
    obtain rfl : inside = text := Option.some.inj htext
    obtain ⟨rfl, hstart⟩ := of_cut? hbefore
    obtain ⟨rfl, hsize⟩ := of_cut? hinside
    exact ⟨before, after, List.append_assoc _ _ _, hstart, by omega⟩

theorem slice?_append_of_le {s : Span} {xs : List Char} (h : s.stop ≤ size xs) (ys : List Char) :
    slice? (xs ++ ys) s = slice? xs s := by
  rw [slice?, slice?]
  split
  · rfl
  · rename_i hle
    rw [cut?_append_of_le (by omega)]
    cases hc : cut? s.start xs with
    | none => rfl
    | some cut =>
      obtain ⟨before, after⟩ := cut
      obtain ⟨rfl, hsize⟩ := of_cut? hc
      rw [size_append] at h
      simp only [Option.map_some, Option.bind_eq_bind, Option.bind_some]
      rw [cut?_append_of_le (by omega)]
      cases cut? (s.stop - s.start) after <;> rfl

theorem slice?_shift (xs ys : List Char) (s : Span) :
    slice? (xs ++ ys) (s.shift (size xs)) = slice? ys s := by
  have hlt : (s.shift (size xs)).stop < (s.shift (size xs)).start ↔ s.stop < s.start := by
    simp only [Span.shift]
    omega
  have hsub : (s.shift (size xs)).stop - (s.shift (size xs)).start = s.stop - s.start := by
    simp only [Span.shift]
    omega
  have hcut : cut? (s.shift (size xs)).start (xs ++ ys) =
      (cut? s.start ys).map fun (before, after) => (xs ++ before, after) :=
    cut?_add_size s.start xs ys
  rw [slice?, slice?]
  simp only [hlt, hsub, hcut]
  split
  · rfl
  · cases cut? s.start ys <;> rfl

theorem countBefore_zero (sep : Char) (cs : List Char) : countBefore sep 0 cs = 0 := by
  cases cs <;> rfl

theorem countBefore_append_of_le {sep : Char} {n : Nat} {xs : List Char} (h : n ≤ size xs)
    (ys : List Char) : countBefore sep n (xs ++ ys) = countBefore sep n xs := by
  induction xs generalizing n with
  | nil =>
    obtain rfl : n = 0 := by simpa using h
    rw [List.nil_append, countBefore_zero, countBefore_zero]
  | cons c cs ih =>
    cases n with
    | zero => rw [countBefore_zero, countBefore_zero]
    | succ n =>
      rw [size_cons] at h
      rw [List.cons_append, countBefore, countBefore, ih (by omega)]

theorem countBefore_add_size (sep : Char) (n : Nat) (xs ys : List Char) :
    countBefore sep (n + size xs) (xs ++ ys) = xs.count sep + countBefore sep n ys := by
  induction xs with
  | nil => simp
  | cons c cs ih =>
    obtain ⟨m, hm, -, hsub⟩ := exists_add_size_cons n c cs
    rw [hm, List.cons_append, countBefore, hsub, ih, List.count_cons]
    omega

theorem countBefore_le_count (sep : Char) (n : Nat) (cs : List Char) :
    countBefore sep n cs ≤ cs.count sep := by
  induction cs generalizing n with
  | nil => exact Nat.le_of_eq rfl
  | cons c cs ih =>
    cases n with
    | zero => exact Nat.zero_le _
    | succ n =>
      have hrest := ih (n + 1 - c.utf8Size)
      rw [countBefore, List.count_cons]
      omega

end Worksheet.Chars
