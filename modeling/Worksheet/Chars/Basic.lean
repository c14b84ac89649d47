namespace Worksheet

/-- A stretch of a text in UTF-8 byte offsets, its end excluded. -/
structure Span where
  start : Nat
  stop : Nat
  deriving DecidableEq, Repr

namespace Span

/-- The same stretch seen from a text in which it begins later by the given number of bytes. -/
def shift (s : Span) (n : Nat) : Span :=
  ⟨s.start + n, s.stop + n⟩

end Span

namespace Chars

/-- Number of bytes of the UTF-8 form. -/
def size : List Char → Nat
  | [] => 0
  | c :: cs => c.utf8Size + size cs

@[simp] theorem size_nil : size [] = 0 := rfl

@[simp] theorem size_cons (c : Char) (cs : List Char) : size (c :: cs) = c.utf8Size + size cs := rfl

@[simp] theorem size_append (xs ys : List Char) : size (xs ++ ys) = size xs + size ys := by
  induction xs with
  | nil => simp
  | cons c cs ih => simp [ih, Nat.add_assoc]

/-- Cuts a text at a byte offset, if the offset is a character boundary of the text. -/
def cut? : Nat → List Char → Option (List Char × List Char)
  | 0, cs => some ([], cs)
  | _ + 1, [] => none
  | n + 1, c :: cs =>
    if c.utf8Size ≤ n + 1 then
      (cut? (n + 1 - c.utf8Size) cs).map fun (before, after) => (c :: before, after)
    else none

/-- The characters of a stretch, if it lies within the text and both ends are boundaries. -/
def slice? (cs : List Char) (s : Span) : Option (List Char) := do
  if s.stop < s.start then none else
  let (_, rest) ← cut? s.start cs
  let (inside, _) ← cut? (s.stop - s.start) rest
  return inside

theorem cut?_size_append (xs ys : List Char) : cut? (size xs) (xs ++ ys) = some (xs, ys) := by
  induction xs with
  | nil => simp [cut?]
  | cons c cs ih =>
    have hc := Char.utf8Size_pos c
    obtain ⟨n, hn⟩ : ∃ n, c.utf8Size + size cs = n + 1 := ⟨c.utf8Size + size cs - 1, by omega⟩
    have hle : c.utf8Size ≤ n + 1 := by omega
    have hsub : n + 1 - c.utf8Size = size cs := by omega
    simp [hn, cut?, hle, hsub, ih]

theorem slice?_append (xs ys zs : List Char) :
    slice? (xs ++ ys ++ zs) ⟨size xs, size xs + size ys⟩ = some ys := by
  have h : ¬ size xs + size ys < size xs := by omega
  simp [slice?, h, List.append_assoc, cut?_size_append]

/-- The pieces between the characters that satisfy `p`, which are left out. There is one piece more
than there are such characters. -/
def splitWhere (p : Char → Bool) : List Char → List (List Char)
  | [] => [[]]
  | c :: cs =>
    if p c then [] :: splitWhere p cs
    else match splitWhere p cs with
      | [] => [[c]]
      | piece :: pieces => (c :: piece) :: pieces

/-- The pieces between the occurrences of a character. -/
def splitOn (sep : Char) (cs : List Char) : List (List Char) :=
  splitWhere (· == sep) cs

theorem splitWhere_ne_nil (p : Char → Bool) (cs : List Char) : splitWhere p cs ≠ [] := by
  cases cs with
  | nil => simp [splitWhere]
  | cons c cs => rw [splitWhere]; split <;> try split
                 all_goals simp

/-- The text before and after the first occurrence of a character. -/
def splitOnce (sep : Char) : List Char → Option (List Char × List Char)
  | [] => none
  | c :: cs =>
    if c == sep then some ([], cs)
    else (splitOnce sep cs).map fun (before, after) => (c :: before, after)

theorem splitOnce_append {sep : Char} {cs before after : List Char}
    (h : splitOnce sep cs = some (before, after)) : before ++ sep :: after = cs := by
  induction cs generalizing before with
  | nil => simp [splitOnce] at h
  | cons c cs ih =>
    rw [splitOnce] at h
    split at h
    · rename_i hc
      simp only [Option.some.injEq, Prod.mk.injEq] at h
      simp [← h.1, ← h.2, eq_of_beq hc]
    · obtain ⟨⟨b, a⟩, hb, he⟩ := Option.map_eq_some_iff.1 h
      simp only [Prod.mk.injEq] at he
      obtain ⟨rfl, rfl⟩ := he
      simp [ih hb]

/-- The text before and after the last occurrence of a character. -/
def splitLast (sep : Char) : List Char → Option (List Char × List Char)
  | [] => none
  | c :: cs =>
    match splitLast sep cs with
    | some (before, after) => some (c :: before, after)
    | none => if c == sep then some ([], cs) else none

/-- The text after a given beginning. -/
def stripStart? : List Char → List Char → Option (List Char)
  | [], cs => some cs
  | _ :: _, [] => none
  | p :: ps, c :: cs => if p == c then stripStart? ps cs else none

/-- The text before a given last character. -/
def stripLast? (last : Char) : List Char → Option (List Char)
  | [] => none
  | [c] => if c == last then some [] else none
  | c :: d :: cs => (stripLast? last (d :: cs)).map (c :: ·)

/-- Whether the first text occurs in the second. -/
def occursIn (needle : List Char) : List Char → Bool
  | [] => needle.isEmpty
  | c :: cs => needle.isPrefixOf (c :: cs) || occursIn needle cs

/-- A line without the carriage return that may end it. -/
def dropReturn (line : List Char) : List Char :=
  (stripLast? '\r' line).getD line

/-- The lines of a text. A final line break opens no further line, and a carriage return is part of
the line break that it precedes. -/
def lines (cs : List Char) : List (List Char) :=
  close (splitOn '\n' cs)
where
  /-- All pieces but the last were ended by a line break. -/
  close : List (List Char) → List (List Char)
    | [] => []
    | [last] => if last.isEmpty then [] else [last]
    | line :: next :: rest => dropReturn line :: close (next :: rest)

/-- Number of occurrences of a character that begin before a byte offset. -/
def countBefore (sep : Char) : Nat → List Char → Nat
  | _, [] => 0
  | 0, _ => 0
  | n + 1, c :: cs =>
    (if c == sep then 1 else 0) + countBefore sep (n + 1 - c.utf8Size) cs

end Chars

end Worksheet
