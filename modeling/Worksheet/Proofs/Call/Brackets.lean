import Worksheet.Proofs.Call.Cut
import Worksheet.Proofs.Chars.Bytes

namespace Worksheet

/-- The brackets of a text that has been read, matched from the left whatever their kinds.
Characters are told by their numbers. -/
structure Brackets where
  /-- The brackets that are open, the innermost first. -/
  opened : List Nat := []
  /-- The opening and the closing bracket of each pair. -/
  pairs : List (Nat × Nat) := []
  /-- The closing brackets that found none open. -/
  strays : List Nat := []
  deriving DecidableEq, Repr

namespace Brackets

/-- Reads the character with the given number. -/
def step (b : Brackets) (place : Nat) : Role → Brackets
  | .opening => { b with opened := place :: b.opened }
  | .closing =>
    match b.opened with
    | [] => { b with strays := place :: b.strays }
    | first :: others => { b with opened := others, pairs := (first, place) :: b.pairs }
  | .quoted | .plain => b

/-- Reads a text from a state of the scanner on. Its first character has the given number. -/
def read (b : Brackets) (s : Scanner) (place : Nat) : List Char → Brackets
  | [] => b
  | c :: cs => (b.step place (s.step c).1).read (s.step c).2 (place + 1) cs

def ofChars (cs : List Char) : Brackets :=
  read {} {} 0 cs

/-- How many more brackets are open than closing brackets found none open. -/
def excess (b : Brackets) : Int :=
  b.opened.length - b.strays.length

theorem read_append (b : Brackets) (s : Scanner) (place : Nat) (xs ys : List Char) :
    b.read s place (xs ++ ys) = (b.read s place xs).read (s.run xs) (place + xs.length) ys := by
  induction xs generalizing b s place with
  | nil => rfl
  | cons x xs ih =>
    rw [List.cons_append, read, ih, read, Scanner.run_cons, List.length_cons, Nat.add_assoc,
      Nat.add_comm 1]

theorem ofChars_concat (cs : List Char) (c : Char) :
    ofChars (cs ++ [c]) = (ofChars cs).step cs.length ((Scanner.run {} cs).step c).1 := by
  rw [ofChars, read_append, Nat.zero_add]
  rfl

variable {b : Brackets} {place : Nat} {role : Role}

theorem mem_opened_step {i : Nat} (h : i ∈ (b.step place role).opened) :
    i = place ∨ i ∈ b.opened := by
  cases role with
  | opening => exact List.mem_cons.1 h
  | closing =>
    rw [step] at h
    split at h
    · exact Or.inr h
    · rename_i first others hopened
      exact Or.inr (hopened ▸ List.mem_cons_of_mem first h)
  | quoted => exact Or.inr h
  | plain => exact Or.inr h

theorem mem_pairs_step {pair : Nat × Nat} (h : pair ∈ (b.step place role).pairs) :
    pair ∈ b.pairs ∨ pair.1 ∈ b.opened ∧ pair.2 = place := by
  cases role with
  | closing =>
    rw [step] at h
    split at h
    · exact Or.inl h
    · rename_i first others hopened
      rcases List.mem_cons.1 h with rfl | hold
      · exact Or.inr ⟨hopened ▸ List.mem_cons_self, rfl⟩
      · exact Or.inl hold
  | opening => exact Or.inl h
  | quoted => exact Or.inl h
  | plain => exact Or.inl h

theorem excess_step (b : Brackets) (place : Nat) (role : Role) :
    (b.step place role).excess = b.excess + role.change := by
  cases role with
  | opening =>
    simp only [excess, step, Role.change, List.length_cons]
    omega
  | closing =>
    cases hopened : b.opened with
    | nil =>
      simp only [excess, step, hopened, Role.change, List.length_cons, List.length_nil]
      omega
    | cons first others =>
      simp only [excess, step, hopened, Role.change, List.length_cons]
      omega
  | quoted => exact (Int.add_zero _).symm
  | plain => exact (Int.add_zero _).symm

theorem lt_length_of_mem_pairs {cs : List Char} {pair : Nat × Nat}
    (h : pair ∈ (ofChars cs).pairs) : pair.2 < cs.length := by
  induction cs using List.reverseRecOn with
  | nil => cases h
  | append_singleton cs c ih =>
    rw [ofChars_concat] at h
    rw [List.length_append, List.length_singleton]
    rcases mem_pairs_step h with hold | ⟨-, hplace⟩
    · have hlt := ih hold
      omega
    · omega

/-- A bracket of the first part that is open after the whole has been open all the time. -/
theorem mem_opened_of_append {xs ys : List Char} {i : Nat}
    (h : i ∈ (ofChars (xs ++ ys)).opened) (hlt : i < xs.length) : i ∈ (ofChars xs).opened := by
  induction ys using List.reverseRecOn with
  | nil => rwa [List.append_nil] at h
  | append_singleton ys c ih =>
    rw [← List.append_assoc, ofChars_concat, List.length_append] at h
    rcases mem_opened_step h with rfl | hopened
    · omega
    · exact ih hopened

/-- Within a pair its opening bracket is open. -/
theorem mem_opened_of_mem_pairs {xs ys : List Char} {pair : Nat × Nat}
    (h : pair ∈ (ofChars (xs ++ ys)).pairs) (hfirst : pair.1 < xs.length)
    (hlast : xs.length ≤ pair.2) : pair.1 ∈ (ofChars xs).opened := by
  induction ys using List.reverseRecOn with
  | nil =>
    rw [List.append_nil] at h
    exact absurd (lt_length_of_mem_pairs h) (Nat.not_lt.2 hlast)
  | append_singleton ys c ih =>
    rw [← List.append_assoc, ofChars_concat] at h
    rcases mem_pairs_step h with hold | ⟨hopened, -⟩
    · exact ih hold
    · exact mem_opened_of_append hopened hfirst

end Brackets

namespace Scanner

variable {s : Scanner}

/-- The scanner counts opened less closed brackets, so that it never forgets the closing brackets
that found none open. -/
theorem depth_run_eq_excess {b : Brackets} (h : s.depth = b.excess) (place : Nat) (cs : List Char) :
    (s.run cs).depth = (b.read s place cs).excess := by
  induction cs generalizing s b place with
  | nil => exact h
  | cons c cs ih =>
    refine ih ?_ (place + 1)
    rw [depth_step, Brackets.excess_step, h]

theorem depth_run_ofChars (cs : List Char) :
    (Scanner.run {} cs).depth = (Brackets.ofChars cs).excess :=
  depth_run_eq_excess rfl 0 cs

/-- A plain character counts if no more brackets are open than closing brackets found none open. -/
theorem atTop_run_iff (cs : List Char) (c : Char) :
    (Scanner.run {} cs).atTop c = true ↔ ((Scanner.run {} cs).step c).1 = .plain ∧
      (Brackets.ofChars cs).opened.length ≤ (Brackets.ofChars cs).strays.length := by
  rw [atTop, Bool.and_eq_true, beq_iff_eq, decide_eq_true_eq, depth_run_ofChars, Brackets.excess]
  refine and_congr_right fun _ => ?_
  omega

theorem atTop_of_find?_eq_none {sep : Char} {before after : List Char}
    (h : s.find? [sep] (before ++ sep :: after) = none) : (s.run before).atTop sep = false := by
  rw [find?_append_eq_none, find?_cons_eq_none] at h
  simpa using h.2.1

end Scanner

namespace Piece

open Chars (size)
open Scanner (Cuts)

/-- Whether a text is cut at a separator, which then stands between two neighbouring pieces. -/
def SplitsAt (sep : Char) (before after : List Char) : Prop :=
  ∃ p q, [p, q] <:+: splitTopLevel sep (before ++ sep :: after) ∧
    p.span.stop ≤ size before ∧ size before < q.span.start

variable {sep : Char} {s : Scanner} {raws : List (List Char)} {p q : Piece}

theorem stop_trimmed_le (done raw : List Char) :
    (trimmed (size done) raw).span.stop ≤ size (done ++ raw) := by
  obtain ⟨front, back, hraw, -, -, hspan⟩ := exists_padded done raw
  have hsize := congrArg size hraw
  rw [hspan]
  simp only [Chars.size_append] at hsize ⊢
  omega

theorem lt_start_trimmed (done raw next : List Char) :
    size (done ++ raw) < (trimmed (size (done ++ raw ++ [sep])) next).span.start := by
  have hpos := Char.utf8Size_pos sep
  rw [trimmed, Chars.size_append _ [sep], Chars.size_cons]
  dsimp only
  omega

/-- Between two neighbouring pieces stands a separator that counts. -/
theorem exists_atTop_of_infix (h : Cuts sep s raws) (done : List Char)
    (hpq : [p, q] <:+: located sep (size done) raws) :
    ∃ before after, Chars.join [sep] raws = before ++ sep :: after ∧
      (s.run before).atTop sep = true ∧ p.span.stop ≤ size (done ++ before) ∧
      size (done ++ before) < q.span.start := by
  induction h generalizing done with
  | last whole =>
    have hle := hpq.length_le
    simp [located] at hle
  | @cons s raw rest whole ends others ih =>
    obtain ⟨next, more, rfl⟩ := List.exists_cons_of_ne_nil others.ne_nil
    rw [located_cons, List.infix_cons_iff] at hpq
    rcases hpq with hfirst | hothers
    · rw [located_cons, List.cons_prefix_cons, List.cons_prefix_cons] at hfirst
      obtain ⟨rfl, rfl, -⟩ := hfirst
      refine ⟨raw, Chars.join [sep] (next :: more), ?_, ends, stop_trimmed_le done raw,
        lt_start_trimmed done raw next⟩
      rw [Chars.join_cons_cons, List.append_assoc, List.singleton_append]
    · obtain ⟨before, after, hjoin, htop, hstop, hstart⟩ := ih _ hothers
      refine ⟨raw ++ sep :: before, after, ?_, ?_, ?_, ?_⟩
      · rw [Chars.join_cons_cons, hjoin]
        simp
      · rwa [Scanner.run_append, Scanner.run_cons]
      · simpa using hstop
      · simpa using hstart

/-- A separator that counts stands between two neighbouring pieces. -/
theorem exists_infix_of_atTop (h : Cuts sep s raws) (done : List Char) {before after : List Char}
    (hjoin : Chars.join [sep] raws = before ++ sep :: after)
    (htop : (s.run before).atTop sep = true) :
    ∃ p q, [p, q] <:+: located sep (size done) raws ∧ p.span.stop ≤ size (done ++ before) ∧
      size (done ++ before) < q.span.start := by
  induction h generalizing done before with
  | @last s raw whole =>
    obtain rfl : raw = before ++ sep :: after := hjoin
    rw [Scanner.atTop_of_find?_eq_none whole] at htop
    cases htop
  | @cons s raw rest whole ends others ih =>
    obtain ⟨next, more, rfl⟩ := List.exists_cons_of_ne_nil others.ne_nil
    have hfirst : ∃ p q, [p, q] <:+: located sep (size done) (raw :: next :: more) ∧
        p.span.stop ≤ size (done ++ raw) ∧ size (done ++ raw) < q.span.start := by
      rw [located_cons, located_cons]
      exact ⟨_, _, (List.prefix_append [_, _] _).isInfix, stop_trimmed_le done raw,
        lt_start_trimmed done raw next⟩
    -- The separator stands behind the first part, in the others, or within the first part, where
    -- none counts.
    rw [Chars.join_cons_cons, List.append_assoc, List.singleton_append,
      List.append_eq_append_iff] at hjoin
    rcases hjoin with ⟨mid, rfl, hmid⟩ | ⟨mid, rfl, hmid⟩
    · cases mid with
      | nil => simpa using hfirst
      | cons c mid =>
        obtain ⟨rfl, hrest⟩ := List.cons.inj hmid
        rw [Scanner.run_append, Scanner.run_cons] at htop
        obtain ⟨p, q, hpq, hstop, hstart⟩ := ih (done ++ raw ++ [sep]) hrest htop
        refine ⟨p, q, ?_, by simpa using hstop, by simpa using hstart⟩
        rw [located_cons, List.infix_cons_iff]
        exact Or.inr hpq
    · cases mid with
      | nil => simpa using hfirst
      | cons c mid =>
        obtain ⟨rfl, -⟩ := List.cons.inj hmid
        rw [Scanner.atTop_of_find?_eq_none whole] at htop
        cases htop

/-- The white space between two neighbouring pieces has one separator only. -/
theorem exists_of_infix_splitTopLevel {cs : List Char} (hpq : [p, q] <:+: splitTopLevel sep cs) :
    ∃ place, ∀ before after, cs = before ++ sep :: after → p.span.stop ≤ size before →
      size before < q.span.start → before = place := by
  have hneighbours := List.IsChain.infix (laid_splitTopLevel sep cs).isChain_gap hpq
  obtain ⟨back, front, -, -, hback, hfront, hslice⟩ := List.isChain_pair.1 hneighbours
  obtain ⟨outer, rest, hcs, houter, hstop⟩ := Chars.append_of_slice? hslice
  dsimp only at houter hstop
  refine ⟨outer ++ back, ?_⟩
  intro before after hbefore hle hlt
  rw [hbefore, List.append_assoc] at hcs
  obtain ⟨mid, rfl, hmid⟩ := Chars.exists_of_size_le hcs (houter.trans_le hle)
  rw [Chars.size_append] at hlt
  obtain ⟨tail, htail, hrest⟩ := Chars.exists_of_size_le hmid.symm (by omega)
  cases tail with
  | nil =>
    rw [htail, List.append_nil] at hstop
    omega
  | cons c tail =>
    obtain ⟨rfl, -⟩ := List.cons.inj hrest
    rw [Chars.eq_of_once hback hfront htail]

/-- A text is cut at the separators that count. -/
theorem splitsAt_iff (sep : Char) (before after : List Char) :
    SplitsAt sep before after ↔ (Scanner.run {} before).atTop sep = true := by
  have hcuts := Scanner.cuts_cut sep {} (before ++ sep :: after)
  have hjoin := Scanner.join_cut sep {} (before ++ sep :: after)
  constructor
  · -- The separator that counts between the two pieces is the given one, as there is no other.
    rintro ⟨p, q, hpq, hstop, hstart⟩
    obtain ⟨place, hplace⟩ := exists_of_infix_splitTopLevel hpq
    obtain ⟨other, rest, hother, htop, hle, hlt⟩ := exists_atTop_of_infix hcuts [] hpq
    rw [hjoin] at hother
    rw [hplace before after rfl hstop hstart, ← hplace other rest hother hle hlt]
    exact htop
  · exact exists_infix_of_atTop hcuts [] hjoin

/-- A text is cut at a separator within a pair of brackets if and only if the separator is a plain
character and no more brackets are open at it than closing brackets before it found none open. One
of those that are open is the first of the pair. -/
theorem splits_within_pair_iff (sep : Char) (before after : List Char) (pair : Nat × Nat)
    (hpair : pair ∈ (Brackets.ofChars (before ++ sep :: after)).pairs)
    (hfirst : pair.1 < before.length) (hlast : before.length < pair.2) :
    pair.1 ∈ (Brackets.ofChars before).opened ∧
      (SplitsAt sep before after ↔ ((Scanner.run {} before).step sep).1 = .plain ∧
        (Brackets.ofChars before).opened.length ≤ (Brackets.ofChars before).strays.length) := by
  refine ⟨Brackets.mem_opened_of_mem_pairs hpair hfirst (Nat.le_of_lt hlast), ?_⟩
  rw [splitsAt_iff, Scanner.atTop_run_iff]

/-- One stray parenthesis exposes what stands in one pair and not what stands in two. -/
theorem splits_within_pair_nested :
    (Brackets.ofChars ":) f(a, [b, c])".toList).pairs = [(4, 14), (8, 13)] ∧
      (Brackets.ofChars ":) f(a, [b, c])".toList).strays = [1] ∧
      SplitsAt ',' ":) f(a".toList " [b, c])".toList ∧
      ¬ SplitsAt ',' ":) f(a, [b".toList " c])".toList := by
  have houter := splits_within_pair_iff ',' ":) f(a".toList " [b, c])".toList (4, 14)
    (by decide) (by decide) (by decide)
  have hinner := splits_within_pair_iff ',' ":) f(a, [b".toList " c])".toList (8, 13)
    (by decide) (by decide) (by decide)
  refine ⟨by decide, by decide, houter.2.2 (by decide), ?_⟩
  rw [hinner.2]
  decide

/-- A pair of parentheses is cut behind a stray one. -/
theorem splits_pair_behind_stray :
    splitTopLevel ',' ":) (a, b)".toList =
        [⟨":) (a".toList, ⟨0, 5⟩⟩, ⟨"b)".toList, ⟨7, 9⟩⟩] ∧
      ¬ ∀ pair ∈ (Brackets.ofChars ":) (a, b)".toList).pairs, pair.1 < 5 → 5 < pair.2 →
        ¬ SplitsAt ',' ":) (a".toList " b)".toList := by
  refine ⟨by decide, ?_⟩
  intro hwhole
  have hsplits : SplitsAt ',' ":) (a".toList " b)".toList := (splitsAt_iff ',' _ _).2 (by decide)
  exact hwhole (3, 8) (by decide) (by decide) (by decide) hsplits

end Piece

end Worksheet
