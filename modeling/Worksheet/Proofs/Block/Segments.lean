import Mathlib.Data.List.Chain
import Worksheet.Proofs.Block.Braces
import Worksheet.Proofs.Block.Index
import Worksheet.Proofs.Block.Stands

namespace Worksheet

open SourceLine (texts)

namespace SourceLine

/-- A blank line or a comment. -/
def IsGap (l : SourceLine) : Prop :=
  Text.trim l.text = "" ∨ Text.isComment (Text.trim l.text) = true

theorem isGap_iff {l : SourceLine} :
    l.IsGap ↔ ((Text.trim l.text).isEmpty || Text.isComment (Text.trim l.text)) = true := by
  simp [IsGap]

/-- A line that holds an opening brace alone. -/
def Opens (l : SourceLine) : Prop :=
  Text.trim l.text = "\x7b"

theorem Opens.not_isGap {l : SourceLine} (h : l.Opens) : ¬ l.IsGap := by
  rw [IsGap, show Text.trim l.text = "\x7b" from h]
  decide

/-- A block that opens before these lines is still open after each of them. -/
def KeepOpen (body : List SourceLine) : Prop :=
  ∀ before, before <+: body → 1 ≤ 1 + Braces.depth (texts before)

end SourceLine

/-- What lines that follow one another in a script make up. -/
inductive Segment where
  /-- A blank line or a comment between blocks. -/
  | gap (line : SourceLine)
  /-- Lines of text that belongs to no block. -/
  | stray (first : SourceLine) (rest : List SourceLine)
  | block (opening : SourceLine) (body : List SourceLine) (closing : SourceLine)
  /-- A block that is never closed. -/
  | tail (opening : SourceLine) (body : List SourceLine)

namespace Segment

def lines : Segment → List SourceLine
  | gap line => [line]
  | stray first rest => first :: rest
  | block opening body closing => opening :: (body ++ [closing])
  | tail opening body => opening :: body

/-- The lines of a segment are what the segment says they are. -/
inductive WellFormed : Segment → Prop where
  | gap {line : SourceLine} (isGap : line.IsGap) : WellFormed (gap line)
  | stray {first : SourceLine} {rest : List SourceLine}
    (each : ∀ l ∈ first :: rest, ¬ l.IsGap ∧ ¬ l.Opens) : WellFormed (stray first rest)
  | block {opening : SourceLine} {body : List SourceLine} {closing : SourceLine}
    (opens : opening.Opens) (keepOpen : SourceLine.KeepOpen body)
    (closes : 1 + Braces.depth (texts (body ++ [closing])) ≤ 0) :
    WellFormed (block opening body closing)
  | tail {opening : SourceLine} {body : List SourceLine} (opens : opening.Opens)
    (keepOpen : SourceLine.KeepOpen body) : WellFormed (tail opening body)

/-- Which segments can stand next to each other: stray lines that follow one another are one run,
and nothing comes after a block that is never closed. -/
def Joins : Segment → Segment → Prop
  | stray .., stray .. => False
  | tail .., _ => False
  | _, _ => True

theorem joins_or_stray (first : SourceLine) (rest : List SourceLine) (t : Segment) :
    (stray first rest).Joins t ∨ ∃ next run, t = stray next run := by
  cases t with
  | stray next run => exact Or.inr ⟨next, run, rfl⟩
  | gap | block | tail => exact Or.inl trivial

theorem Joins.of_stray {first next : SourceLine} {rest run : List SourceLine} {t : Segment}
    (h : (Segment.stray first rest).Joins t) : (Segment.stray next run).Joins t := by
  cases t <;> exact h

theorem WellFormed.each {first : SourceLine} {rest : List SourceLine}
    (h : (Segment.stray first rest).WellFormed) : ∀ l ∈ first :: rest, ¬ l.IsGap ∧ ¬ l.Opens := by
  cases h with
  | stray each => exact each

section First

variable {s : Segment} {l : SourceLine} {rest : List SourceLine} (hs : s.WellFormed)
  (hlines : s.lines = l :: rest)

include hs hlines

theorem eq_gap (hl : l.IsGap) : s = gap l := by
  cases hs with
  | gap =>
    obtain ⟨rfl, -⟩ := List.cons.inj hlines
    rfl
  | stray each =>
    obtain ⟨rfl, -⟩ := List.cons.inj hlines
    exact absurd hl (each _ (by simp)).1
  | block opens | tail opens =>
    obtain ⟨rfl, -⟩ := List.cons.inj hlines
    exact absurd hl opens.not_isGap

theorem eq_block_or_tail (hl : l.Opens) :
    (∃ body closing, s = block l body closing) ∨ ∃ body, s = tail l body := by
  cases hs with
  | gap isGap =>
    obtain ⟨rfl, -⟩ := List.cons.inj hlines
    exact absurd isGap hl.not_isGap
  | stray each =>
    obtain ⟨rfl, -⟩ := List.cons.inj hlines
    exact absurd hl (each _ (by simp)).2
  | block =>
    obtain ⟨rfl, -⟩ := List.cons.inj hlines
    exact Or.inl ⟨_, _, rfl⟩
  | tail =>
    obtain ⟨rfl, -⟩ := List.cons.inj hlines
    exact Or.inr ⟨_, rfl⟩

theorem eq_stray (hgap : ¬ l.IsGap) (hopens : ¬ l.Opens) : s = stray l rest := by
  cases hs with
  | gap isGap =>
    obtain ⟨rfl, -⟩ := List.cons.inj hlines
    exact absurd isGap hgap
  | stray =>
    obtain ⟨rfl, rfl⟩ := List.cons.inj hlines
    rfl
  | block opens | tail opens =>
    obtain ⟨rfl, -⟩ := List.cons.inj hlines
    exact absurd opens hopens

end First

theorem exists_lines_eq_cons (s : Segment) : ∃ l rest, s.lines = l :: rest := by
  cases s <;> exact ⟨_, _, rfl⟩

end Segment

/-- The lines fall into these segments. -/
structure Segmentation (lines : List SourceLine) (segments : List Segment) : Prop where
  lines_eq : segments.flatMap Segment.lines = lines
  wellFormed : ∀ s ∈ segments, s.WellFormed
  joins : segments.IsChain Segment.Joins

namespace Segmentation

variable {ls : List SourceLine} {s : Segment} {segments : List Segment}

theorem nil : Segmentation [] [] :=
  ⟨rfl, by simp, .nil⟩

theorem cons (hs : s.WellFormed) (hjoin : ∀ t ∈ segments.head?, s.Joins t)
    (h : Segmentation ls segments) : Segmentation (s.lines ++ ls) (s :: segments) := by
  refine ⟨?_, ?_, List.isChain_cons.2 ⟨hjoin, h.joins⟩⟩
  · rw [List.flatMap_cons, h.lines_eq]
  · intro t ht
    rcases List.mem_cons.1 ht with rfl | ht
    · exact hs
    · exact h.wellFormed t ht

theorem of_cons (h : Segmentation ls (s :: segments)) : s.WellFormed ∧
    (∀ t ∈ segments.head?, s.Joins t) ∧
      ∃ rest, ls = s.lines ++ rest ∧ Segmentation rest segments := by
  obtain ⟨hjoin, hjoins⟩ := List.isChain_cons.1 h.joins
  refine ⟨h.wellFormed s (by simp), hjoin, segments.flatMap Segment.lines, ?_, rfl, ?_, hjoins⟩
  · rw [← h.lines_eq, List.flatMap_cons]
  · exact fun t ht => h.wellFormed t (by simp [ht])

/-- Every list of lines falls into segments. -/
theorem exists_segments (ls : List SourceLine) : ∃ segments, Segmentation ls segments := by
  induction hlen : ls.length using Nat.strong_induction_on generalizing ls with
  | _ n ih =>
    cases ls with
    | nil => exact ⟨[], nil⟩
    | cons l rest =>
      have hrest : rest.length < n := by
        rw [← hlen]
        exact Nat.lt_succ_self _
      by_cases hgap : l.IsGap
      · obtain ⟨segments, h⟩ := ih rest.length hrest rest rfl
        exact ⟨.gap l :: segments, h.cons (.gap hgap) fun t _ => trivial⟩
      by_cases hopens : l.Opens
      · rcases Place.run_inside_cases (b := .ofLine l) Int.one_pos rest with
          ⟨hopen, -⟩ | ⟨body, closing, after, rfl, hopen, hclose, -⟩
        · refine ⟨[.tail l rest], ?_⟩
          have htail := nil.cons (.tail hopens hopen) (by simp)
          rwa [List.append_nil] at htail
        · have hafter : after.length < n := by
            rw [List.length_append, List.length_cons] at hrest
            omega
          obtain ⟨segments, h⟩ := ih after.length hafter after rfl
          refine ⟨.block l body closing :: segments, ?_⟩
          have hblock := h.cons (.block hopens hopen hclose) fun t _ => trivial
          simpa [Segment.lines] using hblock
      · have hl : ∀ k ∈ [l], ¬ k.IsGap ∧ ¬ k.Opens := by simp [hgap, hopens]
        obtain ⟨segments, h⟩ := ih rest.length hrest rest rfl
        cases segments with
        | nil => exact ⟨[.stray l []], h.cons (.stray hl) (by simp)⟩
        | cons t segments =>
          rcases Segment.joins_or_stray l [] t with hjoins | ⟨first, run, rfl⟩
          · refine ⟨.stray l [] :: t :: segments, h.cons (.stray hl) ?_⟩
            intro u hu
            obtain rfl := Option.some.inj hu
            exact hjoins
          · -- The line goes on the run that follows it.
            obtain ⟨hrun, hjoin, more, rfl, hmore⟩ := h.of_cons
            refine ⟨.stray l (first :: run) :: segments, hmore.cons (.stray ?_) ?_⟩
            · intro k hk
              rcases List.mem_cons.1 hk with rfl | hk
              · exact ⟨hgap, hopens⟩
              · exact hrun.each k hk
            · exact fun u hu => (hjoin u hu).of_stray

theorem eq_nil (h : Segmentation [] segments) : segments = [] := by
  cases segments with
  | nil => rfl
  | cons s segments =>
    obtain ⟨-, -, rest, hsplit, -⟩ := h.of_cons
    obtain ⟨l, more, hl⟩ := s.exists_lines_eq_cons
    simp [hl] at hsplit

/-- A run of stray lines ends where a line follows that is none. -/
theorem head_of_joins {first : SourceLine} {run : List SourceLine} (h : Segmentation ls segments)
    (hjoin : ∀ t ∈ segments.head?, (Segment.stray first run).Joins t) :
    ∀ l ∈ ls.head?, l.IsGap ∨ l.Opens := by
  intro l hl
  cases segments with
  | nil =>
    rw [← h.lines_eq] at hl
    cases hl
  | cons t segments =>
    obtain ⟨ht, -, rest, rfl, -⟩ := h.of_cons
    have hjoin := hjoin t rfl
    cases ht with
    | gap isGap =>
      obtain rfl := Option.some.inj hl
      exact Or.inl isGap
    | stray => cases hjoin
    | block opens | tail opens =>
      obtain rfl := Option.some.inj hl
      exact Or.inr opens

/-- Of two ways to cut a text in two, one cuts no later than the other. What is between them is left
out if the later beginning holds nothing at which the earlier one ends. -/
theorem run_eq {xs ys as bs : List SourceLine} (hsplit : xs ++ as = ys ++ bs)
    (hxs : ∀ l ∈ xs, ¬ (l.IsGap ∨ l.Opens)) (hys : ∀ l ∈ ys, ¬ (l.IsGap ∨ l.Opens))
    (has : ∀ l ∈ as.head?, l.IsGap ∨ l.Opens) (hbs : ∀ l ∈ bs.head?, l.IsGap ∨ l.Opens) :
    xs = ys := by
  rcases List.append_eq_append_iff.1 hsplit with ⟨more, rfl, rfl⟩ | ⟨more, rfl, rfl⟩
  · cases more with
    | nil => rw [List.append_nil]
    | cons l more => exact absurd (has l rfl) (hys l (by simp))
  · cases more with
    | nil => rw [List.append_nil]
    | cons l more => exact absurd (hbs l rfl) (hxs l (by simp))

/-- A block that stays open after some lines is closed by none of them. -/
theorem not_prefix_of_closes {body more : List SourceLine} {closing : SourceLine}
    (hopen : SourceLine.KeepOpen more)
    (hclose : 1 + Braces.depth (texts (body ++ [closing])) ≤ 0) :
    ¬ body ++ [closing] <+: more := by
  intro hprefix
  have hpos := hopen _ hprefix
  omega

/-- The line that closes a block is determined by the lines after the opening one. -/
theorem closing_eq {xs ys as bs : List SourceLine} {k l : SourceLine}
    (hsplit : xs ++ k :: as = ys ++ l :: bs) (hxs : SourceLine.KeepOpen xs)
    (hys : SourceLine.KeepOpen ys) (hk : 1 + Braces.depth (texts (xs ++ [k])) ≤ 0)
    (hl : 1 + Braces.depth (texts (ys ++ [l])) ≤ 0) : xs = ys ∧ k = l := by
  rcases List.append_eq_append_iff.1 hsplit with ⟨more, rfl, hmore⟩ | ⟨more, rfl, hmore⟩
  · cases more with
    | nil => exact ⟨(List.append_nil xs).symm, (List.cons.inj hmore).1⟩
    | cons m more =>
      obtain ⟨rfl, -⟩ := List.cons.inj hmore
      exact absurd ⟨more, by simp⟩ (not_prefix_of_closes hys hk)
  · cases more with
    | nil => exact ⟨List.append_nil ys, (List.cons.inj hmore).1.symm⟩
    | cons m more =>
      obtain ⟨rfl, -⟩ := List.cons.inj hmore
      exact absurd ⟨more, by simp⟩ (not_prefix_of_closes hxs hl)

theorem nil_of_tail {opening : SourceLine} {body : List SourceLine} (h : Segmentation ls segments)
    (hjoin : ∀ t ∈ segments.head?, (Segment.tail opening body).Joins t) :
    segments = [] ∧ ls = [] := by
  cases segments with
  | nil => exact ⟨rfl, h.lines_eq.symm⟩
  | cons t segments => exact (hjoin t rfl).elim

theorem head_eq {t : Segment} {others : List Segment} (h : Segmentation ls (s :: segments))
    (h' : Segmentation ls (t :: others)) : s = t := by
  obtain ⟨hs, hjoin, rest, rfl, hrest⟩ := h.of_cons
  obtain ⟨ht, hjoin', rest', hsplit, hrest'⟩ := h'.of_cons
  obtain ⟨l, more, hl⟩ := t.exists_lines_eq_cons
  cases hs with
  | gap isGap =>
    rw [hl] at hsplit
    obtain ⟨rfl, -⟩ := List.cons.inj hsplit
    exact (Segment.eq_gap ht hl isGap).symm
  | @stray first run each =>
    rw [hl] at hsplit
    obtain ⟨rfl, hruns⟩ := List.cons.inj hsplit
    obtain ⟨hgap, hopens⟩ := each first (by simp)
    obtain rfl := Segment.eq_stray ht hl hgap hopens
    have hrun : run = more := by
      refine run_eq hruns ?_ ?_ (hrest.head_of_joins hjoin) (hrest'.head_of_joins hjoin')
      · exact fun k hk => not_or_intro (each k (by simp [hk])).1 (each k (by simp [hk])).2
      · exact fun k hk => not_or_intro (ht.each k (by simp [hk])).1 (ht.each k (by simp [hk])).2
    rw [hrun]
  | @block opening body closing opens keepOpen closes =>
    obtain ⟨rfl, -⟩ := List.cons.inj (hsplit.trans (congrArg (· ++ rest') hl))
    rcases Segment.eq_block_or_tail ht hl opens with ⟨body', closing', rfl⟩ | ⟨body', rfl⟩
    · cases ht with
      | block _ keepOpen' closes' =>
        have hinner : body ++ closing :: rest = body' ++ closing' :: rest' := by
          simpa [Segment.lines] using hsplit
        obtain ⟨rfl, rfl⟩ := closing_eq hinner keepOpen keepOpen' closes closes'
        rfl
    · cases ht with
      | tail _ keepOpen' =>
        obtain ⟨-, rfl⟩ := hrest'.nil_of_tail hjoin'
        have hinner : body ++ closing :: rest = body' := by
          simpa [Segment.lines] using hsplit
        exact absurd ⟨rest, by simp [← hinner]⟩ (not_prefix_of_closes keepOpen' closes)
  | @tail opening body opens keepOpen =>
    obtain ⟨-, rfl⟩ := hrest.nil_of_tail hjoin
    obtain ⟨rfl, -⟩ := List.cons.inj (hsplit.trans (congrArg (· ++ rest') hl))
    rcases Segment.eq_block_or_tail ht hl opens with ⟨body', closing', rfl⟩ | ⟨body', rfl⟩
    · cases ht with
      | block _ _ closes' =>
        have hinner : body = body' ++ closing' :: rest' := by
          simpa [Segment.lines] using hsplit
        exact absurd ⟨rest', by simp [hinner]⟩ (not_prefix_of_closes keepOpen closes')
    · obtain ⟨-, rfl⟩ := hrest'.nil_of_tail hjoin'
      have hinner : body = body' := by
        simpa [Segment.lines] using hsplit
      rw [hinner]

/-- Lines fall into segments in one way only. -/
theorem unique {xs ys : List Segment} (hx : Segmentation ls xs) (hy : Segmentation ls ys) :
    xs = ys := by
  induction xs generalizing ls ys with
  | nil =>
    obtain rfl : [] = ls := hx.lines_eq
    exact hy.eq_nil.symm
  | cons s xs ih =>
    cases ys with
    | nil =>
      obtain rfl : [] = ls := hy.lines_eq
      exact hx.eq_nil
    | cons t ys =>
      obtain rfl := hx.head_eq hy
      obtain ⟨-, -, rest, rfl, hrest⟩ := hx.of_cons
      obtain ⟨-, -, rest', hsplit, hrest'⟩ := hy.of_cons
      obtain rfl := List.append_cancel_left hsplit
      rw [ih hrest hrest']

end Segmentation

end Worksheet
