import Worksheet.Proofs.FillBlank.Tokens
import Worksheet.Proofs.Results

namespace Worksheet

theorem Chars.stripStart?_eq_some_iff {ps cs rest : List Char} :
    stripStart? ps cs = some rest ↔ cs = ps ++ rest := by
  induction ps generalizing cs with
  | nil => simp [stripStart?]
  | cons p ps ih =>
    cases cs with
    | nil => simp [stripStart?]
    | cons c cs =>
      by_cases hc : p = c
      · simp [stripStart?, hc, ih]
      · simp [stripStart?, hc, Ne.symm hc]

/-- The blanks of a sentence point at placeholders of the displayed text, one after the other. -/
structure FillSentence.Placed (s : FillSentence) : Prop where
  apart : s.blanks.Pairwise fun b d => b.position + FillBlank.placeholder.length ≤ d.position
  onPlaceholder : ∀ b ∈ s.blanks, FillBlank.placeholder <+: s.text.toList.drop b.position

namespace FillBlank

variable {start : Nat} {text : List Char} {b : Blank} {bs : List Blank}

theorem fill_cons_of_lt (h : b.position < start) :
    fill start text (b :: bs) = .error b.position := by
  rw [fill, if_pos h]

theorem fill_cons_of_none (h : ¬ placeholder <+: text.drop (b.position - start)) :
    fill start text (b :: bs) = .error b.position := by
  rw [fill]
  split
  · rfl
  · cases hs : Chars.stripStart? placeholder (text.drop (b.position - start)) with
    | none => rfl
    | some rest =>
      have hrest := Chars.stripStart?_eq_some_iff.1 hs
      exact absurd ⟨rest, hrest.symm⟩ h

/-- The answers of a blank as a line has them. -/
def marked (b : Blank) : List Char :=
  '*' :: (Chars.join ['|'] (b.answers.map String.toList) ++ ['*'])

/-- The step of filling: what stands before a placeholder is kept, and its answers follow. -/
theorem fill_append {between rest : List Char} (hb : b.position = start + between.length) :
    fill start (between ++ (placeholder ++ rest)) (b :: bs) =
      (fill (b.position + placeholder.length) rest bs).map fun filled =>
        between ++ (marked b ++ filled) := by
  have hoffset : b.position - start = between.length := by omega
  rw [fill, if_neg (by omega), hoffset, List.drop_left, List.take_left,
    Chars.stripStart?_eq_some_iff.2 rfl]
  simp [marked]

theorem exists_cut (hle : start ≤ b.position)
    (h : placeholder <+: text.drop (b.position - start)) :
    ∃ between rest, text = between ++ (placeholder ++ rest) ∧
      b.position = start + between.length := by
  obtain ⟨rest, hrest⟩ := h
  refine ⟨text.take (b.position - start), rest, ?_, ?_⟩
  · rw [hrest, List.take_append_drop]
  · have hlength : 3 + rest.length = text.length - (b.position - start) := by
      rw [← List.length_drop, ← hrest, List.length_append]
      rfl
    rw [List.length_take]
    omega

/-- A blank on a placeholder is filled if those after it are. -/
theorem exists_fill_cons_iff (hle : start ≤ b.position)
    (h : placeholder <+: text.drop (b.position - start)) :
    (∃ line, fill start text (b :: bs) = .ok line) ↔
      ∃ line, fill (b.position + placeholder.length)
        (text.drop (b.position - start + placeholder.length)) bs = .ok line := by
  obtain ⟨between, rest, rfl, hposition⟩ := exists_cut hle h
  have hdrop : (between ++ (placeholder ++ rest)).drop (b.position - start + placeholder.length) =
      rest := by
    rw [hposition, Nat.add_sub_cancel_left, ← List.drop_drop, List.drop_left, List.drop_left]
  rw [fill_append hposition, hdrop]
  cases fill (b.position + placeholder.length) rest bs <;> simp [Except.map]

theorem exists_fill_iff : (∃ line, fill start text bs = .ok line) ↔
    (∀ b ∈ bs, start ≤ b.position ∧ placeholder <+: text.drop (b.position - start)) ∧
      bs.Pairwise fun b d => b.position + placeholder.length ≤ d.position := by
  induction bs generalizing start text with
  | nil => simp [fill]
  | cons b bs ih =>
    rw [List.forall_mem_cons, List.pairwise_cons]
    by_cases hle : start ≤ b.position
    · by_cases hplaced : placeholder <+: text.drop (b.position - start)
      · -- A later blank is sought in what follows the placeholder of the first one.
        have hlater : ∀ d : Blank, b.position + placeholder.length ≤ d.position →
            (text.drop (b.position - start + placeholder.length)).drop
              (d.position - (b.position + placeholder.length)) =
            text.drop (d.position - start) := by
          intro d hd
          rw [List.drop_drop]
          congr 1
          omega
        rw [exists_fill_cons_iff hle hplaced, ih]
        constructor
        · rintro ⟨hrest, hapart⟩
          refine ⟨⟨⟨hle, hplaced⟩, fun d hd => ?_⟩, fun d hd => (hrest d hd).1, hapart⟩
          obtain ⟨hafter, hown⟩ := hrest d hd
          rw [hlater d hafter] at hown
          exact ⟨by omega, hown⟩
        · rintro ⟨⟨-, hrest⟩, hfirst, hapart⟩
          refine ⟨fun d hd => ⟨hfirst d hd, ?_⟩, hapart⟩
          rw [hlater d (hfirst d hd)]
          exact (hrest d hd).2
      · simp [fill_cons_of_none hplaced, hplaced]
    · simp [fill_cons_of_lt (Nat.lt_of_not_le hle), hle]

/-- The text of some pieces, each with what stands for the blank after it, and of what follows. -/
def assemble (mark : Blank → List Char) : List (List Char × Blank) → List Char → List Char
  | [], rest => rest
  | (between, b) :: pieces, rest => between ++ (mark b ++ assemble mark pieces rest)

/-- The text that begins at a place is cut at its blanks, which stand at their positions, and the
line has the same pieces with the answers between them. -/
structure Replaced (start : Nat) (text : List Char) (bs : List Blank) (line : List Char)
    (pieces : List (List Char × Blank)) (rest : List Char) : Prop where
  blanks : pieces.map Prod.snd = bs
  text : text = assemble (fun _ => placeholder) pieces rest
  line : line = assemble marked pieces rest
  positions : ∀ before between b after, pieces = before ++ (between, b) :: after →
    b.position = start + (assemble (fun _ => placeholder) before between).length

theorem Replaced.nil (start : Nat) (text : List Char) : Replaced start text [] text [] text := by
  refine ⟨rfl, rfl, rfl, ?_⟩
  intro before between b after h
  simp at h

theorem Replaced.cons {between rest line last : List Char} {pieces : List (List Char × Blank)}
    (hb : b.position = start + between.length)
    (h : Replaced (b.position + placeholder.length) rest bs line pieces last) :
    Replaced start (between ++ (placeholder ++ rest)) (b :: bs) (between ++ (marked b ++ line))
      ((between, b) :: pieces) last := by
  refine ⟨by rw [List.map_cons, h.blanks], by rw [assemble, h.text], by rw [assemble, h.line], ?_⟩
  intro before piece d after hpieces
  cases before with
  | nil =>
    obtain ⟨hfirst, -⟩ := List.cons.inj hpieces
    obtain ⟨rfl, rfl⟩ := Prod.mk.inj hfirst
    exact hb
  | cons first before =>
    obtain ⟨rfl, hrest⟩ := List.cons.inj hpieces
    rw [h.positions before piece d after hrest, hb]
    simp only [assemble, List.length_append]
    omega

/-- Filling succeeds with the line in which the answers replace the placeholders, and with no
other. -/
theorem fill_eq_ok_iff {line : List Char} :
    fill start text bs = .ok line ↔ ∃ pieces rest, Replaced start text bs line pieces rest := by
  constructor
  · intro h
    induction bs generalizing start text line with
    | nil =>
      obtain rfl : text = line := Except.ok.inj h
      exact ⟨[], text, .nil start text⟩
    | cons b bs ih =>
      obtain ⟨hplaced, -⟩ := exists_fill_iff.1 ⟨line, h⟩
      obtain ⟨hle, hown⟩ := hplaced b List.mem_cons_self
      obtain ⟨between, after, rfl, hposition⟩ := exists_cut hle hown
      rw [fill_append hposition, map_eq_ok_iff] at h
      obtain ⟨filled, hfilled, rfl⟩ := h
      obtain ⟨pieces, rest, hreplaced⟩ := ih hfilled
      exact ⟨_, rest, .cons hposition hreplaced⟩
  · rintro ⟨pieces, rest, h⟩
    obtain ⟨hblanks, htext, hline, hpositions⟩ := h
    induction pieces generalizing start text bs line with
    | nil =>
      obtain rfl : [] = bs := hblanks
      rw [htext, hline]
      rfl
    | cons first pieces ih =>
      obtain ⟨between, b⟩ := first
      obtain rfl : b :: pieces.map Prod.snd = bs := hblanks
      have hposition : b.position = start + between.length := hpositions [] between b pieces rfl
      rw [htext, hline, assemble, assemble, fill_append hposition, map_eq_ok_iff]
      refine ⟨_, ih rfl rfl rfl ?_, rfl⟩
      intro before piece d after hpieces
      rw [hpositions ((between, b) :: before) piece d after (by rw [hpieces, List.cons_append]),
        hposition]
      simp only [assemble, List.length_append]
      omega

theorem renderSentence_eq_ok_iff {s : FillSentence} {line : String} :
    renderSentence s = .ok line ↔ fill 0 s.text.toList s.blanks = .ok line.toList := by
  rw [renderSentence]
  cases fill 0 s.text.toList s.blanks <;> simp [← String.toList_inj]

/-- The position at fault is one of a blank. -/
theorem mem_of_fill {position : Nat} (h : fill start text bs = .error position) :
    ∃ b ∈ bs, b.position = position := by
  induction bs generalizing start text with
  | nil => cases h
  | cons b bs ih =>
    by_cases hplaced : start ≤ b.position ∧ placeholder <+: text.drop (b.position - start)
    · obtain ⟨between, rest, rfl, hposition⟩ := exists_cut hplaced.1 hplaced.2
      rw [fill_append hposition, map_eq_error_iff] at h
      obtain ⟨d, hd, hpos⟩ := ih h
      exact ⟨d, List.mem_cons_of_mem _ hd, hpos⟩
    · have hfirst : fill start text (b :: bs) = .error b.position := by
        rcases Classical.not_and_iff_not_or_not.1 hplaced with hlt | hnone
        · exact fill_cons_of_lt (Nat.lt_of_not_le hlt)
        · exact fill_cons_of_none hnone
      exact ⟨b, List.mem_cons_self, Except.error.inj (hfirst.symm.trans h)⟩

/-- A sentence that is not written has a blank at fault. -/
theorem misplaced_of_renderSentence {s : FillSentence} {e : ContentError}
    (h : renderSentence s = .error e) :
    ∃ b ∈ s.blanks, e = .line 0 (.misplacedBlank b.position s.text) := by
  rw [renderSentence] at h
  split at h
  · cases h
  · rename_i position hposition
    obtain ⟨b, hb, rfl⟩ := mem_of_fill hposition
    exact ⟨b, hb, (Except.error.inj h).symm⟩

/-- A sentence is written exactly if its blanks are placed. -/
theorem exists_renderSentence_iff {s : FillSentence} :
    (∃ line, renderSentence s = .ok line) ↔ s.Placed := by
  have hfill : (∃ line, renderSentence s = .ok line) ↔
      ∃ line, fill 0 s.text.toList s.blanks = .ok line := by
    rw [renderSentence]
    cases fill 0 s.text.toList s.blanks <;> simp
  rw [hfill, exists_fill_iff]
  constructor
  · rintro ⟨hplaced, hapart⟩
    exact ⟨hapart, fun b hb => (hplaced b hb).2⟩
  · intro h
    exact ⟨fun b hb => ⟨Nat.zero_le _, h.onPlaceholder b hb⟩, h.apart⟩

/-- The blanks of a line that was read are placed. -/
theorem placed_of_parseSentence {line : String} {s : FillSentence}
    (h : parseSentence line = some s) : s.Placed := by
  rw [parseSentence, display_eq] at h
  dsimp only at h
  split at h
  · cases h
  · obtain rfl := Option.some.inj h
    refine ⟨pairwise_blanks 0 _, fun b hb => ?_⟩
    have hplaceholder := placeholder_at hb
    rw [Nat.sub_zero] at hplaceholder
    rw [String.toList_ofList, ← hplaceholder]
    exact List.take_prefix _ _

theorem placed_of_parse {lines : List ContentLine} {sentences : List FillSentence}
    (h : parse lines = .ok sentences) : ∀ s ∈ sentences, s.Placed := by
  obtain ⟨found, hfound, -, rfl⟩ := bind_nonempty_eq_ok_iff.1 h
  intro s hs
  obtain ⟨l, -, hl⟩ := forall₂_exists_left (mapM_eq_ok_iff.1 hfound) hs
  rw [sentenceLine] at hl
  split at hl
  · rename_i own hown
    obtain rfl := Except.ok.inj hl
    exact placed_of_parseSentence hown
  · cases hl

end FillBlank

end Worksheet
