import Worksheet.Content.FillBlank
import Worksheet.Proofs.Chars.Split

namespace Worksheet.FillBlank

inductive Token where
  | plain (c : Char)
  | blank (inner : List Char)

namespace Token

/-- How a token is written in a line. -/
def source : Token → List Char
  | plain c => [c]
  | blank inner => '*' :: inner ++ ['*']

/-- How a token is displayed. -/
def shown : Token → List Char
  | plain c => [c]
  | blank _ => placeholder

/-- The blanks of tokens of which the display begins at the given place. -/
def blanks (start : Nat) : List Token → List Blank
  | [] => []
  | plain _ :: ts => blanks (start + 1) ts
  | blank inner :: ts => ⟨start, answers inner⟩ :: blanks (start + placeholder.length) ts

/-- The token with single bars between its trimmed answers. -/
def tidy : Token → Token
  | plain c => plain c
  | blank inner => blank (Chars.join ['|'] ((answers inner).map String.toList))

end Token

/-- The line that tokens stand for. -/
def source (ts : List Token) : List Char := ts.flatMap Token.source

/-- The displayed text of tokens. -/
def shown (ts : List Token) : List Char := ts.flatMap Token.shown

@[simp] theorem source_nil : source [] = [] := rfl

@[simp] theorem source_cons (t : Token) (ts : List Token) :
    source (t :: ts) = t.source ++ source ts := rfl

@[simp] theorem shown_nil : shown [] = [] := rfl

@[simp] theorem shown_cons (t : Token) (ts : List Token) :
    shown (t :: ts) = t.shown ++ shown ts := rfl

theorem length_after_le {c : Char} {rest inner after : List Char}
    (h : blank? (c :: rest) = some (inner, after)) : after.length ≤ rest.length := by
  have hl := congrArg List.length (blank?_append h)
  simp only [List.length_cons, List.length_append] at hl
  omega

/-- The tokens of a line. -/
def tokens (cs : List Char) : List Token :=
  match cs with
  | [] => []
  | c :: rest =>
    match h : blank? (c :: rest) with
    | none => .plain c :: tokens rest
    | some (inner, after) =>
      have := length_after_le h
      .blank inner :: tokens after
termination_by cs.length

theorem tokens_nil : tokens [] = [] := by rw [tokens]

theorem tokens_of_plain {c : Char} {rest : List Char} (h : blank? (c :: rest) = none) :
    tokens (c :: rest) = .plain c :: tokens rest := by
  rw [tokens]
  split
  · rfl
  · rename_i hb
    rw [h] at hb
    exact absurd hb (by simp)

theorem tokens_of_blank {c : Char} {rest inner after : List Char}
    (h : blank? (c :: rest) = some (inner, after)) :
    tokens (c :: rest) = .blank inner :: tokens after := by
  rw [tokens]
  split
  · rename_i hb
    rw [h] at hb
    exact absurd hb (by simp)
  · rename_i hb
    rw [h] at hb
    obtain ⟨rfl, rfl⟩ := Prod.mk.inj (Option.some.inj hb)
    rfl

/-- Displaying a line reads its tokens. -/
theorem display_eq (start : Nat) (cs : List Char) :
    display start cs = (shown (tokens cs), Token.blanks start (tokens cs)) := by
  fun_induction display start cs with
  | case1 start => simp [tokens_nil, Token.blanks]
  | case2 start c rest h text blanks hd ih =>
    rw [tokens_of_plain h]
    obtain ⟨rfl, rfl⟩ := Prod.mk.inj (hd.symm.trans ih)
    rfl
  | case3 start c rest inner after h this text blanks hd ih =>
    rw [tokens_of_blank h]
    obtain ⟨rfl, rfl⟩ := Prod.mk.inj (hd.symm.trans ih)
    rfl

/-- Nothing of a line is lost in its tokens. -/
theorem source_tokens (cs : List Char) : source (tokens cs) = cs := by
  fun_induction tokens cs with
  | case1 => rfl
  | case2 c rest h ih => simp [Token.source, ih]
  | case3 c rest inner after h this ih =>
    simpa [Token.source, ih] using blank?_append h

theorem le_position {start : Nat} {ts : List Token} {b : Blank}
    (h : b ∈ Token.blanks start ts) : start ≤ b.position := by
  induction ts generalizing start with
  | nil => simp [Token.blanks] at h
  | cons t ts ih =>
    cases t with
    | plain c => exact Nat.le_of_succ_le (ih h)
    | blank inner =>
      rcases List.mem_cons.1 h with rfl | h
      · exact Nat.le_refl _
      · have := ih h
        omega

/-- A blank lies at least a placeholder's length after the one before it. -/
theorem pairwise_blanks (start : Nat) (ts : List Token) :
    (Token.blanks start ts).Pairwise fun b d => b.position + placeholder.length ≤ d.position := by
  induction ts generalizing start with
  | nil => exact List.Pairwise.nil
  | cons t ts ih =>
    cases t with
    | plain c => exact ih _
    | blank inner => exact List.Pairwise.cons (fun d hd => le_position hd) (ih _)

/-- The blanks point at placeholders of the displayed text. -/
theorem placeholder_at {start : Nat} {ts : List Token} {b : Blank}
    (h : b ∈ Token.blanks start ts) :
    ((shown ts).drop (b.position - start)).take placeholder.length = placeholder := by
  induction ts generalizing start with
  | nil => simp [Token.blanks] at h
  | cons t ts ih =>
    cases t with
    | plain c =>
      have hle : start + 1 ≤ b.position := le_position h
      have hs : b.position - start = (b.position - (start + 1)) + 1 := by omega
      rw [hs]
      exact ih h
    | blank inner =>
      rcases List.mem_cons.1 h with rfl | h
      · simp [Token.shown, placeholder]
      · have hle := le_position h
        have hs : b.position - start =
            placeholder.length + (b.position - (start + placeholder.length)) := by omega
        rw [hs, shown_cons, ← List.drop_drop, Token.shown, List.drop_left]
        exact ih h

theorem stripStart?_append (ps cs : List Char) : Chars.stripStart? ps (ps ++ cs) = some cs := by
  induction ps with
  | nil => rfl
  | cons p ps ih => simp [Chars.stripStart?, ih]

/-- A character before all blanks is kept when they are filled. -/
theorem fill_cons {start : Nat} {c : Char} {text : List Char} {bs : List Blank}
    (h : ∀ b ∈ bs, start + 1 ≤ b.position) :
    fill start (c :: text) bs = (fill (start + 1) text bs).map (c :: ·) := by
  cases bs with
  | nil => rfl
  | cons b bs =>
    have hb := h b (by simp)
    have hs : b.position - start = (b.position - (start + 1)) + 1 := by omega
    rw [fill, fill, if_neg (by omega), if_neg (by omega), hs, List.drop_succ_cons,
      List.take_succ_cons]
    cases Chars.stripStart? placeholder (text.drop (b.position - (start + 1))) with
    | none => rfl
    | some rest =>
      dsimp only
      cases fill (b.position + placeholder.length) rest bs <;> rfl

/-- Filling the displayed text of tokens writes them with tidy answers. -/
theorem fill_shown (start : Nat) (ts : List Token) :
    fill start (shown ts) (Token.blanks start ts) = .ok (source (ts.map Token.tidy)) := by
  induction ts generalizing start with
  | nil => rfl
  | cons t ts ih =>
    cases t with
    | plain c =>
      rw [Token.blanks, shown_cons]
      show fill start (c :: shown ts) _ = _
      rw [fill_cons fun b hb => le_position hb, ih]
      rfl
    | blank inner =>
      rw [Token.blanks, shown_cons, Token.shown, fill, if_neg (by simp), Nat.sub_self,
        List.drop_zero, stripStart?_append]
      simp only [ih, Except.map, List.take_zero, List.nil_append, List.map_cons, source_cons]
      simp [Token.tidy, Token.source]

end Worksheet.FillBlank
