import Worksheet.Call.Quoted
import Worksheet.Call.Scanner
import Worksheet.Proofs.Chars.Split

namespace Worksheet

/-- What a character adds to the number of open brackets. -/
def Role.change : Role → Int
  | .opening => 1
  | .closing => -1
  | .quoted | .plain => 0

end Worksheet

namespace Worksheet.Scanner

/-- The scanner after a text. -/
def run (s : Scanner) (cs : List Char) : Scanner :=
  cs.foldl (fun s c => (s.step c).2) s

@[simp] theorem run_nil (s : Scanner) : s.run [] = s := rfl

@[simp] theorem run_cons (s : Scanner) (c : Char) (cs : List Char) :
    s.run (c :: cs) = (s.step c).2.run cs := rfl

theorem run_append (s : Scanner) (xs ys : List Char) : s.run (xs ++ ys) = (s.run xs).run ys :=
  List.foldl_append

/-- Whether all characters of a text are quoted or plain, and no plain one is the separator. -/
def Quiet (sep : Char) (s : Scanner) : List Char → Prop
  | [] => True
  | c :: cs =>
    ((s.step c).1 = .quoted ∨ (s.step c).1 = .plain ∧ c ≠ sep) ∧ Quiet sep (s.step c).2 cs

variable {sep : Char} {s : Scanner} {cs : List Char}

theorem Quiet.append {xs ys : List Char} (hx : Quiet sep s xs) (hy : Quiet sep (s.run xs) ys) :
    Quiet sep s (xs ++ ys) := by
  induction xs generalizing s with
  | nil => exact hy
  | cons x xs ih =>
    obtain ⟨hfirst, hrest⟩ := hx
    exact ⟨hfirst, ih hrest hy⟩

theorem depth_step (s : Scanner) (c : Char) :
    (s.step c).2.depth = s.depth + (s.step c).1.change := by
  cases hquote : s.quote with
  | some quote =>
    simp only [step, hquote, inside, Role.change]
    split_ifs <;> exact (Int.add_zero _).symm
  | none =>
    simp only [step, hquote]
    split_ifs <;> simp only [Role.change] <;> omega

/-- What is quoted or plain opens and closes no bracket. -/
theorem depth_step_of_quiet {c : Char}
    (h : (s.step c).1 = .quoted ∨ (s.step c).1 = .plain ∧ c ≠ sep) :
    (s.step c).2.depth = s.depth := by
  rw [depth_step]
  rcases h with hquoted | ⟨hplain, -⟩
  · rw [hquoted, Role.change, Int.add_zero]
  · rw [hplain, Role.change, Int.add_zero]

theorem cut_cons_of_ne {c : Char} (rest : List Char) (h : (c == sep && s.atTop c) = false) :
    ∃ piece pieces, cut sep (s.step c).2 rest = piece :: pieces ∧
      cut sep s (c :: rest) = (c :: piece) :: pieces := by
  cases hr : cut sep (s.step c).2 rest with
  | nil => exact absurd hr (cut_ne_nil sep _ rest)
  | cons piece pieces =>
    refine ⟨piece, pieces, rfl, ?_⟩
    rw [cut, if_neg (by simp [h]), hr]

theorem find?_cons_eq_none {needles : List Char} {c : Char} :
    s.find? needles (c :: cs) = none ↔
      (needles.contains c && s.atTop c) = false ∧ (s.step c).2.find? needles cs = none := by
  rw [find?]
  cases needles.contains c && s.atTop c <;> simp

theorem find?_append_eq_none {needles xs ys : List Char} :
    s.find? needles (xs ++ ys) = none ↔
      s.find? needles xs = none ∧ (s.run xs).find? needles ys = none := by
  induction xs generalizing s with
  | nil => simp [find?]
  | cons x xs ih => rw [List.cons_append, find?_cons_eq_none, find?_cons_eq_none, ih, and_assoc,
      run_cons]

/-- A search goes through text in which it finds nothing. -/
theorem find?_append_of_eq_none {needles : List Char} (h : s.find? needles cs = none)
    (rest : List Char) :
    s.find? needles (cs ++ rest) =
      ((s.run cs).find? needles rest).map fun (before, found) => (cs ++ before, found) := by
  induction cs generalizing s with
  | nil => simp
  | cons c cs ih =>
    obtain ⟨hfirst, hrest⟩ := find?_cons_eq_none.1 h
    rw [List.cons_append, find?, hfirst, if_neg Bool.false_ne_true, ih hrest, run_cons,
      Option.map_map]
    rfl

theorem find?_eq_none_of_not_mem {needles : List Char} (s : Scanner)
    (h : ∀ c ∈ cs, c ∉ needles) : s.find? needles cs = none := by
  induction cs generalizing s with
  | nil => rfl
  | cons c cs ih =>
    refine find?_cons_eq_none.2 ⟨by simp [h c (by simp)], ?_⟩
    exact ih _ fun d hd => h d (by simp [hd])

/-- Nothing that is looked for counts in a text that is quiet for it. -/
theorem find?_eq_none_of_quiet {needles : List Char} (h : ∀ c ∈ needles, Quiet c s cs) :
    s.find? needles cs = none := by
  induction cs generalizing s with
  | nil => rfl
  | cons c cs ih =>
    refine find?_cons_eq_none.2 ⟨?_, ih fun d hd => (h d hd).2⟩
    rw [Bool.and_eq_false_iff, ← Bool.not_eq_true, List.contains_iff_mem]
    by_cases hc : c ∈ needles
    · rcases (h c hc).1 with hquoted | ⟨-, hne⟩
      · exact Or.inr (by simp [atTop, hquoted])
      · exact absurd rfl hne
    · exact Or.inl hc

/-- Within brackets nothing counts, as long as none of them closes. -/
theorem find?_eq_none_of_open {needles : List Char} (h : Quiet sep s cs) (hopen : 0 < s.depth) :
    s.find? needles cs = none := by
  induction cs generalizing s with
  | nil => rfl
  | cons c cs ih =>
    have hdepth : (s.step c).2.depth = s.depth := depth_step_of_quiet h.1
    refine find?_cons_eq_none.2 ⟨?_, ih h.2 (by rwa [hdepth])⟩
    have hbelow : ¬ s.depth ≤ 0 := by omega
    simp [atTop, hbelow]

/-- Text in which the separator does not count goes to the first piece of what follows it. -/
theorem cut_append_of_find?_eq_none (h : s.find? [sep] cs = none) (rest : List Char) :
    ∃ piece pieces, cut sep (s.run cs) rest = piece :: pieces ∧
      cut sep s (cs ++ rest) = (cs ++ piece) :: pieces := by
  induction cs generalizing s with
  | nil =>
    cases hr : cut sep s rest with
    | nil => exact absurd hr (cut_ne_nil sep s rest)
    | cons piece pieces => exact ⟨piece, pieces, hr, hr⟩
  | cons c cs ih =>
    obtain ⟨hfirst, hrest⟩ := find?_cons_eq_none.1 h
    obtain ⟨piece, pieces, hp, he⟩ := ih hrest
    have hnot : (c == sep && s.atTop c) = false := by
      rwa [List.contains_cons, List.contains_nil, Bool.or_false] at hfirst
    obtain ⟨first, others, hcut, hcons⟩ := cut_cons_of_ne (cs ++ rest) hnot
    rw [he] at hcut
    obtain ⟨rfl, rfl⟩ := List.cons.inj hcut
    exact ⟨piece, pieces, hp, hcons⟩

theorem cut_of_find?_eq_none (h : s.find? [sep] cs = none) : cut sep s cs = [cs] := by
  obtain ⟨piece, pieces, hp, he⟩ := cut_append_of_find?_eq_none h []
  obtain ⟨rfl, rfl⟩ := List.cons.inj hp
  simpa using he

theorem Quiet.find?_eq_none (h : Quiet sep s cs) : s.find? [sep] cs = none := by
  apply find?_eq_none_of_quiet
  intro c hc
  rwa [List.mem_singleton.1 hc]

/-- Quiet text goes to the first piece of what follows it. -/
theorem cut_append_of_quiet (h : Quiet sep s cs) (rest : List Char) :
    ∃ piece pieces, cut sep (s.run cs) rest = piece :: pieces ∧
      cut sep s (cs ++ rest) = (cs ++ piece) :: pieces :=
  cut_append_of_find?_eq_none h.find?_eq_none rest

theorem cut_of_quiet (h : Quiet sep s cs) : cut sep s cs = [cs] :=
  cut_of_find?_eq_none h.find?_eq_none

/-- Quiet text does not close what is open. -/
theorem close?_append_of_quiet (h : Quiet sep s cs) (rest : List Char) :
    s.close? (cs ++ rest) =
      ((s.run cs).close? rest).map fun (inside, after) => (cs ++ inside, after) := by
  induction cs generalizing s with
  | nil => simp
  | cons c cs ih =>
    obtain ⟨hfirst, hrest⟩ := h
    have hrole : ((s.step c).1 == .closing && (s.step c).2.depth == 0) = false := by
      rcases hfirst with hq | ⟨hp, -⟩
      · rw [hq]
        rfl
      · rw [hp]
        rfl
    have hskip : s.close? (c :: (cs ++ rest)) = ((s.step c).2.close? (cs ++ rest)).map
        fun (inside, after) => (c :: inside, after) := by
      rw [close?]
      simp only [hrole, Bool.false_eq_true, if_false]
    rw [List.cons_append, hskip, ih hrest, run_cons, Option.map_map]
    rfl

/-- A search goes through text in which none of the needles stands. -/
theorem find?_append_of_not_mem {needles cs : List Char} (s : Scanner)
    (h : ∀ c ∈ cs, c ∉ needles) (rest : List Char) :
    s.find? needles (cs ++ rest) =
      ((s.run cs).find? needles rest).map fun (before, found) => (cs ++ before, found) :=
  find?_append_of_eq_none (find?_eq_none_of_not_mem s h) rest

/-- Outside strings, with the given number of open brackets. -/
structure Idle (depth : Int) (s : Scanner) : Prop where
  quote : s.quote = none
  escaped : s.escaped = false
  depth : s.depth = depth

/-- In a string and not after a backslash. -/
structure InString (quote : Char) (depth : Int) (s : Scanner) : Prop where
  quote : s.quote = some quote
  escaped : s.escaped = false
  depth : s.depth = depth

theorem idle_start (depth : Int) : Idle depth { depth } := ⟨rfl, rfl, rfl⟩

variable {depth : Int} {quote c : Char}

/-- Outside strings, a character that is no quote and no bracket is plain. -/
theorem step_of_plain (h : s.quote = none) (hdouble : c ≠ '"') (hsingle : c ≠ '\'')
    (hopen : isOpening c = false) (hclose : isClosing c = false) :
    s.step c = (.plain, { s with
      atValue := if Chars.isBlank c then s.atValue else startsValue c }) := by
  simp [step, h, hdouble, hsingle, hopen, hclose]

theorem Idle.step_plain (h : Idle depth s) (hdouble : c ≠ '"') (hsingle : c ≠ '\'')
    (hopen : isOpening c = false) (hclose : isClosing c = false) :
    (s.step c).1 = .plain ∧ Idle depth (s.step c).2 := by
  rw [step_of_plain h.quote hdouble hsingle hopen hclose]
  exact ⟨rfl, h.quote, h.escaped, h.depth⟩

theorem Idle.step_quote (h : Idle depth s) :
    (s.step '"').1 = .quoted ∧ InString '"' depth (s.step '"').2 := by
  have hstep : s.step '"' = (.quoted, { s with quote := some '"', atValue := false }) := by
    simp [step, h.quote]
  rw [hstep]
  exact ⟨rfl, rfl, h.escaped, h.depth⟩

theorem InString.step (h : InString quote depth s) : s.step c = (.quoted, s.inside quote c) := by
  rw [Scanner.step, h.quote]

theorem InString.step_other (h : InString quote depth s) (hslash : c ≠ '\\') (hquote : c ≠ quote) :
    (s.step c).1 = .quoted ∧ InString quote depth (s.step c).2 := by
  have hinside : s.inside quote c = s := by
    simp [inside, h.escaped, hslash, hquote]
  rw [h.step, hinside]
  exact ⟨rfl, h⟩

theorem InString.step_quote (h : InString quote depth s) (hquote : quote ≠ '\\') :
    (s.step quote).1 = .quoted ∧ Idle depth (s.step quote).2 := by
  have hinside : s.inside quote quote = { s with quote := none } := by
    simp [inside, h.escaped, hquote]
  rw [h.step, hinside]
  exact ⟨rfl, rfl, h.escaped, h.depth⟩

/-- A backslash and any character after it stay within the string. -/
theorem InString.step_escaped (h : InString quote depth s) (sep c : Char) :
    Quiet sep s ['\\', c] ∧ InString quote depth (s.run ['\\', c]) := by
  have hslash : s.step '\\' = (.quoted, { s with escaped := true }) := by
    rw [h.step]
    simp [inside, h.escaped]
  have hafter : Scanner.step { s with escaped := true } c =
      (.quoted, { s with escaped := false }) := by
    simp [Scanner.step, h.quote, inside]
  simp only [Quiet, run_cons, run_nil, hslash, hafter]
  refine ⟨by simp, h.quote, rfl, h.depth⟩

/-- Escaped text stays within the string. -/
theorem InString.escape (h : InString '"' depth s) (sep : Char) (cs : List Char) :
    Quiet sep s (Quoted.escape cs) ∧ InString '"' depth (s.run (Quoted.escape cs)) := by
  induction cs generalizing s with
  | nil => exact ⟨trivial, h⟩
  | cons c cs ih =>
    rw [Quoted.escape]
    split
    · obtain ⟨hquiet, hin⟩ := h.step_escaped sep c
      obtain ⟨hrest, hend⟩ := ih hin
      have happend : '\\' :: c :: Quoted.escape cs = ['\\', c] ++ Quoted.escape cs := rfl
      rw [happend, run_append]
      exact ⟨hquiet.append hrest, hend⟩
    · rename_i hplain
      simp only [Bool.or_eq_true, beq_iff_eq, not_or] at hplain
      obtain ⟨hrole, hin⟩ := h.step_other hplain.2 hplain.1
      obtain ⟨hrest, hend⟩ := ih hin
      exact ⟨⟨Or.inl hrole, hrest⟩, hend⟩

/-- Whether a text leaves the scanner as idle as it was, wherever it stands outside strings. -/
def Neutral (sep : Char) (cs : List Char) : Prop :=
  ∀ depth s, Idle depth s → Quiet sep s cs ∧ Idle depth (s.run cs)

theorem neutral_nil : Neutral sep [] := fun _ _ h => ⟨trivial, h⟩

theorem Neutral.append {xs ys : List Char} (hx : Neutral sep xs) (hy : Neutral sep ys) :
    Neutral sep (xs ++ ys) := by
  intro depth s h
  obtain ⟨hquiet, hidle⟩ := hx depth s h
  obtain ⟨hrest, hend⟩ := hy depth _ hidle
  rw [run_append]
  exact ⟨hquiet.append hrest, hend⟩

/-- A character that is no quote, no bracket and no separator. -/
theorem neutral_singleton (hne : c ≠ sep) (hdouble : c ≠ '"') (hsingle : c ≠ '\'')
    (hopen : isOpening c = false) (hclose : isClosing c = false) : Neutral sep [c] := by
  intro depth s h
  obtain ⟨hrole, hidle⟩ := h.step_plain hdouble hsingle hopen hclose
  exact ⟨⟨Or.inr ⟨hrole, hne⟩, trivial⟩, hidle⟩

theorem neutral_of_forall (h : ∀ c ∈ cs, Neutral sep [c]) : Neutral sep cs := by
  induction cs with
  | nil => exact neutral_nil
  | cons c cs ih =>
    have hfirst : Neutral sep [c] := h c (by simp)
    have hrest : Neutral sep cs := ih fun d hd => h d (by simp [hd])
    exact hfirst.append hrest

theorem neutral_join {mid : List Char} {texts : List (List Char)} (hmid : Neutral sep mid)
    (h : ∀ t ∈ texts, Neutral sep t) : Neutral sep (Chars.join mid texts) := by
  induction texts with
  | nil => exact neutral_nil
  | cons text rest ih =>
    have ht : Neutral sep text := h text (by simp)
    cases rest with
    | nil => exact ht
    | cons next rest =>
      have hrest : Neutral sep (Chars.join mid (next :: rest)) :=
        ih fun t hm => h t (by simp [hm])
      exact (ht.append hmid).append hrest

/-- A quoted text is neutral, whatever stands in it. -/
theorem neutral_quoted (cs : List Char) : Neutral sep ('"' :: Quoted.escape cs ++ ['"']) := by
  intro depth s h
  obtain ⟨hopen, hin⟩ := h.step_quote
  obtain ⟨hinner, hend⟩ := hin.escape sep cs
  obtain ⟨hclose, hidle⟩ := hend.step_quote (by decide)
  have hrun : s.run ('"' :: Quoted.escape cs ++ ['"']) =
      (((s.step '"').2.run (Quoted.escape cs)).step '"').2 := by
    rw [List.cons_append, run_cons, run_append]
    rfl
  rw [hrun]
  exact ⟨⟨Or.inl hopen, hinner.append ⟨Or.inl hclose, trivial⟩⟩, hidle⟩

/-- White space is no quote and no bracket. -/
theorem plain_of_isBlank {c : Char} (hc : Chars.isBlank c = true) :
    c ≠ '"' ∧ c ≠ '\'' ∧ isOpening c = false ∧ isClosing c = false := by
  have hne : ∀ d, Chars.isBlank d = false → c ≠ d := by
    rintro d hd rfl
    rw [hc] at hd
    cases hd
  have hopen : isOpening c = false := by
    simp [isOpening, hne '(' (by decide), hne '[' (by decide), hne '\x7b' (by decide)]
  have hclose : isClosing c = false := by
    simp [isClosing, hne ')' (by decide), hne ']' (by decide), hne '\x7d' (by decide)]
  exact ⟨hne '"' (by decide), hne '\'' (by decide), hopen, hclose⟩

theorem neutral_of_isBlank (hsep : Chars.isBlank sep = false)
    (h : cs.all Chars.isBlank = true) : Neutral sep cs := by
  apply neutral_of_forall
  intro c hc
  have hblank := List.all_eq_true.1 h c hc
  obtain ⟨hdouble, hsingle, hopen, hclose⟩ := plain_of_isBlank hblank
  have hne : c ≠ sep := by
    rintro rfl
    rw [hblank] at hsep
    cases hsep
  exact neutral_singleton hne hdouble hsingle hopen hclose

theorem neutral_of_not_special (hsep : Quoted.isSpecial sep = true)
    (h : ∀ c ∈ cs, Quoted.isSpecial c = false) : Neutral sep cs := by
  apply neutral_of_forall
  intro c hc
  have hne : ∀ d, Quoted.isSpecial d = true → c ≠ d := by
    rintro d hd rfl
    exact absurd hd (by simp [h c hc])
  have hopen : isOpening c = false := by
    simp [isOpening, hne '(' (by decide), hne '[' (by decide), hne '\x7b' (by decide)]
  have hclose : isClosing c = false := by
    simp [isClosing, hne ')' (by decide), hne ']' (by decide), hne '\x7d' (by decide)]
  exact neutral_singleton (hne sep hsep) (hne '"' (by decide)) (hne '\'' (by decide)) hopen hclose

/-- A text is cut where neutral texts are joined. -/
theorem cut_join_of_neutral (h : Idle 0 s) {text : List Char} {rest : List (List Char)}
    (ht : Neutral ',' text) (hrest : ∀ t ∈ rest, Neutral ',' t) :
    cut ',' s (Chars.join [',', ' '] (text :: rest)) = text :: rest.map (' ' :: ·) := by
  induction rest generalizing text s with
  | nil => exact cut_of_quiet (ht 0 s h).1
  | cons next rest ih =>
    obtain ⟨hquiet, hidle⟩ := ht 0 s h
    obtain ⟨hrole, hafter⟩ := hidle.step_plain (by decide : ',' ≠ '"') (by decide) (by decide)
      (by decide)
    have htop : (s.run text).atTop ',' = true := by
      simp [atTop, hrole, hidle.depth]
    have hspace : Neutral ',' (' ' :: next) := by
      have hblank : Neutral ',' [' '] :=
        neutral_singleton (by decide) (by decide) (by decide) (by decide) (by decide)
      exact hblank.append (hrest next (by simp))
    have hlast := ih hafter hspace fun t hm => hrest t (by simp [hm])
    have hjoin : Chars.join [',', ' '] (text :: next :: rest) =
        text ++ ',' :: Chars.join [',', ' '] ((' ' :: next) :: rest) := by
      rw [Chars.join_cons_cons]
      cases rest <;> simp [Chars.join]
    obtain ⟨piece, pieces, hp, he⟩ :=
      cut_append_of_quiet hquiet (',' :: Chars.join [',', ' '] ((' ' :: next) :: rest))
    rw [cut, if_pos (by simp [htop]), hlast] at hp
    obtain ⟨rfl, rfl⟩ := List.cons.inj hp
    rw [hjoin, he]
    simp

/-- Neutral text before a closing parenthesis is all that it encloses. -/
theorem close?_of_neutral (h : Idle 1 s) (ht : Neutral sep cs) (after : List Char) :
    s.close? (cs ++ ')' :: after) = some (cs, after) := by
  obtain ⟨hquiet, hidle⟩ := ht 1 s h
  have hclose : (s.run cs).close? (')' :: after) = some ([], after) := by
    simp [close?, step, hidle.quote, hidle.depth, isOpening, isClosing]
  rw [close?_append_of_quiet hquiet, hclose]
  simp

end Worksheet.Scanner
