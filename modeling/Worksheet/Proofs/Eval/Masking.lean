import Worksheet.Proofs.Eval.Randomize

namespace Worksheet

variable {α : Type}

theorem splitOn_cons [BEq α] (sep item : α) (rest : List α) :
    (item :: rest).splitOn sep = if item == sep then [] :: rest.splitOn sep
      else (rest.splitOn sep).modifyHead (item :: ·) :=
  List.splitOnP_cons_eq_if_modifyHead item rest

theorem length_splitOn [BEq α] (sep : α) (items : List α) :
    (items.splitOn sep).length = items.count sep + 1 := by
  induction items with
  | nil => rfl
  | cons item rest ih =>
    rw [splitOn_cons, List.count_cons]
    by_cases h : (item == sep) = true
    · simp [h, ih]
    · simp [h, ih]

/-- Lists that are related item by item are related between their separators, if these stand at the
same places. -/
theorem forall₂_splitOn [BEq α] {R : α → α → Prop} {sep : α} {before after : List α}
    (h : List.Forall₂ (fun x y => (x == sep) = (y == sep) ∧ R x y) before after) :
    List.Forall₂ (List.Forall₂ R) (before.splitOn sep) (after.splitOn sep) := by
  induction h with
  | nil => exact .cons .nil .nil
  | @cons x y xs ys hxy _ ih =>
    obtain ⟨hsep, hr⟩ := hxy
    rw [splitOn_cons, splitOn_cons, hsep]
    by_cases hy : (y == sep) = true
    · rw [if_pos hy, if_pos hy]
      exact .cons .nil ih
    · rw [if_neg hy, if_neg hy]
      generalize xs.splitOn sep = firsts at ih ⊢
      generalize ys.splitOn sep = others at ih ⊢
      cases ih with
      | nil => exact .nil
      | cons hfirst hrest => exact .cons (.cons hr hfirst) hrest

theorem mem_intercalate {sep : List α} {parts : List (List α)} {item : α}
    (h : item ∈ sep.intercalate parts) : item ∈ sep ∨ ∃ part ∈ parts, item ∈ part := by
  induction parts with
  | nil => simp at h
  | cons part rest ih =>
    cases rest with
    | nil => exact Or.inr ⟨part, by simp, by simpa using h⟩
    | cons next rest =>
      rw [List.intercalate_cons_cons, List.mem_append, List.mem_append] at h
      rcases h with (h | h) | h
      · exact Or.inr ⟨part, by simp, h⟩
      · exact Or.inl h
      · rcases ih h with h | ⟨other, hother, hitem⟩
        · exact Or.inl h
        · exact Or.inr ⟨other, by simp [hother], hitem⟩

namespace Chars

/-- The word that stands between the items of a list. -/
def bar : List Char := ['|']

theorem isWord_bar : IsWord bar := ⟨by simp [bar], by simp [bar]; decide⟩

/-- The words of texts with bars between neighbours. -/
theorem words_join_bars (texts : List (List Char)) :
    words (join " | ".toList texts) = [bar].intercalate (texts.map words) := by
  have hblank : isBlank ' ' = true := by decide
  induction texts with
  | nil => rfl
  | cons text rest ih =>
    cases rest with
    | nil => simp [join]
    | cons next rest =>
      have hsep : text ++ " | ".toList ++ join " | ".toList (next :: rest) =
          text ++ ' ' :: (bar ++ ' ' :: join " | ".toList (next :: rest)) := by simp [bar]
      rw [join_cons_cons, hsep, words_append_cons _ _ hblank, words_append_cons _ _ hblank,
        isWord_bar.words_eq, ih]
      simp [List.intercalate_cons_cons]

/-- A word before further words begins the first piece of their text. -/
theorem map_words_splitOn_append {word : List Char} (hword : IsWord word) (hbar : '|' ∉ word)
    (cs : List Char) : (splitOn '|' (word ++ ' ' :: cs)).map words =
      ((splitOn '|' cs).map words).modifyHead (word :: ·) := by
  have hblank : isBlank ' ' = true := by decide
  have hfront : '|' ∉ word ++ [' '] := by simpa using hbar
  rw [List.append_cons, splitOn_append_of_not_mem hfront]
  cases splitOn '|' cs with
  | nil => rfl
  | cons piece pieces =>
    have hpiece : words (word ++ ' ' :: piece) = word :: words piece := by
      rw [words_append_cons _ _ hblank, hword.words_eq, List.singleton_append]
    simp [hpiece]

/-- The words of the pieces of a text of words are what is between its bars. -/
theorem map_words_splitOn_join {texts : List (List Char)}
    (h : ∀ text ∈ texts, IsWord text ∧ (text = bar ∨ '|' ∉ text)) :
    (splitOn '|' (join [' '] texts)).map words = texts.splitOn bar := by
  have hblank : isBlank ' ' = true := by decide
  have hspace : ∀ cs, (splitOn '|' (' ' :: cs)).map words = (splitOn '|' cs).map words := by
    intro cs
    have hsplit := splitOn_append_of_not_mem (by decide : '|' ∉ [' ']) cs
    rw [List.singleton_append] at hsplit
    rw [hsplit]
    cases splitOn '|' cs with
    | nil => rfl
    | cons piece pieces =>
      have hpiece : words (' ' :: piece) = words piece := words_append_cons [] piece hblank
      simp [hpiece]
  induction texts with
  | nil => rfl
  | cons text rest ih =>
    have hrest := ih fun other hother => h other (List.mem_cons_of_mem _ hother)
    obtain ⟨hword, hbar⟩ := h text List.mem_cons_self
    rw [splitOn_cons, ← hrest]
    by_cases htext : text = bar
    · -- A bar ends a piece that has no words.
      subst htext
      have hcut : ∀ cs, splitOn '|' ('|' :: cs) = [] :: splitOn '|' cs :=
        fun cs => splitOn_append_cons '|' [] cs
      rw [if_pos (beq_self_eq_true bar)]
      cases rest with
      | nil => rfl
      | cons next others =>
        rw [join_cons_cons, bar, List.append_assoc, List.singleton_append, List.singleton_append,
          hcut, List.map_cons, hspace]
        rfl
    · have hplain : '|' ∉ text := hbar.resolve_left htext
      rw [if_neg (by simpa using htext)]
      cases rest with
      | nil =>
        have hsingle : join [' '] [text] = text := rfl
        rw [hsingle, splitOn_eq_singleton hplain, List.map_singleton, hword.words_eq]
        rfl
      | cons next others =>
        rw [join_cons_cons, List.append_assoc, List.singleton_append,
          map_words_splitOn_append hword hplain]

end Chars

namespace Builtin

/-- The word that takes the place of a hidden word. -/
def gap : List Char := ['_', '_', '_']

theorem isWord_gap : Chars.IsWord gap := ⟨by simp [gap], by simp [gap]; decide⟩

section Places

theorem getElem?_replaceAt (places : List Nat) (gap : α) (items : List α) (place : Nat) :
    (replaceAt places gap items)[place]? =
      items[place]?.map fun item => if place ∈ places then gap else item := by
  simp [replaceAt]

/-- Items of a class that are replaced by an item outside the class are missing afterwards. -/
theorem countP_replaceAt {p : α → Bool} {gap : α} (hgap : p gap = false) {places : List Nat}
    {items : List α} (hnodup : places.Nodup) (hlt : ∀ place ∈ places, place < items.length) :
    (replaceAt places gap items).countP p + places.countP (fun place => items[place]?.any p) =
      items.countP p := by
  have hcount : ∀ others : List α, others.length = items.length →
      others.countP p = (List.range items.length).countP fun place => others[place]?.any p := by
    intro others hlength
    rw [← length_places p others, List.countP_eq_length_filter, hlength]
  have hlength : (replaceAt places gap items).length = items.length := by simp [replaceAt]
  have hhidden : ((List.range items.length).filter (· ∈ places)).Perm places := by
    rw [List.perm_ext_iff_of_nodup (List.nodup_range.filter _) hnodup]
    intro place
    simpa using hlt place
  have hkept : ∀ place, (replaceAt places gap items)[place]?.any p =
      (items[place]?.any p && !decide (place ∈ places)) := by
    intro place
    rw [getElem?_replaceAt]
    by_cases hmem : place ∈ places
    · cases items[place]? <;> simp [hmem, hgap]
    · cases items[place]? <;> simp [hmem]
  have hall := List.countP_eq_countP_filter_add (List.range items.length)
    (fun place => items[place]?.any p) (· ∈ places)
  rw [hcount items rfl, hall, hhidden.countP_eq, Nat.add_comm, hcount _ hlength]
  simp only [hkept, List.countP_filter]

/-- Hiding items that are no separators leaves the separators where they are. -/
theorem forall₂_replaceAt [BEq α] [LawfulBEq α] {gap sep : α} (hgap : (gap == sep) = false)
    {places : List Nat} {items : List α}
    (h : ∀ place ∈ places, items[place]? ≠ some sep) :
    List.Forall₂ (fun item other => (item == sep) = (other == sep) ∧
      (other = item ∨ other = gap)) items (replaceAt places gap items) := by
  rw [List.forall₂_iff_get]
  refine ⟨by simp [replaceAt], ?_⟩
  intro place hitem hother
  have hget := getElem?_replaceAt places gap items place
  rw [List.getElem?_eq_getElem hitem, List.getElem?_eq_getElem hother] at hget
  simp only [Option.map_some, Option.some.injEq] at hget
  rw [List.get_eq_getElem, List.get_eq_getElem]
  dsimp only
  rw [hget]
  by_cases hmem : place ∈ places
  · have hne : items[place] ≠ sep := by
      intro heq
      exact h place hmem (by rw [List.getElem?_eq_getElem hitem, heq])
    rw [if_pos hmem]
    exact ⟨by rw [hgap, beq_eq_false_iff_ne.2 hne], Or.inr rfl⟩
  · rw [if_neg hmem]
    exact ⟨rfl, Or.inl rfl⟩

end Places

section Lists

variable {σ : Type} {items : List String}

open Chars (IsWord bar)

/-- The words of the text that stands for a list of texts. -/
theorem words_render_list (items : List String) :
    Chars.words (Value.list (items.map .text)).render.toList =
      [bar].intercalate (items.map fun item => Chars.words item.toList) := by
  have htexts : Value.renderAll (items.map .text) = items := by
    rw [Value.renderAll_eq_map, List.map_map]
    conv_rhs => rw [← List.map_id items]
    apply List.map_congr_left
    intro item _
    simp [Value.render]
  rw [Value.render, htexts, Text.join, String.toList_ofList, Chars.words_join_bars, List.map_map]
  rfl

/-- The words of a list of texts without bars are bars and words without bars. -/
theorem isWord_of_mem_list (hbar : ∀ item ∈ items, '|' ∉ item.toList) {word : List Char}
    (h : word ∈ Chars.words (Value.list (items.map .text)).render.toList) :
    IsWord word ∧ (word = bar ∨ '|' ∉ word) := by
  refine ⟨Chars.isWord_of_mem_words h, ?_⟩
  rw [words_render_list] at h
  rcases mem_intercalate h with hsep | ⟨words, hwords, hword⟩
  · exact Or.inl (List.mem_singleton.1 hsep)
  · obtain ⟨item, hitem, rfl⟩ := List.mem_map.1 hwords
    refine Or.inr fun hmem => hbar item hitem ?_
    exact (Chars.of_mem_splitWhere (List.mem_filter.1 hword).1 _ hmem).1

/-- Between the bars of a list of texts without bars stand the words of its items. -/
theorem splitOn_words_list (hne : items ≠ []) (hbar : ∀ item ∈ items, '|' ∉ item.toList) :
    (Chars.words (Value.list (items.map .text)).render.toList).splitOn bar =
      items.map fun item => Chars.words item.toList := by
  rw [words_render_list, List.splitOn_intercalate]
  · intro words hwords hmem
    obtain ⟨item, hitem, rfl⟩ := List.mem_map.1 hwords
    have hin : '|' ∈ item.toList :=
      (Chars.of_mem_splitWhere (List.mem_filter.1 hmem).1 '|' (by simp [bar])).1
    exact hbar item hitem hin
  · simpa using hne

variable {places : List Nat}

/-- The words of the pieces that are left of a list with gaps. -/
theorem map_words_pieces (hbar : ∀ item ∈ items, '|' ∉ item.toList) :
    let tokens := Chars.words (Value.list (items.map .text)).render.toList
    (Chars.splitOn '|' (Chars.join [' '] (replaceAt places gap tokens))).map Chars.words =
      (replaceAt places gap tokens).splitOn bar := by
  intro tokens
  apply Chars.map_words_splitOn_join
  intro word hword
  obtain ⟨place, hplace⟩ := List.mem_iff_getElem?.1 hword
  rw [getElem?_replaceAt] at hplace
  obtain ⟨token, htoken, rfl⟩ := Option.map_eq_some_iff.1 hplace
  split
  · exact ⟨isWord_gap, Or.inr (by decide)⟩
  · exact isWord_of_mem_list hbar (List.mem_of_getElem? htoken)

/-- Each bar that is hidden makes one piece less. -/
theorem length_pieces (hne : items ≠ []) (hbar : ∀ item ∈ items, '|' ∉ item.toList)
    (hnodup : places.Nodup) :
    let tokens := Chars.words (Value.list (items.map .text)).render.toList
    (∀ place ∈ places, place < tokens.length) →
    (Chars.splitOn '|' (Chars.join [' '] (replaceAt places gap tokens))).length +
      places.countP (fun place => tokens[place]? == some bar) = items.length := by
  intro tokens hlt
  have hpieces : (Chars.splitOn '|' (Chars.join [' '] (replaceAt places gap tokens))).length =
      (replaceAt places gap tokens).count bar + 1 := by
    rw [← length_splitOn, ← map_words_pieces hbar, List.length_map]
  have hitems : tokens.count bar + 1 = items.length := by
    rw [← length_splitOn, splitOn_words_list hne hbar, List.length_map]
  have hcount : (replaceAt places gap tokens).count bar +
      places.countP (fun place => tokens[place]?.any (· == bar)) = tokens.count bar :=
    countP_replaceAt (by decide) hnodup hlt
  have hsame : (fun place : Nat => tokens[place]?.any (· == bar)) =
      fun place : Nat => tokens[place]? == some bar := by
    funext place
    cases tokens[place]? <;> rfl
  rw [hsame] at hcount
  omega

/-- A piece that has the words of an item, with gaps in the place of some. -/
def Masks (item piece : String) : Prop :=
  List.Forall₂ (fun word shown => shown = word ∨ shown = gap) (Chars.words item.toList)
    (Chars.words piece.toList)

/-- Without a hidden bar the pieces are the items with gaps. -/
theorem forall₂_masks (hne : items ≠ []) (hbar : ∀ item ∈ items, '|' ∉ item.toList) :
    let tokens := Chars.words (Value.list (items.map .text)).render.toList
    (∀ place ∈ places, tokens[place]? ≠ some bar) →
    List.Forall₂ Masks items
      (Text.splitOn '|' (String.ofList (Chars.join [' '] (replaceAt places gap tokens)))) := by
  intro tokens hplaces
  have hbetween := forall₂_splitOn (forall₂_replaceAt (by decide : (gap == bar) = false) hplaces)
  rw [splitOn_words_list hne hbar, ← map_words_pieces hbar] at hbetween
  rw [Text.splitOn, String.toList_ofList, List.forall₂_map_right_iff]
  rw [List.forall₂_map_left_iff, List.forall₂_map_right_iff] at hbetween
  refine hbetween.imp ?_
  intro item piece hmasks
  rw [Masks, String.toList_ofList]
  exact hmasks

/-- Gaps in a list of texts without bars. It has as many pieces less than items as bars are drawn,
and its pieces are the items with gaps in the place of some words exactly if none is drawn. -/
theorem randomize_masks_list [RandomSource σ] [LawfulRandomSource σ] {ctx : Context σ} {call : Call}
    {kind : Option Value} {amount : Nat} {w w₁ w₂ w₃ : World σ} (hne : items ≠ [])
    (hbar : ∀ item ∈ items, '|' ∉ item.toList)
    (hcontent : (ctx.argument call 0 "content").run.run w = (.ok (.list (items.map .text)), w₁))
    (hkind : (ctx.argument? call 1 "kind").run.run w₁ = (.ok kind, w₂))
    (hamount : (ctx.countArgument call 2 "amount").run.run w₂ = (.ok amount, w₃))
    (hmode : Mode.chosen? kind = some .mask) :
    let tokens := Chars.words (Value.list (items.map .text)).render.toList
    let drawn := (sampleIndices tokens.length amount w₃.random).1
    ∃ out s, (randomize.call ctx call).run.run w = (.ok (.text out), { w₃ with random := s }) ∧
      (Text.splitOn '|' out).length +
        drawn.countP (fun place => tokens[place]? == some bar) = items.length ∧
      (List.Forall₂ Masks items (Text.splitOn '|' out) ↔
        ∀ place ∈ drawn, tokens[place]? ≠ some bar) := by
  intro tokens drawn
  have hsample : IsSample tokens.length (min amount tokens.length) drawn :=
    isSample_sampleIndices tokens.length amount w₃.random
  have hlength : (Text.splitOn '|'
      (String.ofList (Chars.join [' '] (replaceAt drawn gap tokens)))).length +
        drawn.countP (fun place => tokens[place]? == some bar) = items.length := by
    rw [Text.splitOn, String.toList_ofList, List.length_map]
    exact length_pieces hne hbar hsample.nodup hsample.lt
  refine ⟨_, _, run_randomize_rendered hcontent hkind hamount hmode nofun, hlength, ?_, ?_⟩
  · intro hmasks place hplace hhidden
    have hpieces := hmasks.length_eq
    have hsome : 0 < drawn.countP (fun place => tokens[place]? == some bar) :=
      List.countP_pos_iff.2 ⟨place, hplace, by simpa using hhidden⟩
    have hmask : (Mode.mask.apply amount tokens w₃.random).1 = replaceAt drawn gap tokens := rfl
    rw [hmask] at hpieces
    omega
  · exact forall₂_masks hne hbar

/-- The first draw is one of the places of a sample. -/
theorem below_mem_sampleIndices [RandomSource σ] [LawfulRandomSource σ] {length amount : Nat}
    (hlength : 0 < length) (hamount : 0 < amount) (s : σ) :
    (RandomSource.below length s).1 ∈ (sampleIndices length amount s).1 := by
  have hfalling := falling_fallingDraws (Nat.min_le_right amount length) s
  rw [sampleIndices_eq, sampleIndices_answers (length_fallingDraws _ _ s) hfalling]
  obtain ⟨count, hcount⟩ : ∃ count, min amount length = count + 1 :=
    ⟨min amount length - 1, by omega⟩
  have hfirst : (List.range length)[(RandomSource.below length s).1]? =
      some (RandomSource.below length s).1 := by
    have hlt := LawfulRandomSource.below_lt length s
    rw [List.getElem?_range (by omega)]
  rw [hcount, fallingDraws]
  dsimp only
  rw [Removal.taken_cons hfirst]
  exact List.mem_cons_self

/-- For each list of two items or more, and any amount, there are draws that hide a bar. -/
theorem exists_draws_hide_bar (htwo : 2 ≤ items.length) {amount : Nat} (hamount : 0 < amount) :
    let tokens := Chars.words (Value.list (items.map .text)).render.toList
    ∃ draws : Draws, ∃ place ∈ (sampleIndices tokens.length amount draws).1,
      tokens[place]? = some bar := by
  intro tokens
  have hmem : bar ∈ tokens := by
    obtain ⟨first, next, rest, rfl⟩ : ∃ first next rest, items = first :: next :: rest := by
      match items, htwo with
      | first :: next :: rest, _ => exact ⟨first, next, rest, rfl⟩
    have hwords : tokens = _ := words_render_list _
    rw [hwords, List.map_cons, List.map_cons, List.intercalate_cons_cons]
    simp
  obtain ⟨place, hplace⟩ := List.mem_iff_getElem?.1 hmem
  have hlt : place < tokens.length := (List.getElem?_eq_some_iff.1 hplace).1
  have hdrawn : (RandomSource.below tokens.length (⟨[place], 0⟩ : Draws)).1 = place := by
    simp only [RandomSource.below, Draws.below]
    split
    · rename_i hsmall
      have hone : tokens.length ≤ 1 := by simpa using hsmall
      show 0 = place
      omega
    · exact Nat.mod_eq_of_lt hlt
  have hfirst := below_mem_sampleIndices (Nat.zero_lt_of_lt hlt) hamount (⟨[place], 0⟩ : Draws)
  rw [hdrawn] at hfirst
  exact ⟨⟨[place], 0⟩, place, hfirst, hplace⟩

/-- A call that hides one word of a list of two texts. -/
def maskPair : Call where
  name := "randomize"
  arguments := [⟨none, .list [.text "big cat", .text "dog"]⟩, ⟨none, .text "mask"⟩]
  span := ⟨0, 32⟩
  source := "@randomize([big cat, dog], mask)"

theorem run_arguments_maskPair (w : World Draws) :
    let ctx : Context Draws := FunctionRegistry.context {} {}
    (ctx.argument maskPair 0 "content").run.run w =
        (.ok (.list (["big cat", "dog"].map .text)), w) ∧
      (ctx.argument? maskPair 1 "kind").run.run w = (.ok (some (.text "mask")), w) ∧
      (ctx.countArgument maskPair 2 "amount").run.run w = (.ok 1, w) ∧
      Mode.chosen? (some (.text "mask")) = some .mask := by
  intro ctx
  refine ⟨?_, ?_, rfl, by decide +kernel⟩
  · have hcat : Call.occursIn "big cat" = false := by decide
    have hdog : Call.occursIn "dog" = false := by decide
    have hargument : maskPair.argument? 0 "content" =
        some (.list [.text "big cat", .text "dog"]) := rfl
    rw [Context.argument, Context.argument?, hargument]
    simp only [Context.evaluateParam, Context.evaluateParams, hcat, hdog]
    rfl
  · have hplain : Call.occursIn "mask" = false := by decide
    have hargument : maskPair.argument? 1 "kind" = some (.text "mask") := rfl
    rw [Context.argument?, hargument]
    simp only [Context.evaluateParam, hplain]
    rfl

theorem words_maskPair : Chars.words (Value.list (["big cat", "dog"].map .text)).render.toList =
    [['b', 'i', 'g'], ['c', 'a', 't'], bar, ['d', 'o', 'g']] := by
  rw [words_render_list]
  decide

/-- The third draw hides the second item. -/
theorem randomize_masks_list_dog :
    let ctx : Context Draws := FunctionRegistry.context {} {}
    let w : World Draws := ⟨{}, ⟨[3], 0⟩⟩
    let items := ["big cat", "dog"]
    let drawn := (sampleIndices 4 1 w.random).1
    items ≠ [] ∧ (∀ item ∈ items, '|' ∉ item.toList) ∧
      (ctx.argument maskPair 0 "content").run.run w = (.ok (.list (items.map .text)), w) ∧
      (ctx.argument? maskPair 1 "kind").run.run w = (.ok (some (.text "mask")), w) ∧
      (ctx.countArgument maskPair 2 "amount").run.run w = (.ok 1, w) ∧
      Mode.chosen? (some (.text "mask")) = some .mask ∧ drawn = [3] ∧
      ∃ out s, (randomize.call ctx maskPair).run.run w = (.ok (.text out), { w with random := s }) ∧
        (Text.splitOn '|' out).length = 2 ∧ List.Forall₂ Masks items (Text.splitOn '|' out) := by
  intro ctx w items drawn
  obtain ⟨hcontent, hkind, hamount, hmode⟩ := run_arguments_maskPair w
  have hbar : ∀ item ∈ items, '|' ∉ item.toList := by decide
  have hdrawn : drawn = [3] := by decide
  obtain ⟨out, s, hrun, hlength, hmasks⟩ :=
    randomize_masks_list (by decide) hbar hcontent hkind hamount hmode
  rw [words_maskPair] at hlength hmasks
  have hkept : List.Forall₂ Masks items (Text.splitOn '|' out) := by
    apply hmasks.2
    decide
  exact ⟨by decide, hbar, hcontent, hkind, hamount, hmode, hdrawn, out, s, hrun,
    hkept.length_eq.symm, hkept⟩

/-- The second draw hides the bar, and one item is left of two. -/
theorem randomize_joins_items :
    let ctx : Context Draws := FunctionRegistry.context {} {}
    let w : World Draws := ⟨{}, ⟨[2], 0⟩⟩
    (∀ item ∈ ["big cat", "dog"], '|' ∉ item.toList) ∧
      (ctx.argument maskPair 0 "content").run.run w =
        (.ok (.list (["big cat", "dog"].map .text)), w) ∧
      (ctx.argument? maskPair 1 "kind").run.run w = (.ok (some (.text "mask")), w) ∧
      (ctx.countArgument maskPair 2 "amount").run.run w = (.ok 1, w) ∧
      Mode.chosen? (some (.text "mask")) = some .mask ∧
      (randomize.call ctx maskPair).run.run w =
        (.ok (.text "big cat ___ dog"), { w with random := ⟨[2], 1⟩ }) ∧
      (Text.splitOn '|' "big cat ___ dog").length ≠ ["big cat", "dog"].length := by
  intro ctx w
  obtain ⟨hcontent, hkind, hamount, hmode⟩ := run_arguments_maskPair w
  have hrun := run_randomize_rendered hcontent hkind hamount hmode nofun
  rw [words_maskPair] at hrun
  exact ⟨by decide, hcontent, hkind, hamount, hmode, hrun, by decide⟩

end Lists

end Builtin

end Worksheet
