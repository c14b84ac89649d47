import Mathlib.Data.Finset.Card
import Worksheet.Eval.Builtin
import Worksheet.Proofs.Chars.Words
import Worksheet.Proofs.Eval.Run
import Worksheet.Proofs.Random.Sampling
import Worksheet.Proofs.Random.Shuffling

namespace Worksheet

variable {σ α : Type}

/-- Gaps stand in the place of exactly as many items as the count says, all of them items that may
be hidden. All other places hold what they held. -/
def Gapped (mayHide : α → Prop) (gap : α) (count : Nat) (before after : List α) : Prop :=
  after.length = before.length ∧ ∃ places : Finset Nat, places.card = count ∧
    (∀ place ∈ places,
      (∃ item, before[place]? = some item ∧ mayHide item) ∧ after[place]? = some gap) ∧
    ∀ place, place ∉ places → after[place]? = before[place]?

namespace Gapped

variable {mayHide : α → Prop} {gap item : α} {count : Nat} {before after : List α}

theorem mem (h : Gapped mayHide gap count before after) (hitem : item ∈ after) :
    item = gap ∨ item ∈ before := by
  obtain ⟨-, places, -, hhidden, hkept⟩ := h
  obtain ⟨place, hplace⟩ := List.mem_iff_getElem?.1 hitem
  by_cases hmem : place ∈ places
  · have hgap := (hhidden place hmem).2
    rw [hplace] at hgap
    exact Or.inl (Option.some.inj hgap)
  · rw [hkept place hmem] at hplace
    exact Or.inr (List.mem_of_getElem? hplace)

theorem ne_nil (h : Gapped mayHide gap count before after) (hbefore : before ≠ []) :
    after ≠ [] := by
  rw [ne_eq, ← List.length_eq_zero_iff, h.1, List.length_eq_zero_iff]
  exact hbefore

end Gapped

namespace Builtin

section Places

theorem gapped_replaceAt {mayHide : α → Prop} (gap : α) {places : List Nat} {items : List α}
    (hnodup : places.Nodup)
    (h : ∀ place ∈ places, ∃ item, items[place]? = some item ∧ mayHide item) :
    Gapped mayHide gap places.length items (replaceAt places gap items) := by
  refine ⟨by simp [replaceAt], places.toFinset, List.toFinset_card_of_nodup hnodup, ?_, ?_⟩
  · intro place hplace
    have hmem := List.mem_toFinset.1 hplace
    obtain ⟨item, hitem, hmay⟩ := h place hmem
    refine ⟨⟨item, hitem, hmay⟩, ?_⟩
    simp [replaceAt, hitem, hmem]
  · intro place hplace
    have hmem : place ∉ places := fun hmem => hplace (List.mem_toFinset.2 hmem)
    simp [replaceAt, hmem]

/-- The places of items of a class are as many as the items. -/
theorem length_places (p : α → Bool) (items : List α) :
    ((List.range items.length).filter fun i => items[i]?.any p).length = items.countP p := by
  induction items with
  | nil => rfl
  | cons item rest ih =>
    rw [List.length_cons, List.range_succ_eq_map, List.filter_cons, List.filter_map]
    by_cases hitem : p item = true
    · simp [hitem, Function.comp_def, ih]
    · simp [hitem, Function.comp_def, ih]

/-- Picks among distinct places are as many distinct places. -/
theorem picked_places {letters picks : List Nat} {count : Nat} (hletters : letters.Nodup)
    (h : IsSample letters.length count picks) :
    (picks.filterMap (letters[·]?)).length = count ∧ (picks.filterMap (letters[·]?)).Nodup := by
  constructor
  · rw [← h.length_eq, List.filterMap_length_eq_length]
    intro pick hpick
    simp [h.lt pick hpick]
  · apply h.nodup.filterMap
    intro pick other letter hpick hother
    obtain ⟨hlt, hget⟩ := List.getElem?_eq_some_iff.1 hpick
    obtain ⟨hltOther, hgetOther⟩ := List.getElem?_eq_some_iff.1 hother
    exact hletters.getElem_inj_iff.1 (hget.trans hgetOther.symm)

end Places

section Modes

/-- What a mode may do to the words of a text. -/
def Mode.Keeps (amount : Nat) (before after : List (List Char)) : Mode → Prop
  | .words => after.Perm before
  | .letters => List.Forall₂ (fun word changed => changed.Perm word) before after
  | .mask => Gapped (fun _ => True) ['_', '_', '_'] (min amount before.length) before after
  | .maskLetters =>
    List.Forall₂ (fun word changed => Gapped (fun c => Chars.isAlphabetic c = true) '_'
      (min amount (word.countP Chars.isAlphabetic)) word changed) before after

variable {amount : Nat} {before after : List (List Char)}

open Chars (IsWord)

theorem isWord_of_forall₂ {R : List Char → List Char → Prop} (h : List.Forall₂ R before after)
    (hword : ∀ word changed, R word changed → IsWord word → IsWord changed)
    (hbefore : ∀ word ∈ before, IsWord word) : ∀ word ∈ after, IsWord word := by
  induction h with
  | nil => exact hbefore
  | cons hfirst hrest ih =>
    obtain ⟨hhead, htail⟩ := List.forall_mem_cons.1 hbefore
    exact List.forall_mem_cons.2 ⟨hword _ _ hfirst hhead, ih htail⟩

/-- Words stay words, whatever is done to them. -/
theorem Mode.Keeps.isWord {mode : Mode} (h : mode.Keeps amount before after)
    (hbefore : ∀ word ∈ before, IsWord word) : ∀ word ∈ after, IsWord word := by
  have hgap : Chars.isBlank '_' = false := by decide
  cases mode with
  | words =>
    intro word hword
    exact hbefore word (h.mem_iff.1 hword)
  | letters =>
    refine isWord_of_forall₂ h ?_ hbefore
    intro word changed hperm hword
    refine ⟨?_, ?_⟩
    · intro hnil
      subst hnil
      exact hword.ne_nil hperm.nil_eq.symm
    · intro c hc
      exact hword.not_blank c (hperm.mem_iff.1 hc)
  | mask =>
    intro word hword
    rcases h.mem hword with rfl | hmem
    · refine ⟨by simp, ?_⟩
      intro c hc
      obtain rfl : c = '_' := by simpa using hc
      exact hgap
    · exact hbefore word hmem
  | maskLetters =>
    refine isWord_of_forall₂ h ?_ hbefore
    intro word changed hgapped hword
    refine ⟨hgapped.ne_nil hword.ne_nil, ?_⟩
    intro c hc
    rcases hgapped.mem hc with rfl | hmem
    · exact hgap
    · exact hword.not_blank c hmem

theorem eachWord_forall₂ {change : List Char → σ → List Char × σ}
    {R : List Char → List Char → Prop} (h : ∀ word s, R word (change word s).1)
    (words : List (List Char)) (s : σ) :
    List.Forall₂ R words (eachWord change words s).1 := by
  induction words generalizing s with
  | nil => exact .nil
  | cons word rest ih => exact .cons (h word s) (ih _)

variable [RandomSource σ] [LawfulRandomSource σ]

theorem maskWords_gapped (amount : Nat) (words : List (List Char)) (s : σ) :
    Gapped (fun _ => True) ['_', '_', '_'] (min amount words.length) words
      (maskWords amount words s).1 := by
  have hsample := isSample_sampleIndices words.length amount s
  rw [← hsample.length_eq]
  apply gapped_replaceAt _ hsample.nodup
  intro place hplace
  exact ⟨_, List.getElem?_eq_getElem (hsample.lt place hplace), trivial⟩

theorem maskWord_gapped (amount : Nat) (word : List Char) (s : σ) :
    Gapped (fun c => Chars.isAlphabetic c = true) '_'
      (min amount (word.countP Chars.isAlphabetic)) word (maskWord amount word s).1 := by
  let letters := (List.range word.length).filter fun i => word[i]?.any Chars.isAlphabetic
  have hletters : letters.Nodup := List.nodup_range.filter _
  have hsample := isSample_sampleIndices letters.length amount s
  obtain ⟨hlength, hnodup⟩ := picked_places hletters hsample
  have hcount : letters.length = word.countP Chars.isAlphabetic := length_places _ word
  rw [← hcount, ← hlength]
  apply gapped_replaceAt _ hnodup
  intro place hplace
  obtain ⟨pick, -, hpick⟩ := List.mem_filterMap.1 hplace
  have hletter := (List.mem_filter.1 (List.mem_of_getElem? hpick)).2
  simpa [Option.any_eq_true] using hletter

theorem Mode.keeps_apply (mode : Mode) (amount : Nat) (words : List (List Char)) (s : σ) :
    mode.Keeps amount words (mode.apply amount words s).1 := by
  cases mode with
  | words => exact perm_shuffle words s
  | letters => exact eachWord_forall₂ perm_shuffle words s
  | mask => exact maskWords_gapped amount words s
  | maskLetters => exact eachWord_forall₂ (maskWord_gapped amount) words s

end Modes

section Run

variable [RandomSource σ]

/-- The mode that the value of an argument names. Without a value it is the order of words. -/
def Mode.chosen? (kind : Option Value) : Option Mode :=
  Mode.ofName? (match kind with
    | some v => Text.asciiLower (Text.trim v.render)
    | none => "words")

/-- What a value comes to once all arguments are evaluated, unless the items of a list change their
order: the words of the text that stands for it are changed. -/
theorem run_randomize_rendered {ctx : Context σ} {call : Call} {content : Value}
    {kind : Option Value} {amount : Nat} {mode : Mode} {w w₁ w₂ w₃ : World σ}
    (hcontent : (ctx.argument call 0 "content").run.run w = (.ok content, w₁))
    (hkind : (ctx.argument? call 1 "kind").run.run w₁ = (.ok kind, w₂))
    (hamount : (ctx.countArgument call 2 "amount").run.run w₂ = (.ok amount, w₃))
    (hmode : Mode.chosen? kind = some mode)
    (hlist : mode = .words → ∀ items, content ≠ .list items) :
    let changed := mode.apply amount (Chars.words content.render.toList) w₃.random
    (randomize.call ctx call).run.run w =
      (.ok (.text (String.ofList (Chars.join [' '] changed.1))),
        { w₃ with random := changed.2 }) := by
  intro changed
  unfold Mode.chosen? at hmode
  simp only [randomize]
  rw [Eval.run_bind, hcontent]
  dsimp only
  rw [Eval.run_bind, hkind]
  dsimp only
  rw [Eval.run_bind, hamount]
  cases kind <;> dsimp only at hmode ⊢ <;> rw [hmode]
  all_goals
    cases mode with
    | words =>
      cases content with
      | list items => exact absurd rfl (hlist rfl items)
      | _ => rfl
    | _ => cases content <;> rfl

theorem run_randomize {ctx : Context σ} {call : Call} {text : String} {kind : Option Value}
    {amount : Nat} {mode : Mode} {w w₁ w₂ w₃ : World σ}
    (hcontent : (ctx.argument call 0 "content").run.run w = (.ok (.text text), w₁))
    (hkind : (ctx.argument? call 1 "kind").run.run w₁ = (.ok kind, w₂))
    (hamount : (ctx.countArgument call 2 "amount").run.run w₂ = (.ok amount, w₃))
    (hmode : Mode.chosen? kind = some mode) :
    let changed := mode.apply amount (Chars.words text.toList) w₃.random
    (randomize.call ctx call).run.run w =
      (.ok (.text (String.ofList (Chars.join [' '] changed.1))),
        { w₃ with random := changed.2 }) := by
  have hrender : (Value.text text).render = text := by rw [Value.render]
  have hrun := run_randomize_rendered hcontent hkind hamount hmode fun _ items => nofun
  rwa [hrender] at hrun

end Run

/-- A text that is randomized is a text again, and its words are kept as its mode says. Nothing else
changes once the arguments are evaluated, but that choices are made. -/
theorem randomize_keeps_text [RandomSource σ] [LawfulRandomSource σ] {ctx : Context σ} {call : Call}
    {text : String} {kind : Option Value} {amount : Nat} {mode : Mode} {w w₁ w₂ w₃ : World σ}
    (hcontent : (ctx.argument call 0 "content").run.run w = (.ok (.text text), w₁))
    (hkind : (ctx.argument? call 1 "kind").run.run w₁ = (.ok kind, w₂))
    (hamount : (ctx.countArgument call 2 "amount").run.run w₂ = (.ok amount, w₃))
    (hmode : Mode.chosen? kind = some mode) :
    ∃ out s, (randomize.call ctx call).run.run w = (.ok (.text out), { w₃ with random := s }) ∧
      mode.Keeps amount (Chars.words text.toList) (Chars.words out.toList) := by
  have hkeeps := mode.keeps_apply amount (Chars.words text.toList) w₃.random
  have hwords := hkeeps.isWord fun _ hword => Chars.isWord_of_mem_words hword
  refine ⟨_, _, run_randomize hcontent hkind hamount hmode, ?_⟩
  rw [String.toList_ofList, Chars.words_join hwords]
  exact hkeeps

/-- A call that masks one of three words. -/
def maskOne : Call where
  name := "randomize"
  arguments := [⟨none, .text "the cat  sat"⟩, ⟨some "kind", .text "Mask"⟩]
  span := ⟨0, 37⟩
  source := "@randomize(the cat  sat, kind = Mask)"

theorem randomize_keeps_text_masked :
    let ctx : Context Draws := FunctionRegistry.context {} {}
    let w : World Draws := ⟨{}, ⟨[1], 0⟩⟩
    (ctx.argument maskOne 0 "content").run.run w = (.ok (.text "the cat  sat"), w) ∧
      (ctx.argument? maskOne 1 "kind").run.run w = (.ok (some (.text "Mask")), w) ∧
      (ctx.countArgument maskOne 2 "amount").run.run w = (.ok 1, w) ∧
      Mode.chosen? (some (.text "Mask")) = some .mask ∧
      ∃ out s, (randomize.call ctx maskOne).run.run w = (.ok (.text out), { w with random := s }) ∧
        Mode.mask.Keeps 1 (Chars.words "the cat  sat".toList) (Chars.words out.toList) := by
  intro ctx w
  have hcontent : (ctx.argument maskOne 0 "content").run.run w =
      (.ok (.text "the cat  sat"), w) := by
    have hplain : Call.occursIn "the cat  sat" = false := by decide
    have hargument : maskOne.argument? 0 "content" = some (.text "the cat  sat") := rfl
    rw [Context.argument, Context.argument?, hargument]
    simp only [Context.evaluateParam, hplain]
    rfl
  have hkind : (ctx.argument? maskOne 1 "kind").run.run w = (.ok (some (.text "Mask")), w) := by
    have hplain : Call.occursIn "Mask" = false := by decide
    have hargument : maskOne.argument? 1 "kind" = some (.text "Mask") := rfl
    rw [Context.argument?, hargument]
    simp only [Context.evaluateParam, hplain]
    rfl
  have hamount : (ctx.countArgument maskOne 2 "amount").run.run w = (.ok 1, w) := rfl
  have hmode : Mode.chosen? (some (.text "Mask")) = some .mask := by decide +kernel
  exact ⟨hcontent, hkind, hamount, hmode, randomize_keeps_text hcontent hkind hamount hmode⟩

end Builtin

end Worksheet
