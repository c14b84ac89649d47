import Worksheet.Proofs.Call.Spans
import Worksheet.Proofs.Marker.Decorators

namespace Worksheet

/-- Where a call began, a call begins whatever follows its opening parenthesis. -/
theorem CallStyle.opensCall_head {prev : Option Char} {cs name rest : List Char}
    (h : marked.opening? prev cs = some (name, rest)) (after : List Char) :
    opensCall prev (marked.head name ++ after) = true := by
  have hopens : (marked.opening? prev cs).isSome = true := by rw [h]; rfl
  obtain ⟨own, tail, rfl, hown, hprev⟩ := isSome_opening?_iff.1 hopens
  obtain ⟨rfl, rfl⟩ : own = name ∧ tail = rest := by
    rw [opening?, hprev, named?_of_isIdentifier hown] at h
    simpa using h
  exact opensCall_iff.2 ⟨[], own, after, by simp [head], hown, by simpa using hprev⟩

/-- If a call is kept where it was found, a call begins in the text from which others are taken. -/
theorem CallStyle.opensCall_render_of_scan {prev : Option Char} {start : Nat} {cs : List Char}
    {s : Segmented RawCall} (h : marked.scan prev start cs = .ok s) {drop : RawCall → Bool}
    (hkept : ∃ c ∈ s.calls, drop c.1 = false) :
    opensCall prev (s.render fun c => if drop c then [] else c.source) = true := by
  fun_induction marked.scan prev start cs generalizing s with
  | case1 =>
    cases h
    simp at hkept
  | case2 prev start c rest hopen ih =>
    obtain ⟨s, hs, rfl⟩ := map_eq_ok_iff.1 h
    rw [Segmented.push]
    show opensCall prev (c :: s.render fun c => if drop c then [] else c.source) = true
    rw [opensCall, ih hs hkept, Bool.or_true]
  | case3 => cases h
  | case4 prev start c rest name tail hopen inner after hclose _ call =>
    rename_i ih
    obtain ⟨s, hs, rfl⟩ := map_eq_ok_iff.1 h
    rw [Segmented.pushCall, Segmented.render_cons, List.nil_append]
    by_cases hown : drop call = true
    · -- The text after a dropped call comes to stand where the call began, and no identifier goes
      -- on there, just as none goes on after the parenthesis of the call.
      obtain ⟨other, hmem, hother⟩ := hkept
      have hkept' : ∃ c ∈ s.calls, drop c.1 = false := by
        rcases List.mem_cons.1 hmem with rfl | hmem
        · rw [hown] at hother
          cases hother
        · exact ⟨other, hmem, hother⟩
      have hopens : (marked.opening? prev (c :: rest)).isSome = true := by rw [hopen]; rfl
      obtain ⟨-, -, -, -, hprev⟩ := isSome_opening?_iff.1 hopens
      have hclosing : prev.any Text.isIdentChar = (some ')').any Text.isIdentChar := by
        rw [hprev]
        decide
      rw [if_pos hown, List.nil_append, opensCall_congr hclosing]
      exact ih hs hkept'
    · rw [if_neg hown]
      have hhead := opensCall_head hopen (inner ++ ')' ::
        s.render fun c => if drop c then [] else c.source)
      simpa [call, RawCall.source] using hhead

theorem opensCall_join {sep : Char} (hsep : Breaks sep) (texts : List (List Char)) :
    opensCall none (Chars.join [sep] texts) = texts.any (opensCall none) := by
  induction texts with
  | nil => rfl
  | cons text rest ih =>
    cases rest with
    | nil => simp [Chars.join]
    | cons next rest =>
      rw [Chars.join_cons_cons, List.append_assoc, List.singleton_append,
        opensCall_append_cons hsep, ih]
      rfl

/-- No white space stands where a call begins, so that collapsing it changes nothing there. -/
theorem opensCall_collapse (cs : List Char) :
    opensCall none (Chars.collapse cs) = opensCall none cs := by
  have hempty : ∀ piece : List Char, opensCall none piece = true → piece.isEmpty = false := by
    rintro (_ | ⟨c, piece⟩) h
    · cases h
    · rfl
  rw [Chars.collapse, opensCall_join (breaks_of_isBlank (by decide)), Chars.words,
    opensCall_splitWhere (fun c => breaks_of_isBlank) cs, Bool.eq_iff_iff, List.any_eq_true,
    List.any_eq_true]
  constructor
  · rintro ⟨piece, hpiece, hopens⟩
    exact ⟨piece, (List.mem_filter.1 hpiece).1, hopens⟩
  · rintro ⟨piece, hpiece, hopens⟩
    exact ⟨piece, List.mem_filter.2 ⟨hpiece, by simp [hempty piece hopens]⟩, hopens⟩

namespace Marker

/-- All calls of a text are decorators, and no call begins in the texts around them when these are
put together. -/
def Settled (text : String) : Prop :=
  ∃ cut, Call.segment text = .ok cut ∧
    (∀ c ∈ cut.calls, (MarkerKind.ofFunction? c.1.name).isSome = true) ∧
    opensCall none cut.gaps.flatten = false

theorem opensCall_remainder {text : String} {cut : Segmented Call}
    (h : Call.segment text = .ok cut)
    (hkept : ∃ c ∈ cut.calls, (MarkerKind.ofFunction? c.1.name).isSome = false) :
    opensCall none (remainder cut) = true := by
  obtain ⟨s, hs, hbefore, hreads⟩ := Call.exists_scan_of_segment h
  let drop (raw : RawCall) : Bool := (MarkerKind.ofFunction? (String.ofList raw.name)).isSome
  have hdrop : ∀ raw c, RawCall.Reads raw c →
      drop raw = (MarkerKind.ofFunction? c.name).isSome := by
    intro raw c hread
    rw [hread.name]
  have hrender : remainder cut = s.render fun raw => if drop raw then [] else raw.source := by
    rw [remainder]
    refine Segmented.render_congr hbefore.symm (hreads.flip.imp fun c found hone => ?_)
    refine ⟨?_, hone.2.symm⟩
    rw [hdrop found.1 c.1 hone.1, hone.1.source, String.toList_ofList]
  obtain ⟨c, hc, hkind⟩ := hkept
  obtain ⟨found, hfound, hread, -⟩ := forall₂_exists_left hreads hc
  rw [hrender]
  exact CallStyle.opensCall_render_of_scan hs ⟨found, hfound, (hdrop _ _ hread).trans hkind⟩

/-- After its decorators are taken out of a line, no call begins in it exactly if the line is
settled. -/
theorem occursIn_of_extract {line text : String} {markers : List Marker}
    (h : extract line = .ok (text, markers)) : Call.occursIn text = false ↔ Settled line := by
  obtain ⟨cut, found, hsegment, -, -, rfl⟩ := extract_eq_ok_iff.1 h
  have htext : Call.occursIn (String.ofList (if markers.isEmpty then remainder cut
      else Chars.collapse (remainder cut))) = opensCall none (remainder cut) := by
    rw [Call.occursIn, String.toList_ofList]
    split
    · rfl
    · exact opensCall_collapse _
  rw [htext]
  constructor
  · intro hplain
    have hkinds : ∀ c ∈ cut.calls, (MarkerKind.ofFunction? c.1.name).isSome = true := by
      intro c hc
      cases hkind : (MarkerKind.ofFunction? c.1.name).isSome with
      | true => rfl
      | false =>
        rw [opensCall_remainder hsegment ⟨c, hc, hkind⟩] at hplain
        cases hplain
    rw [remainder_of_decorators hkinds] at hplain
    exact ⟨cut, hsegment, hkinds, hplain⟩
  · rintro ⟨same, hsame, hkinds, hplain⟩
    obtain rfl : cut = same := Except.ok.inj (hsegment.symm.trans hsame)
    rw [remainder_of_decorators hkinds]
    exact hplain

/-- Decorators between gaps without at signs leave no call. -/
theorem Apart.settled {s : Segmented Marker} (h : Apart s) :
    Settled (String.ofList (s.render (·.toDecorator.toList))) := by
  obtain ⟨calls, hsegment, hstands⟩ := h.segment
  refine ⟨⟨s.before, calls⟩, hsegment, isDecorator_of_standsFor hstands, ?_⟩
  rw [gaps_of_standsFor hstands]
  apply opensCall_of_not_mem
  intro hmem
  obtain ⟨gap, hgap, hsign⟩ := List.mem_flatten.1 hmem
  exact h.plain gap hgap hsign

end Marker

end Worksheet
