import Worksheet.Proofs.Call.Plain
import Worksheet.Proofs.Marker.Extract

namespace Worksheet

theorem opensCall_of_not_mem {prev : Option Char} {cs : List Char} (h : '@' ∉ cs) :
    opensCall prev cs = false := by
  rw [Bool.eq_false_iff]
  intro hopen
  obtain ⟨before, name, after, rfl, -⟩ := opensCall_iff.1 hopen
  simp at h

namespace CallStyle

/-- A text without at signs goes into what stands before the calls that follow it. -/
theorem scan_append_of_not_mem {prev : Option Char} {start : Nat} {gap : List Char}
    (h : '@' ∉ gap) (rest : List Char) :
    marked.scan prev start (gap ++ rest) =
      (marked.scan (gap.getLast?.or prev) (start + Chars.size gap) rest).map
        fun s => ⟨gap ++ s.before, s.calls⟩ := by
  induction gap generalizing prev start with
  | nil =>
    show marked.scan prev start rest = (marked.scan prev start rest).map fun s => s
    cases marked.scan prev start rest <;> rfl
  | cons c gap ih =>
    obtain ⟨hc, hgap⟩ : c ≠ '@' ∧ '@' ∉ gap := by
      simpa [eq_comm] using h
    have hopen : marked.opening? prev (c :: (gap ++ rest)) = none := by
      rw [opening?.eq_def]
      dsimp only
      split
      · rename_i heq
        exact absurd (List.cons.inj heq).1 hc
      · rfl
    have hlast : (c :: gap).getLast?.or prev = gap.getLast?.or (some c) := by
      rw [List.getLast?_cons]
      cases gap.getLast? <;> rfl
    rw [List.cons_append, scan_cons_of_none hopen, ih hgap, hlast, Chars.size_cons,
      ← Nat.add_assoc]
    cases marked.scan (gap.getLast?.or (some c)) (start + c.utf8Size + Chars.size gap) rest <;> rfl

end CallStyle

namespace MarkerKind

theorem isIdentifier_functionName (k : MarkerKind) :
    isIdentifier k.functionName.toList = true := by
  cases k <;> decide

end MarkerKind

namespace Marker

open CallStyle (marked)

theorem toList_toDecorator (m : Marker) :
    m.toDecorator.toList = '@' :: CallStyle.call m.kind.functionName.toList [m.text.toList] := by
  simp [toDecorator, CallStyle.call, Argument.written, Chars.join, Quoted.ofText]

/-- A call as the scan finds it where a decorator and a gap after it are written. -/
structure Stands (found : RawCall × List Char) (part : Marker × List Char) : Prop where
  name : found.1.name = part.1.kind.functionName.toList
  inner : found.1.inner = Argument.written [part.1.text.toList]
  gap : found.2 = part.2

/-- A decorator is taken out where no identifier goes on. -/
theorem scan_toDecorator {prev : Option Char} (start : Nat) (m : Marker) (rest : List Char)
    (h : prev.any Text.isIdentChar = false) :
    ∃ raw : RawCall, raw.name = m.kind.functionName.toList ∧
      raw.inner = Argument.written [m.text.toList] ∧
      marked.scan prev start (m.toDecorator.toList ++ rest) =
        (marked.scan (some ')') raw.span.stop rest).map (·.pushCall raw) := by
  have hopen : marked.opening? prev (m.toDecorator.toList ++ rest) =
      some (m.kind.functionName.toList, Argument.written [m.text.toList] ++ ')' :: rest) := by
    have hname := CallStyle.named?_of_isIdentifier m.kind.isIdentifier_functionName
      (Argument.written [m.text.toList] ++ ')' :: rest)
    simp [toList_toDecorator, CallStyle.call, CallStyle.opening?, h, hname]
  exact ⟨_, rfl, rfl, CallStyle.scan_of_opening hopen (CallStyle.close?_written _ rest)⟩

/-- Gaps without at signs, and no identifier directly before a decorator. -/
structure Apart (s : Segmented Marker) : Prop where
  plain : ∀ gap ∈ s.gaps, '@' ∉ gap
  apart : ∀ gap ∈ s.gaps.dropLast, gap.getLast?.any Text.isIdentChar = false

/-- The scan of a line with decorators finds these and nothing else. -/
theorem Apart.scan {before : List Char} {calls : List (Marker × List Char)}
    (h : Apart ⟨before, calls⟩) (prev : Option Char) (hprev : prev.any Text.isIdentChar = false)
    (start : Nat) :
    ∃ found, marked.scan prev start
        ((⟨before, calls⟩ : Segmented Marker).render (·.toDecorator.toList)) =
          .ok ⟨before, found⟩ ∧ List.Forall₂ Stands found calls := by
  induction calls generalizing before prev start with
  | nil =>
    have hplain : '@' ∉ before := h.plain before (by simp [Segmented.gaps])
    have hrender : (⟨before, []⟩ : Segmented Marker).render (·.toDecorator.toList) = before := by
      simp [Segmented.render]
    refine ⟨[], ?_, .nil⟩
    rw [hrender]
    exact CallStyle.scan_of_not_opensCall (opensCall_of_not_mem hplain)
  | cons part rest ih =>
    obtain ⟨m, after⟩ := part
    have hplain : '@' ∉ before := h.plain before (by simp [Segmented.gaps])
    have hbefore : (before.getLast?.or prev).any Text.isIdentChar = false := by
      have hown := h.apart before (by simp [Segmented.gaps])
      cases hlast : before.getLast? with
      | none => simpa using hprev
      | some c => simpa [hlast] using hown
    have hrest : Apart ⟨after, rest⟩ := by
      refine ⟨fun gap hg => h.plain gap (by simp_all [Segmented.gaps]), fun gap hg => ?_⟩
      exact h.apart gap (by simp_all [Segmented.gaps])
    obtain ⟨raw, hname, hinner, hscan⟩ := scan_toDecorator (start + Chars.size before) m
      ((⟨after, rest⟩ : Segmented Marker).render (·.toDecorator.toList)) hbefore
    obtain ⟨found, hfound, hstands⟩ :=
      ih hrest (some ')') (by decide) raw.span.stop
    refine ⟨(raw, after) :: found, ?_, .cons ⟨hname, hinner, rfl⟩ hstands⟩
    rw [Segmented.render_cons, CallStyle.scan_append_of_not_mem hplain, hscan, hfound]
    simp [Except.map, Segmented.pushCall]

/-- A call that stands for a marker, and the gap after it. -/
structure StandsFor (c : Call × List Char) (part : Marker × List Char) : Prop where
  marker : ofCall? c.1 = .ok (some part.1)
  gap : c.2 = part.2

theorem Stands.exists_call {found : RawCall × List Char} {part : Marker × List Char}
    (h : Stands found part) :
    ∃ call, found.1.read Param.read = .ok call ∧ StandsFor (call, found.2) part := by
  have harguments : Argument.readAll Param.read found.1.inner =
      .ok [Argument.ofText part.1.text.toList] := by
    rw [h.inner]
    exact Argument.readAll_written [part.1.text.toList]
  let call : Call := ⟨String.ofList found.1.name, [Argument.ofText part.1.text.toList],
    found.1.span, String.ofList found.1.source⟩
  have hread : found.1.read Param.read = .ok call := by
    rw [RawCall.read, harguments]
    rfl
  have hkind : MarkerKind.ofFunction? call.name = some part.1.kind := by
    show MarkerKind.ofFunction? (String.ofList found.1.name) = some part.1.kind
    rw [h.name, String.ofList_toList, MarkerKind.ofFunction?_functionName]
  have htext : call.positional? 0 = some (.text part.1.text) := by
    simp [call, Located.positional?, Argument.ofText]
  refine ⟨call, hread, ?_, h.gap⟩
  simp [ofCall?, hkind, htext, Param.render]

theorem exists_calls_of_stands {found : List (RawCall × List Char)}
    {parts : List (Marker × List Char)} (h : List.Forall₂ Stands found parts) :
    ∃ calls, (found.mapM fun (raw, after) => (raw.read Param.read).map (·, after)) = .ok calls ∧
      List.Forall₂ StandsFor calls parts := by
  simp only [mapM_eq_ok_iff]
  induction h with
  | nil => exact ⟨[], .nil, .nil⟩
  | @cons raw part found parts hstands _ ih =>
    obtain ⟨call, hcall, hmarker⟩ := hstands.exists_call
    obtain ⟨calls, hcalls, hparts⟩ := ih
    have hfirst : (raw.1.read Param.read).map (·, raw.2) = .ok (call, raw.2) :=
      map_eq_ok_iff.2 ⟨call, hcall, rfl⟩
    exact ⟨(call, raw.2) :: calls, .cons hfirst hcalls, .cons hmarker hparts⟩

/-- The calls of a line with decorators stand for the markers of these. -/
theorem Apart.segment {s : Segmented Marker} (h : Apart s) :
    ∃ calls, Call.segment (String.ofList (s.render (·.toDecorator.toList))) =
        .ok ⟨s.before, calls⟩ ∧ List.Forall₂ StandsFor calls s.calls := by
  obtain ⟨found, hscan, hstands⟩ := h.scan none rfl 0
  obtain ⟨calls, hcalls, hparts⟩ := exists_calls_of_stands hstands
  refine ⟨calls, ?_, hparts⟩
  rw [Call.segment, segmentWith, String.toList_ofList, hscan]
  simp only [bind, Except.bind, hcalls, pure, Except.pure]

section StandsFor

variable {calls : List (Call × List Char)} {parts : List (Marker × List Char)}

theorem isDecorator_of_standsFor (h : List.Forall₂ StandsFor calls parts) :
    ∀ c ∈ calls, (MarkerKind.ofFunction? c.1.name).isSome = true := by
  intro c hc
  obtain ⟨part, -, hpart⟩ := forall₂_exists_left h.flip hc
  exact (isSome_of_ofCall? hpart.marker).symm

theorem gaps_of_standsFor (h : List.Forall₂ StandsFor calls parts) (before : List Char) :
    (⟨before, calls⟩ : Segmented Call).gaps = (⟨before, parts⟩ : Segmented Marker).gaps := by
  have hgaps : calls.map (·.2) = parts.map (·.2) := by
    rw [← List.forall₂_eq_eq_eq, List.forall₂_map_left_iff, List.forall₂_map_right_iff]
    exact h.imp fun _ _ hpart => hpart.gap
  rw [Segmented.gaps, Segmented.gaps, hgaps]

theorem remainder_of_standsFor (h : List.Forall₂ StandsFor calls parts) (before : List Char) :
    remainder ⟨before, calls⟩ = (⟨before, parts⟩ : Segmented Marker).gaps.flatten := by
  rw [remainder_of_decorators (isDecorator_of_standsFor h), gaps_of_standsFor h]

end StandsFor

/-- The decorators of a line are taken out of it, in order and with their texts, if the gaps around
them have no at signs and no identifier ends directly before a decorator. The gaps are put together
with their white space collapsed. -/
theorem extract_decorated {s : Segmented Marker} (hne : s.calls ≠ []) (h : Apart s) :
    extract (String.ofList (s.render (·.toDecorator.toList))) =
      .ok (Text.collapse (String.ofList s.gaps.flatten), s.calls.map (·.1)) := by
  obtain ⟨calls, hsegment, hstands⟩ := h.segment
  have hfound : Found calls (s.calls.map fun part => some part.1) := by
    rw [Found, List.forall₂_map_right_iff]
    exact hstands.imp fun _ _ hone => hone.marker
  have hmarkers : (s.calls.map fun part => some part.1).filterMap id = s.calls.map (·.1) := by
    simp [List.filterMap_map]
  have hgaps : remainder ⟨s.before, calls⟩ = s.gaps.flatten :=
    remainder_of_standsFor hstands s.before
  have hsome : (s.calls.map (·.1)).isEmpty = false := by
    simpa using hne
  refine extract_eq_ok_iff.2 ⟨⟨s.before, calls⟩, _, hsegment, hfound, hmarkers, ?_⟩
  rw [hsome, hgaps]
  simp [Text.collapse]

/-- Texts with quotes and parentheses, without characters and with a decorator in them, and two
decorators next to each other. -/
theorem extract_decorated_nested :
    let s : Segmented Marker := ⟨"  Look ".toList,
      [(⟨.image, "a) \"b\", c"⟩, []), (⟨.note, ""⟩, " at\tthe ".toList),
        (⟨.idea, "@img(x)"⟩, "cat. ".toList)]⟩
    s.calls ≠ [] ∧ Apart s ∧
      extract "  Look @img(\"a) \\\"b\\\", c\")@notes(\"\") at\tthe @idea(\"@img(x)\")cat. " =
        .ok ("Look at the cat.", [⟨.image, "a) \"b\", c"⟩, ⟨.note, ""⟩, ⟨.idea, "@img(x)"⟩]) := by
  intro s
  have hne : s.calls ≠ [] := by simp [s]
  have hapart : Apart s := ⟨by decide +kernel, by decide +kernel⟩
  have hline : String.ofList (s.render (·.toDecorator.toList)) =
      "  Look @img(\"a) \\\"b\\\", c\")@notes(\"\") at\tthe @idea(\"@img(x)\")cat. " := by
    decide +kernel
  have htext : Text.collapse (String.ofList s.gaps.flatten) = "Look at the cat." := by
    decide +kernel
  have hextract := extract_decorated hne hapart
  rw [hline, htext] at hextract
  exact ⟨hne, hapart, hextract⟩

end Marker

end Worksheet
