import Worksheet.Proofs.Call.Plain

namespace Worksheet

open Chars (size slice? slice?_append)

/-- A text of calls from a byte offset on. After each call stands a text in which no call begins. -/
inductive Tiles : Nat → List Char → List (RawCall × List Char) → Prop
  | nil (offset : Nat) : Tiles offset [] []
  | cons {offset : Nat} {c : RawCall} {after text : List Char} {rest : List (RawCall × List Char)}
    (start : c.start = offset) (head : c.head = CallStyle.marked.head c.name)
    (plain : opensCall none after = false)
    (tail : Tiles (c.span.stop + size after) text rest) :
    Tiles offset (c.source ++ after ++ text) ((c, after) :: rest)

/-- What the scan finds makes up the text. -/
theorem CallStyle.tiles_of_scan {prev : Option Char} {start : Nat} {cs : List Char}
    {s : Segmented RawCall} (h : marked.scan prev start cs = .ok s) :
    ∃ text, cs = s.before ++ text ∧ opensCall prev s.before = false ∧
      Tiles (start + size s.before) text s.calls := by
  fun_induction marked.scan prev start cs generalizing s with
  | case1 =>
    cases h
    exact ⟨[], rfl, rfl, .nil _⟩
  | case2 prev start c rest hopen ih =>
    obtain ⟨s, hs, rfl⟩ := map_eq_ok_iff.1 h
    obtain ⟨text, rfl, hplain, htiles⟩ := ih hs
    refine ⟨text, rfl, ?_, ?_⟩
    · show opensCall prev (c :: s.before) = false
      rw [opensCall, hplain, Bool.or_false, Bool.eq_false_iff]
      intro hfirst
      have hmore := isSome_opening?_append text hfirst
      rw [List.cons_append, hopen] at hmore
      cases hmore
    · show Tiles (start + size (c :: s.before)) text s.calls
      rw [Chars.size_cons, ← Nat.add_assoc]
      exact htiles
  | case3 => cases h
  | case4 prev start c rest name tail hopen inner after hclose _ call =>
    rename_i ih
    obtain ⟨s, hs, rfl⟩ := map_eq_ok_iff.1 h
    obtain ⟨text, rfl, hplain, htiles⟩ := ih hs
    have htext : c :: rest = call.source ++ s.before ++ text := by
      rw [← head_append hopen, ← Scanner.close?_append hclose]
      simp [call, RawCall.source]
    -- The closing parenthesis before it does not belong to an identifier.
    have hclosing : (none : Option Char).any Text.isIdentChar =
        (some ')').any Text.isIdentChar := by decide
    have hafter : opensCall none s.before = false := by
      rw [opensCall_congr hclosing]
      exact hplain
    refine ⟨c :: rest, rfl, rfl, ?_⟩
    rw [htext]
    exact .cons rfl rfl hafter htiles

/-- The stretches from one offset to another before, between and after spans. -/
def gaps (start stop : Nat) : List Span → List Span
  | [] => [⟨start, stop⟩]
  | s :: rest => ⟨start, s.start⟩ :: gaps s.stop stop rest

theorem RawCall.span_lt (c : RawCall) : c.span.start < c.span.stop := by
  have hpos := Char.utf8Size_pos ')'
  simp only [span, source, Chars.size_append, Chars.size_cons]
  omega

namespace Tiles

variable {offset : Nat} {text : List Char} {calls : List (RawCall × List Char)}

theorem le_start (h : Tiles offset text calls) : ∀ c ∈ calls, offset ≤ c.1.start := by
  induction h with
  | nil => simp
  | @cons offset c after text rest hstart hhead hplain _ ih =>
    intro other hother
    rcases List.mem_cons.1 hother with rfl | hmem
    · exact Nat.le_of_eq hstart.symm
    · have hle := ih other hmem
      have hspan : offset ≤ c.span.stop := by
        rw [← hstart]
        exact Nat.le_add_right _ _
      omega

theorem head_eq (h : Tiles offset text calls) :
    ∀ c ∈ calls, c.1.head = CallStyle.marked.head c.1.name := by
  induction h with
  | nil => simp
  | cons _ hhead _ _ ih =>
    intro other hother
    rcases List.mem_cons.1 hother with rfl | hmem
    · exact hhead
    · exact ih other hmem

/-- A call begins where it is found after what stands before it. -/
theorem slice?_span (h : Tiles offset text calls) {before : List Char}
    (hbefore : size before = offset) :
    ∀ c ∈ calls, slice? (before ++ text) c.1.span = some c.1.source := by
  induction h generalizing before with
  | nil => simp
  | @cons offset c after text rest hstart hhead hplain _ ih =>
    have hspan : c.span = ⟨size before, size before + size c.source⟩ := by
      rw [RawCall.span, hstart, hbefore]
    intro other hother
    rcases List.mem_cons.1 hother with rfl | hmem
    · have hslice := slice?_append before c.source (after ++ text)
      rw [hspan]
      simpa using hslice
    · have hsize : size (before ++ c.source ++ after) = c.span.stop + size after := by
        rw [hspan, Chars.size_append, Chars.size_append]
      have hslice := ih hsize other hmem
      simpa using hslice

theorem pairwise_span (h : Tiles offset text calls) :
    (calls.map (·.1.span)).Pairwise fun a b => a.start < b.start ∧ a.stop ≤ b.start := by
  induction h with
  | nil => simp
  | @cons offset c after text rest _ _ _ htail ih =>
    rw [List.map_cons, List.pairwise_cons]
    refine ⟨?_, ih⟩
    intro span hspan
    obtain ⟨other, hmem, rfl⟩ := List.mem_map.1 hspan
    have hle : c.span.stop + size after ≤ other.1.start := htail.le_start other hmem
    have hlt := RawCall.span_lt c
    have hstop : c.span.stop ≤ other.1.start := by omega
    exact ⟨Nat.lt_of_lt_of_le hlt hstop, hstop⟩

/-- No call begins in the text before the first call, between two of them or after the last one. -/
theorem plain_gaps (h : Tiles offset text calls) {before plain : List Char}
    (hoffset : size before + size plain = offset) (hplain : opensCall none plain = false) :
    ∀ g ∈ gaps (size before) (size (before ++ plain ++ text)) (calls.map (·.1.span)),
      ∃ t, slice? (before ++ plain ++ text) g = some t ∧ opensCall none t = false := by
  induction h generalizing before plain with
  | nil =>
    intro g hg
    obtain rfl := List.mem_singleton.1 hg
    have hslice := slice?_append before plain []
    refine ⟨plain, ?_, hplain⟩
    simpa using hslice
  | @cons offset c after text rest hstart hhead hafter _ ih =>
    intro g hg
    rcases List.mem_cons.1 hg with rfl | hmem
    · have hslice := slice?_append before plain (c.source ++ after ++ text)
      refine ⟨plain, ?_, hplain⟩
      show slice? _ ⟨size before, c.start⟩ = some plain
      rw [hstart, ← hoffset]
      exact hslice
    · have hstop : size (before ++ plain ++ c.source) = c.span.stop := by
        rw [RawCall.span, hstart, ← hoffset, Chars.size_append, Chars.size_append]
      have hsize : size (before ++ plain ++ c.source) + size after = c.span.stop + size after := by
        rw [hstop]
      have hwhole : before ++ plain ++ c.source ++ after ++ text =
          before ++ plain ++ (c.source ++ after ++ text) := by simp
      have hrest := ih hsize hafter
      rw [hwhole, hstop] at hrest
      exact hrest g hmem

end Tiles

/-- A call as it is read from what the scan finds. -/
structure RawCall.Reads (found : RawCall) (c : Call) : Prop where
  name : c.name = String.ofList found.name
  span : c.span = found.span
  source : c.source = String.ofList found.source

theorem RawCall.reads_of_read {param : List Char → Except CallError Param} {found : RawCall}
    {c : Call} (h : found.read param = .ok c) : found.Reads c := by
  obtain ⟨arguments, -, rfl⟩ := map_eq_ok_iff.1 h
  exact ⟨rfl, rfl, rfl⟩

namespace Call

variable {line : String} {calls : List Call}

/-- A text is cut at the calls that the scan finds. -/
theorem exists_scan_of_segment {cut : Segmented Call} (h : segment line = .ok cut) :
    ∃ s, CallStyle.marked.scan none 0 line.toList = .ok s ∧ s.before = cut.before ∧
      List.Forall₂ (fun found c => found.1.Reads c.1 ∧ found.2 = c.2) s.calls cut.calls := by
  rw [segment, segmentWith] at h
  cases hs : CallStyle.marked.scan none 0 line.toList with
  | error e =>
    rw [hs] at h
    cases h
  | ok s =>
    rw [hs] at h
    obtain ⟨found, hfound, rfl⟩ : ∃ found, (s.calls.mapM fun piece =>
        (piece.1.read Param.read).map (·, piece.2)) = .ok found ∧ ⟨s.before, found⟩ = cut :=
      map_eq_ok_iff.1 h
    refine ⟨s, rfl, rfl, ?_⟩
    apply (mapM_eq_ok_iff.1 hfound).imp
    intro raw read hread
    obtain ⟨c, hc, rfl⟩ := map_eq_ok_iff.1 hread
    exact ⟨RawCall.reads_of_read hc, rfl⟩

theorem exists_scan_of_findAll (h : findAll line = .ok calls) :
    ∃ s, CallStyle.marked.scan none 0 line.toList = .ok s ∧
      List.Forall₂ (fun found c => found.1.Reads c) s.calls calls := by
  obtain ⟨cut, hcut, rfl⟩ := map_eq_ok_iff.1 h
  obtain ⟨s, hs, -, hreads⟩ := exists_scan_of_segment hcut
  refine ⟨s, hs, ?_⟩
  rw [List.forall₂_map_right_iff]
  exact hreads.imp fun _ _ hread => hread.1

/-- The calls that are found, and what is written around them, make up the text. -/
theorem exists_tiles_of_findAll (h : findAll line = .ok calls) :
    ∃ before text raw, line.toList = before ++ text ∧ opensCall none before = false ∧
      Tiles (size before) text raw ∧ List.Forall₂ (fun found c => found.1.Reads c) raw calls := by
  obtain ⟨s, hs, hreads⟩ := exists_scan_of_findAll h
  obtain ⟨text, hline, hplain, htiles⟩ := CallStyle.tiles_of_scan hs
  rw [Nat.zero_add] at htiles
  exact ⟨s.before, text, s.calls, hline, hplain, htiles, hreads⟩

theorem map_span_of_reads {raw : List (RawCall × List Char)}
    (h : List.Forall₂ (fun found c => found.1.Reads c) raw calls) :
    calls.map (·.span) = raw.map (·.1.span) := by
  rw [← List.forall₂_eq_eq_eq, List.forall₂_map_left_iff, List.forall₂_map_right_iff]
  exact h.flip.imp fun c found hread => hread.span

theorem findAll_eq_nil_iff : findAll line = .ok [] ↔ occursIn line = false := by
  constructor
  · intro h
    obtain ⟨before, text, raw, hline, hplain, htiles, hreads⟩ := exists_tiles_of_findAll h
    rw [List.forall₂_nil_right_iff] at hreads
    subst hreads
    cases htiles
    rw [occursIn, hline, List.append_nil]
    exact hplain
  · intro h
    rw [findAll, segment_of_not_occursIn h]
    rfl

theorem slice?_of_mem_findAll (h : findAll line = .ok calls) {c : Call} (hc : c ∈ calls) :
    Text.slice? line c.span = some c.source := by
  obtain ⟨before, text, raw, hline, -, htiles, hreads⟩ := exists_tiles_of_findAll h
  obtain ⟨found, hfound, hread⟩ := forall₂_exists_left hreads hc
  have hslice := htiles.slice?_span rfl found hfound
  rw [hread.span, Text.slice?, hline, hslice, hread.source]
  rfl

theorem source_of_mem_findAll (h : findAll line = .ok calls) {c : Call} (hc : c ∈ calls) :
    ∃ inner, c.source = "@" ++ c.name ++ "(" ++ inner ++ ")" := by
  obtain ⟨before, text, raw, -, -, htiles, hreads⟩ := exists_tiles_of_findAll h
  obtain ⟨found, hfound, hread⟩ := forall₂_exists_left hreads hc
  refine ⟨String.ofList found.1.inner, ?_⟩
  rw [hread.source, hread.name, RawCall.source, htiles.head_eq found hfound, ← String.toList_inj]
  simp [CallStyle.head]

theorem pairwise_span_of_findAll (h : findAll line = .ok calls) :
    (calls.map (·.span)).Pairwise fun a b => a.start < b.start ∧ a.stop ≤ b.start := by
  obtain ⟨before, text, raw, -, -, htiles, hreads⟩ := exists_tiles_of_findAll h
  rw [map_span_of_reads hreads]
  exact htiles.pairwise_span

theorem plain_gaps_of_findAll (h : findAll line = .ok calls) :
    ∀ g ∈ gaps 0 (Text.size line) (calls.map (·.span)),
      ∃ t, Text.slice? line g = some t ∧ occursIn t = false := by
  obtain ⟨before, text, raw, hline, hplain, htiles, hreads⟩ := exists_tiles_of_findAll h
  have hoffset : size [] + size before = size before := Nat.zero_add _
  intro g hg
  rw [map_span_of_reads hreads, Text.size, hline] at hg
  obtain ⟨t, ht, hplain⟩ := htiles.plain_gaps hoffset hplain g hg
  refine ⟨String.ofList t, ?_, ?_⟩
  · rw [Text.slice?, hline]
    exact congrArg (Option.map String.ofList) ht
  · rw [occursIn, String.toList_ofList]
    exact hplain

theorem span_lt_of_mem_findAll (h : findAll line = .ok calls) {c : Call} (hc : c ∈ calls) :
    c.span.start < c.span.stop := by
  obtain ⟨before, text, raw, -, -, -, hreads⟩ := exists_tiles_of_findAll h
  obtain ⟨found, -, hread⟩ := forall₂_exists_left hreads hc
  rw [hread.span]
  exact RawCall.span_lt found.1

/-- No call is found exactly where none begins. The calls that are found stand at their spans one
after the other, and no call begins in the text before, between and after them. -/
theorem findAll_spans (line : String) :
    ((occursIn line = true ↔ HasOpening none line.toList) ∧
        (occursIn line = false ↔ findAll line = .ok [])) ∧
      ∀ calls, findAll line = .ok calls →
        (∀ c ∈ calls, c.span.start < c.span.stop ∧ Text.slice? line c.span = some c.source ∧
          ∃ inner, c.source = "@" ++ c.name ++ "(" ++ inner ++ ")") ∧
        ((calls.map (·.span)).Pairwise fun a b => a.start < b.start ∧ a.stop ≤ b.start) ∧
        ∀ g ∈ gaps 0 (Text.size line) (calls.map (·.span)),
          ∃ t, Text.slice? line g = some t ∧ occursIn t = false := by
  refine ⟨⟨opensCall_iff, findAll_eq_nil_iff.symm⟩, ?_⟩
  intro calls h
  refine ⟨?_, pairwise_span_of_findAll h, plain_gaps_of_findAll h⟩
  intro c hc
  exact ⟨span_lt_of_mem_findAll h hc, slice?_of_mem_findAll h hc, source_of_mem_findAll h hc⟩

/-- An address, a call with a quoted parenthesis, a character of two bytes, and a word after an at
sign. -/
theorem findAll_spans_quoted :
    let line := "a@b(c) @var(\"x)\") é @fill(animals) @end"
    ∃ calls, findAll line = .ok calls ∧
      calls.map (·.source) = ["@var(\"x)\")", "@fill(animals)"] ∧
      calls.map (·.span) = [⟨7, 17⟩, ⟨21, 35⟩] ∧
      (∀ c ∈ calls, Text.slice? line c.span = some c.source) ∧
      ∀ g ∈ [⟨0, 7⟩, ⟨17, 21⟩, ⟨35, 40⟩],
        ∃ t, Text.slice? line g = some t ∧ occursIn t = false := by
  intro line
  have hfound : ((findAll line).toOption.map fun calls =>
      (calls.map (·.source), calls.map (·.span))) =
        some (["@var(\"x)\")", "@fill(animals)"], [⟨7, 17⟩, ⟨21, 35⟩]) := by decide +kernel
  cases h : findAll line with
  | error e =>
    rw [h] at hfound
    cases hfound
  | ok calls =>
    rw [h] at hfound
    obtain ⟨hsources, hspans⟩ := Prod.mk.inj (Option.some.inj hfound)
    have hsize : Text.size line = 40 := by decide +kernel
    obtain ⟨-, hat⟩ := findAll_spans line
    obtain ⟨hslices, -, hgaps⟩ := hat calls h
    rw [hspans, hsize] at hgaps
    exact ⟨calls, rfl, hsources, hspans, fun c hc => (hslices c hc).2.1, hgaps⟩

end Call

end Worksheet
