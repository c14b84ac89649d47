import Worksheet.Proofs.Call.Spans

namespace Worksheet

open Chars (size)

/-- What is written where a call stands, and the text after it up to the next call. -/
structure Placed where
  span : Span
  source : List Char
  after : List Char

namespace Placed

/-- The text that is made up of some calls and what is written after each. -/
def written (placed : List Placed) : List Char :=
  placed.flatMap fun p => p.source ++ p.after

/-- The spans are those of calls that stand one after the other from an offset on. -/
def Laid (offset : Nat) : List Placed → Prop
  | [] => True
  | p :: rest => p.span = ⟨offset, offset + size p.source⟩ ∧ Laid (p.span.stop + size p.after) rest

theorem written_cons (p : Placed) (rest : List Placed) :
    written (p :: rest) = p.source ++ (p.after ++ written rest) := by
  simp [written]

/-- A call begins behind what stands before it. -/
theorem Laid.exists_split {placed : List Placed} {before : List Char}
    (h : Laid (size before) placed) {p : Placed} (hp : p ∈ placed) : ∃ left right,
      before ++ written placed = left ++ p.source ++ right ∧
        p.span = ⟨size left, size left + size p.source⟩ := by
  induction placed generalizing before with
  | nil => cases hp
  | cons q rest ih =>
    obtain ⟨hspan, hrest⟩ := h
    rcases List.mem_cons.1 hp with rfl | hmem
    · exact ⟨before, p.after ++ written rest, by simp [written_cons], hspan⟩
    · have hsize : size (before ++ q.source ++ q.after) = q.span.stop + size q.after := by
        rw [hspan, Chars.size_append, Chars.size_append]
      rw [← hsize] at hrest
      obtain ⟨left, right, hsplit, hleft⟩ := ih hrest hmem
      refine ⟨left, right, ?_, hleft⟩
      rw [← hsplit, written_cons]
      simp

end Placed

def RawCall.placed (c : RawCall × List Char) : Placed :=
  ⟨c.1.span, c.1.source, c.2⟩

def Call.placed (c : Call × List Char) : Placed :=
  ⟨c.1.span, c.1.source.toList, c.2⟩

theorem RawCall.Reads.placed_eq {found : RawCall × List Char} {c : Call × List Char}
    (h : found.1.Reads c.1) (hafter : found.2 = c.2) : Call.placed c = RawCall.placed found := by
  rw [Call.placed, RawCall.placed, h.span, h.source, String.toList_ofList, hafter]

/-- What the scan finds makes up the text. -/
theorem CallStyle.laid_of_scan {style : CallStyle} {prev : Option Char} {start : Nat}
    {cs : List Char} {s : Segmented RawCall} (h : style.scan prev start cs = .ok s) :
    cs = s.before ++ Placed.written (s.calls.map RawCall.placed) ∧
      Placed.Laid (start + size s.before) (s.calls.map RawCall.placed) := by
  fun_induction style.scan prev start cs generalizing s with
  | case1 =>
    cases h
    exact ⟨rfl, trivial⟩
  | case2 prev start c rest hopen ih =>
    obtain ⟨s, hs, rfl⟩ := map_eq_ok_iff.1 h
    obtain ⟨htext, hlaid⟩ := ih hs
    refine ⟨congrArg (c :: ·) htext, ?_⟩
    show Placed.Laid (start + size (c :: s.before)) _
    rw [Chars.size_cons, ← Nat.add_assoc]
    exact hlaid
  | case3 => cases h
  | case4 prev start c rest name tail hopen inner after hclose _ call =>
    rename_i ih
    obtain ⟨s, hs, rfl⟩ := map_eq_ok_iff.1 h
    obtain ⟨htext, hlaid⟩ := ih hs
    refine ⟨?_, rfl, hlaid⟩
    show c :: rest = Placed.written (RawCall.placed (call, s.before) :: s.calls.map RawCall.placed)
    rw [Placed.written_cons, RawCall.placed, ← htext, ← head_append hopen,
      ← Scanner.close?_append hclose]
    simp [call, RawCall.source]

/-- The calls that are read from a text make up the text. -/
theorem laid_of_segmentWith {param : List Char → Except CallError Param} {style : CallStyle}
    {cs : List Char} {cut : Segmented Call} (h : segmentWith param style cs = .ok cut) :
    cs = cut.before ++ Placed.written (cut.calls.map Call.placed) ∧
      Placed.Laid (size cut.before) (cut.calls.map Call.placed) := by
  rw [segmentWith] at h
  cases hs : style.scan none 0 cs with
  | error e =>
    rw [hs] at h
    cases h
  | ok s =>
    rw [hs] at h
    obtain ⟨read, hread, rfl⟩ : ∃ read, (s.calls.mapM fun piece =>
        (piece.1.read param).map (·, piece.2)) = .ok read ∧ ⟨s.before, read⟩ = cut :=
      map_eq_ok_iff.1 h
    have hplaced : read.map Call.placed = s.calls.map RawCall.placed := by
      rw [← List.forall₂_eq_eq_eq, List.forall₂_map_left_iff, List.forall₂_map_right_iff]
      apply (mapM_eq_ok_iff.1 hread).flip.imp
      intro c raw hc
      obtain ⟨call, hcall, rfl⟩ := map_eq_ok_iff.1 hc
      exact (RawCall.reads_of_read hcall).placed_eq rfl
    obtain ⟨htext, hlaid⟩ := CallStyle.laid_of_scan hs
    rw [Nat.zero_add] at hlaid
    rw [hplaced]
    exact ⟨htext, hlaid⟩

/-- Before the arguments of a call stands its name. -/
theorem CallStyle.head_of_scan {style : CallStyle} {prev : Option Char} {start : Nat}
    {cs : List Char} {s : Segmented RawCall} (h : style.scan prev start cs = .ok s) :
    ∀ c ∈ s.calls, c.1.head = style.head c.1.name := by
  fun_induction style.scan prev start cs generalizing s with
  | case1 =>
    cases h
    simp
  | case2 prev start c rest hopen ih =>
    obtain ⟨s, hs, rfl⟩ := map_eq_ok_iff.1 h
    intro other hother
    exact ih hs other hother
  | case3 => cases h
  | case4 prev start c rest name tail hopen inner after hclose _ call =>
    rename_i ih
    obtain ⟨s, hs, rfl⟩ := map_eq_ok_iff.1 h
    intro other hother
    rcases List.mem_cons.1 hother with rfl | hmem
    · rfl
    · exact ih hs other hmem

/-- The scan fails only at a call that is not closed, and tells the text from there on. -/
theorem CallStyle.exists_of_scan_error {style : CallStyle} {prev : Option Char} {start : Nat}
    {cs : List Char} {e : CallError} (h : style.scan prev start cs = .error e) :
    ∃ before name rest, cs = before ++ (style.head name ++ rest) ∧
      e = ⟨.unclosed (String.ofList name), ⟨start + size before, start + size cs⟩⟩ := by
  fun_induction style.scan prev start cs with
  | case1 => cases h
  | case2 prev start c rest hopen ih =>
    obtain ⟨before, name, tail, rfl, rfl⟩ := ih (map_eq_error_iff.1 h)
    exact ⟨c :: before, name, tail, rfl, by simp [Nat.add_assoc]⟩
  | case3 prev start c rest name tail hopen =>
    obtain rfl := Except.error.inj h
    exact ⟨[], name, tail, (head_append hopen).symm, rfl⟩
  | case4 prev start c rest name tail hopen inner after hclose _ call =>
    rename_i ih
    have htext : c :: rest = call.source ++ after := by
      rw [← head_append hopen, ← Scanner.close?_append hclose]
      simp [call, RawCall.source]
    obtain ⟨before, unclosed, more, hafter, rfl⟩ := ih (map_eq_error_iff.1 h)
    refine ⟨call.source ++ before, unclosed, more, by rw [htext, hafter]; simp, ?_⟩
    rw [htext]
    simp [RawCall.span, call, Nat.add_assoc]

/-- A call without an at sign is written as its name and what stands between its parentheses. -/
theorem exists_source_of_segmentWith {param : List Char → Except CallError Param}
    {names : List String} {cs : List Char} {cut : Segmented Call}
    (h : segmentWith param (.bare names) cs = .ok cut) : ∀ c ∈ cut.calls,
      ∃ inner, c.1.source.toList = c.1.name.toList ++ '(' :: (inner ++ [')']) := by
  rw [segmentWith] at h
  cases hs : (CallStyle.bare names).scan none 0 cs with
  | error e =>
    rw [hs] at h
    cases h
  | ok s =>
    rw [hs] at h
    obtain ⟨read, hread, rfl⟩ : ∃ read, (s.calls.mapM fun piece =>
        (piece.1.read param).map (·, piece.2)) = .ok read ∧ ⟨s.before, read⟩ = cut :=
      map_eq_ok_iff.1 h
    intro c hc
    obtain ⟨raw, hraw, hpair⟩ := forall₂_exists_left (mapM_eq_ok_iff.1 hread) hc
    obtain ⟨call, hcall, rfl⟩ := map_eq_ok_iff.1 hpair
    have hhead := CallStyle.head_of_scan hs raw hraw
    have hreads := RawCall.reads_of_read hcall
    rw [hreads.name, hreads.source, String.toList_ofList, String.toList_ofList]
    exact ⟨raw.1.inner, by simp [RawCall.source, hhead, CallStyle.head]⟩

end Worksheet
