import Worksheet.Proofs.Call.Fragments
import Worksheet.Proofs.Chars.Bytes

namespace Worksheet

open Chars (size)

namespace CallFault

/-- The text that a fault is about. -/
inductive About : CallFault → List Char → Prop
  | unclosed (name rest : List Char) :
    About (.unclosed (String.ofList name)) (CallStyle.marked.head name ++ rest)
  | entry (cs : List Char) : About (.entryWithoutKey (String.ofList cs)) cs
  | tooDeep (levels : Nat) (cs : List Char) : About (.tooDeep levels) cs

/-- The third and the eleventh character of a message, which tell the faults apart. -/
def letters : CallFault → Option Char × Option Char
  | .unclosed _ => ('c', 'a')
  | .tooDeep _ => ('s', 'o')
  | .entryWithoutKey _ => ('p', 'k')
  | .definitionWithoutValue => ('p', '@')
  | .badVariableName _ => ('v', 'r')
  | .unresolved .. => ('r', ' ')

theorem letters_message (fault : CallFault) :
    (fault.message.toList[2]?, fault.message.toList[10]?) = fault.letters := by
  have hstart : ∀ start rest : String, 10 < start.toList.length →
      ((start ++ rest).toList[2]?, (start ++ rest).toList[10]?) =
        (start.toList[2]?, start.toList[10]?) := by
    intro start rest hlength
    rw [String.toList_append, List.getElem?_append_left (by omega),
      List.getElem?_append_left hlength]
  cases fault with
  | unclosed name =>
    have htext : (unclosed name).message = "unclosed call to '" ++ (name ++ "'") :=
      String.append_assoc
    rw [htext, hstart _ _ (by decide)]
    rfl
  | tooDeep levels =>
    have htext : (tooDeep levels).message =
        "nesting too deep (more than " ++ (toString levels ++ " levels)") := String.append_assoc
    rw [htext, hstart _ _ (by decide)]
    rfl
  | entryWithoutKey entry =>
    have htext : (entryWithoutKey entry).message =
        "expected 'key: value' in object, found '" ++ (entry ++ "'") := String.append_assoc
    rw [htext, hstart _ _ (by decide)]
    rfl
  | definitionWithoutValue => rfl
  | badVariableName name =>
    have htext : (badVariableName name).message = "invalid variable name '" ++ (name ++ "'") :=
      String.append_assoc
    rw [htext, hstart _ _ (by decide)]
    rfl
  | unresolved inner outer =>
    have htext : (unresolved inner outer).message =
        "unresolved call '" ++ inner ++ "' inside @" ++ outer := rfl
    rw [htext, String.append_assoc, String.append_assoc]
    rw [hstart _ _ (by decide)]
    rfl

theorem letters_eq_of_message_eq {fault other : CallFault} (h : fault.message = other.message) :
    fault.letters = other.letters := by
  rw [← letters_message, ← letters_message, h]

theorem message_eq_unclosed_iff {fault : CallFault} {name : String} :
    fault.message = (unclosed name).message ↔ fault = .unclosed name := by
  constructor
  · intro h
    have hletters := letters_eq_of_message_eq h
    cases fault with
    | unclosed other =>
      have htext : "unclosed call to '" ++ other ++ "'" = "unclosed call to '" ++ name ++ "'" := h
      rw [String.append_left_inj, String.append_right_inj] at htext
      rw [htext]
    | _ => simp [letters] at hletters
  · rintro rfl
    rfl

theorem message_eq_entry_iff {fault : CallFault} {entry : String} :
    fault.message = (entryWithoutKey entry).message ↔ fault = .entryWithoutKey entry := by
  constructor
  · intro h
    have hletters := letters_eq_of_message_eq h
    cases fault with
    | entryWithoutKey other =>
      have htext : "expected 'key: value' in object, found '" ++ other ++ "'" =
          "expected 'key: value' in object, found '" ++ entry ++ "'" := h
      rw [String.append_left_inj, String.append_right_inj] at htext
      rw [htext]
    | _ => simp [letters] at hletters
  · rintro rfl
    rfl

end CallFault

namespace CallError

/-- At the place of a fault stands the text that it is about. -/
def PointsAt (cs : List Char) (e : CallError) : Prop :=
  ∃ before text after, cs = before ++ text ++ after ∧
    e.span = ⟨size before, size before + size text⟩ ∧ e.fault.About text

theorem PointsAt.shift {cs : List Char} {e : CallError} (h : e.PointsAt cs)
    (before after : List Char) : (e.shift (size before)).PointsAt (before ++ cs ++ after) := by
  obtain ⟨left, text, right, rfl, hspan, habout⟩ := h
  refine ⟨before ++ left, text, right ++ after, by simp, ?_, habout⟩
  rw [CallError.shift, hspan, Span.shift, Chars.size_append]
  simp only [Span.mk.injEq]
  omega

theorem PointsAt.slice?_of_entry {line entry : String} {e : CallError} (h : e.PointsAt line.toList)
    (hfault : e.fault = .entryWithoutKey entry) : Text.slice? line e.span = some entry := by
  obtain ⟨before, text, after, hline, hspan, habout⟩ := h
  rw [hfault] at habout
  cases habout
  rw [Text.slice?, hline, hspan, Chars.slice?_append]
  rfl

theorem PointsAt.slice?_of_unclosed {line name : String} {e : CallError}
    (h : e.PointsAt line.toList) (hfault : e.fault = .unclosed name) :
    ∃ rest, Text.slice? line e.span = some ("@" ++ name ++ "(" ++ rest) := by
  obtain ⟨before, text, after, hline, hspan, habout⟩ := h
  rw [hfault] at habout
  cases habout with
  | unclosed name rest =>
    refine ⟨String.ofList rest, ?_⟩
    rw [Text.slice?, hline, hspan, Chars.slice?_append, Option.map_some, Option.some_inj,
      ← String.toList_inj]
    simp [CallStyle.head]

end CallError

/-- The fault of a call that is not closed is at the call. -/
theorem CallStyle.pointsAt_of_scan_error {cs : List Char} {e : CallError}
    (h : marked.scan none 0 cs = .error e) : e.PointsAt cs := by
  obtain ⟨before, name, rest, hcs, rfl⟩ := exists_of_scan_error h
  refine ⟨before, marked.head name ++ rest, [], by simpa using hcs, ?_, .unclosed name rest⟩
  rw [hcs]
  simp only [Nat.zero_add, Chars.size_append]

theorem Param.OwnFault.pointsAt {cs : List Char} {e : CallError} (h : OwnFault cs e) :
    e.PointsAt cs := by
  cases h with
  | unclosed _ hscan => exact CallStyle.pointsAt_of_scan_error hscan
  | @entry inner piece hbraces hpiece _ =>
    obtain ⟨before, after, htext, hspan⟩ :=
      Piece.exists_of_mem_splitTopLevel (List.mem_of_mem_filter hpiece)
    have hinner : CallError.PointsAt inner
        ⟨.entryWithoutKey (String.ofList piece.text), piece.span⟩ :=
      ⟨before, piece.text, after, htext, hspan, .entry piece.text⟩
    rw [append_of_enclosed? hbraces]
    exact hinner.shift ['\x7b'] ['\x7d']

namespace Fragment

/-- How many bytes of labels are not counted on the way through some fragments. -/
def totalSkipped : List Fragment → Nat
  | [] => 0
  | f :: path => f.skipped + totalSkipped path

/-- A fault of a fragment, put in its place, lacks what is skipped in the fragment. -/
theorem StandsBehind.pointsAt {f : Fragment} {before cs : List Char} {e : CallError} {n : Nat}
    (h : f.StandsBehind before cs) (hfault : (e.shift n).PointsAt (Chars.trim f.text)) :
    ((e.shift f.place).shift (f.skipped + n)).PointsAt cs := by
  obtain ⟨between, after, hcs, hplace⟩ := h.exists_value
  have hshift : (e.shift f.place).shift (f.skipped + n) =
      (e.shift n).shift (size (before ++ between)) := by
    rw [CallError.shift_shift, CallError.shift_shift, Chars.size_append, ← hplace]
    congr 1
    omega
  rw [hshift, hcs]
  exact hfault.shift (before ++ between) after

theorem StandsBehind.totalSkipped_eq_zero_iff {f : Fragment} {before cs : List Char}
    {path : List Fragment} (h : f.StandsBehind before cs)
    (hpath : totalSkipped path = 0 ↔ ∀ g ∈ path, g.label = []) :
    totalSkipped (f :: path) = 0 ↔ ∀ g ∈ f :: path, g.label = [] := by
  rw [totalSkipped, Nat.add_eq_zero_iff, h.skipped_eq_zero_iff, hpath, List.forall_mem_cons]

end Fragment

open Fragment (totalSkipped)

namespace Param

/-- A fault of a text without white space around it, with the parts that it is in from the outermost
one on. -/
inductive FaultIn : List Char → List Fragment → CallError → Prop
  | own {cs : List Char} {e : CallError} (fault : OwnFault cs e) : FaultIn cs [] e
  | tooDeep (cs : List Char) : FaultIn cs [] ⟨.tooDeep maxNesting, ⟨0, size cs⟩⟩
  | part {cs : List Char} {f : Fragment} {path : List Fragment} {e : CallError}
    (part : PartOf cs f) (fault : FaultIn (Chars.trim f.text) path e) :
    FaultIn cs (f :: path) (e.shift f.place)

theorem exists_faultIn {n : Nat} {cs : List Char} {e : CallError} (h : readWithin n cs = .error e) :
    ∃ path, FaultIn (Chars.trim cs) path e := by
  induction n generalizing cs e with
  | zero =>
    obtain rfl := Except.error.inj h
    exact ⟨[], .tooDeep _⟩
  | succ n ih =>
    rw [readWithin_succ] at h
    rcases (readLevel_delegates cs).error h with hown | ⟨f, hf, inner, hinner, rfl⟩
    · exact ⟨[], .own hown⟩
    · obtain ⟨path, hpath⟩ := ih hinner
      exact ⟨f :: path, .part hf hpath⟩

namespace FaultIn

variable {cs : List Char} {path : List Fragment} {e : CallError} (h : FaultIn cs path e)

include h

theorem pointsAt : (e.shift (totalSkipped path)).PointsAt cs := by
  induction h with
  | own fault => exact fault.pointsAt
  | tooDeep cs => exact ⟨[], cs, [], by simp, by simp [CallError.shift, Span.shift, totalSkipped],
      .tooDeep maxNesting cs⟩
  | part part _ ih =>
    obtain ⟨before, -, hstands⟩ := part.exists_standsBehind
    rw [totalSkipped]
    exact hstands.pointsAt ih

theorem totalSkipped_eq_zero_iff : totalSkipped path = 0 ↔ ∀ f ∈ path, f.label = [] := by
  induction h with
  | own => simp [totalSkipped]
  | tooDeep => simp [totalSkipped]
  | part part _ ih =>
    obtain ⟨before, -, hstands⟩ := part.exists_standsBehind
    exact hstands.totalSkipped_eq_zero_iff ih

end FaultIn

end Param

namespace Call

/-- A fault of a line, with the parts that it is in from the outermost one on. -/
inductive FaultIn (cs : List Char) : List Fragment → CallError → Prop
  | unclosed {e : CallError} (scan : CallStyle.marked.scan none 0 cs = .error e) : FaultIn cs [] e
  | argument {f : Fragment} {path : List Fragment} {e : CallError} (part : ArgumentOf .marked cs f)
    (fault : Param.FaultIn (Chars.trim f.text) path e) : FaultIn cs (f :: path) (e.shift f.place)

namespace FaultIn

variable {cs : List Char} {path : List Fragment} {e : CallError} (h : FaultIn cs path e)

include h

theorem pointsAt : (e.shift (totalSkipped path)).PointsAt cs := by
  cases h with
  | unclosed scan => exact CallStyle.pointsAt_of_scan_error scan
  | argument part fault =>
    obtain ⟨before, -, hstands⟩ := part.exists_standsBehind
    rw [totalSkipped]
    exact hstands.pointsAt fault.pointsAt

theorem totalSkipped_eq_zero_iff : totalSkipped path = 0 ↔ ∀ f ∈ path, f.label = [] := by
  cases h with
  | unclosed => simp [totalSkipped]
  | argument part fault =>
    obtain ⟨before, -, hstands⟩ := part.exists_standsBehind
    exact hstands.totalSkipped_eq_zero_iff fault.totalSkipped_eq_zero_iff

end FaultIn

variable {line : String} {e : CallError}

theorem exists_faultIn (h : findAll line = .error e) : ∃ path, FaultIn line.toList path e := by
  have hsegment : segmentWith Param.read .marked line.toList = .error e := map_eq_error_iff.1 h
  rcases (segmentWith_delegates .marked line.toList).error hsegment with
    hscan | ⟨f, hf, inner, hinner, rfl⟩
  · exact ⟨[], .unclosed hscan⟩
  · obtain ⟨path, hpath⟩ := Param.exists_faultIn hinner
    exact ⟨f :: path, .argument hf hpath⟩

/-- The text that a fault is about stands behind its place by the names of the arguments and the
keys of the entries that the fault is in, and at its place if there are none. -/
theorem place_of_fault (h : findAll line = .error e) : ∃ path, FaultIn line.toList path e ∧
    (∀ entry, e.message = (CallFault.entryWithoutKey entry).message →
      Text.slice? line (e.span.shift (totalSkipped path)) = some entry) ∧
    (∀ name, e.message = (CallFault.unclosed name).message → ∃ rest,
      Text.slice? line (e.span.shift (totalSkipped path)) = some ("@" ++ name ++ "(" ++ rest)) ∧
    (totalSkipped path = 0 ↔ ∀ f ∈ path, f.label = []) := by
  obtain ⟨path, hpath⟩ := exists_faultIn h
  refine ⟨path, hpath, ?_, ?_, hpath.totalSkipped_eq_zero_iff⟩
  · intro entry hmessage
    exact hpath.pointsAt.slice?_of_entry (CallFault.message_eq_entry_iff.1 hmessage)
  · intro name hmessage
    exact hpath.pointsAt.slice?_of_unclosed (CallFault.message_eq_unclosed_iff.1 hmessage)

/-- An entry without a key in the value of an argument with a name, of which two bytes are not
counted. -/
theorem place_of_fault_named : ∃ path,
    FaultIn "@f(a=\x7bb\x7d)".toList path ⟨.entryWithoutKey "b", ⟨4, 5⟩⟩ ∧
      Text.slice? "@f(a=\x7bb\x7d)" (Span.shift ⟨4, 5⟩ (totalSkipped path)) = some "b" := by
  have hfound : findAll "@f(a=\x7bb\x7d)" = .error ⟨.entryWithoutKey "b", ⟨4, 5⟩⟩ := by
    with_unfolding_all rfl
  obtain ⟨path, hpath, hentry, -⟩ := place_of_fault hfound
  exact ⟨path, hpath, hentry "b" rfl⟩

/-- The place of this fault is at the equals sign. -/
theorem place_of_fault_misses :
    findAll "@f(a=\x7bb\x7d)" = .error ⟨.entryWithoutKey "b", ⟨4, 5⟩⟩ ∧
      Text.slice? "@f(a=\x7bb\x7d)" ⟨4, 5⟩ = some "=" ∧
      Text.slice? "@f(a=\x7bb\x7d)" ⟨4, 5⟩ ≠ some "b" := by
  have hfound : findAll "@f(a=\x7bb\x7d)" = .error ⟨.entryWithoutKey "b", ⟨4, 5⟩⟩ := by
    with_unfolding_all rfl
  have hslice : Text.slice? "@f(a=\x7bb\x7d)" ⟨4, 5⟩ = some "=" := by decide
  refine ⟨hfound, hslice, ?_⟩
  rw [hslice]
  decide

end Call

end Worksheet
