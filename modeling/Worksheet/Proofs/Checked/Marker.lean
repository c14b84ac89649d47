import Worksheet.Marker
import Worksheet.Proofs.Checked.Call

namespace Worksheet.Checked

open Chars (size)

/-- The calls of a line that are marked by an at sign. -/
def findMarked (line : String) : OptionT (Except CallError) (List Call) :=
  findCalls (readParam (Param.maxNesting + 1)) .marked line.toList

/-- The calls of a line that have one of the given names. -/
def findBare (names : List String) (line : String) : OptionT (Except CallError) (List Call) :=
  findCalls (readParam (Param.maxNesting + 1)) (.bare names) line.toList

theorem findMarked_safe (line : String) :
    Safe (findMarked line) ((Call.segment line).map (·.calls.map (·.1))) :=
  findCalls_safe (readParam_safe _) .marked line.toList

theorem findBare_safe (names : List String) (line : String) :
    Safe (findBare names line) (Call.findBare names line) :=
  findCalls_safe (readParam_safe _) (.bare names) line.toList

/-- Takes the decorators out of a line from the end of the last one on, given the calls after it. -/
def cutOut (line : List Char) (last : Nat) :
    List Call → OptionT (Except CallError) (List Char × List Marker)
  | [] => do return (← access (onward line last), [])
  | call :: calls => do
    match ← OptionT.lift (Marker.ofCall? call) with
    | none => cutOut line last calls
    | some marker =>
      let before ← access (slice line last call.span.start)
      let (text, markers) ← cutOut line call.span.stop calls
      return (before ++ text, marker :: markers)

/-- Takes the decorators out of a line. -/
def extract (line : String) : OptionT (Except CallError) (String × List Marker) := do
  let calls ← findMarked line
  let (text, markers) ← cutOut line.toList 0 calls
  return (String.ofList (if markers.isEmpty then text else Chars.collapse text), markers)

/-- What is left of some calls and the text after each when the decorators are gone, and the
markers that these stand for. -/
def leftOver : List (Call × List Char) → Except CallError (List Char × List Marker)
  | [] => .ok ([], [])
  | (call, after) :: calls => do
    let found ← Marker.ofCall? call
    (leftOver calls).map fun (text, markers) =>
      ((if found.isSome then [] else call.source.toList) ++ after ++ text,
        found.toList ++ markers)

theorem leftOver_eq (calls : List (Call × List Char)) : leftOver calls = do
    let found ← calls.mapM fun (call, after) =>
      (Marker.ofCall? call).map fun found => ((call, found), after)
    return (found.flatMap fun ((call, marker), after) =>
      (if marker.isSome then [] else call.source.toList) ++ after, found.filterMap (·.1.2)) := by
  induction calls with
  | nil => rfl
  | cons c calls ih =>
    obtain ⟨call, after⟩ := c
    rw [leftOver, ih, List.mapM_cons]
    dsimp only
    cases Marker.ofCall? call with
    | error e => rfl
    | ok found =>
      cases calls.mapM fun (call, after) =>
          (Marker.ofCall? call).map fun found => ((call, found), after) with
      | error e => rfl
      | ok more => cases found <;> simp [Except.map, bind, Except.bind, pure, Except.pure]

/-- The first call stays in the text with what was passed over, or it is a decorator. -/
theorem leftOver_cons (pending : List Char) (call : Call) (after : List Char)
    (calls : List (Call × List Char)) :
    (leftOver ((call, after) :: calls)).map (fun (text, markers) => (pending ++ text, markers)) =
      Marker.ofCall? call >>= fun found => match found with
        | none => (leftOver calls).map fun (text, markers) =>
          (pending ++ call.source.toList ++ after ++ text, markers)
        | some marker => (leftOver calls).map (fun (text, markers) => (after ++ text, markers)) >>=
          fun (text, markers) => pure (pending ++ text, marker :: markers) := by
  rw [leftOver]
  cases Marker.ofCall? call with
  | error e => rfl
  | ok found =>
    cases found <;> cases leftOver calls <;>
      simp [Except.map, bind, Except.bind, pure, Except.pure]

theorem extract_eq (line : String) : Marker.extract line = Call.segment line >>= fun cut =>
    (leftOver cut.calls).map fun (text, markers) =>
      (String.ofList (if markers.isEmpty then cut.before ++ text
        else Chars.collapse (cut.before ++ text)), markers) := by
  rw [Marker.extract]
  cases Call.segment line with
  | error e => rfl
  | ok cut =>
    show _ = (leftOver cut.calls).map _
    rw [leftOver_eq]
    show (cut.calls.mapM fun (call, after) =>
        (Marker.ofCall? call).map fun found => ((call, found), after)) >>= _ = _
    cases cut.calls.mapM fun (call, after) =>
        (Marker.ofCall? call).map fun found => ((call, found), after) <;> rfl

/-- A part of the line after the last decorator may have been passed over already. -/
theorem cutOut_safe {line done pending : List Char} {calls : List (Call × List Char)}
    (hline : line = done ++ pending ++ Placed.written (calls.map Call.placed))
    (hlaid : Placed.Laid (size (done ++ pending)) (calls.map Call.placed)) :
    Safe (cutOut line (size done) (calls.map (·.1)))
      ((leftOver calls).map fun (text, markers) => (pending ++ text, markers)) := by
  induction calls generalizing done pending with
  | nil =>
    have hrest : line = done ++ pending := by simpa [Placed.written] using hline
    refine Safe.after ?_ (onward_append hrest rfl)
    show Safe (pure (pending, [])) (pure (pending ++ [], []))
    rw [List.append_nil]
    exact safe_pure _
  | cons c calls ih =>
    obtain ⟨call, after⟩ := c
    obtain ⟨hspan, hlaid⟩ := hlaid
    have hplace : call.span = ⟨size (done ++ pending),
        size (done ++ pending) + size call.source.toList⟩ := hspan
    have htext : line = done ++ pending ++ (call.source.toList ++ (after ++
        Placed.written (calls.map Call.placed))) := by
      rw [hline, List.map_cons, Placed.written_cons]
      rfl
    have hnext : Placed.Laid (size (done ++ pending) + size call.source.toList + size after)
        (calls.map Call.placed) := by
      have hstop : call.span.stop = size (done ++ pending) + size call.source.toList := by
        rw [hplace]
      rw [← hstop]
      exact hlaid
    rw [leftOver_cons, List.map_cons, cutOut]
    refine Safe.bind (safe_lift _) fun found => ?_
    cases found with
    | none =>
      have hwhole : line = done ++ (pending ++ call.source.toList ++ after) ++
          Placed.written (calls.map Call.placed) := by simp [htext]
      refine ih hwhole ?_
      simpa [Nat.add_assoc] using hnext
    | some marker =>
      have hbefore : slice line (size done) call.span.start = some pending := by
        refine slice_append htext rfl ?_
        rw [hplace, Chars.size_append]
      have hstop : call.span.stop = size (done ++ pending ++ call.source.toList) := by
        rw [hplace, Chars.size_append (done ++ pending)]
      refine Safe.after ?_ hbefore
      have hwhole : line = (done ++ pending ++ call.source.toList) ++ after ++
          Placed.written (calls.map Call.placed) := by simp [htext]
      have hrest := ih hwhole (by simpa [Nat.add_assoc] using hnext)
      rw [hstop]
      refine Safe.bind hrest fun result => ?_
      cases result
      exact safe_pure (m := Except CallError) _

theorem extract_safe (line : String) : Safe (extract line) (Marker.extract line) := by
  rw [extract, extract_eq]
  refine Safe.bind_map (findMarked_safe line) fun cut hcut => ?_
  obtain ⟨htext, hlaid⟩ := laid_of_segmentWith hcut
  have hline : line.toList = [] ++ cut.before ++ Placed.written (cut.calls.map Call.placed) := htext
  have hcut := cutOut_safe hline hlaid
  have hmap : (leftOver cut.calls).map (fun (text, markers) =>
      (String.ofList (if markers.isEmpty then cut.before ++ text
        else Chars.collapse (cut.before ++ text)), markers)) =
      (leftOver cut.calls).map (fun (text, markers) => (cut.before ++ text, markers)) >>=
        fun (text, markers) => pure
          (String.ofList (if markers.isEmpty then text else Chars.collapse text), markers) := by
    cases leftOver cut.calls <;> rfl
  rw [hmap]
  refine Safe.bind hcut fun result => ?_
  cases result
  exact safe_pure (m := Except CallError) _

end Worksheet.Checked
