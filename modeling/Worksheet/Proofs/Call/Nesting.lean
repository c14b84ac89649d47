import Mathlib.Data.List.Count
import Worksheet.Proofs.Call.Fragments

namespace Worksheet

namespace Param

/-- One value stands in another within the given number of lists, objects and calls. -/
inductive Inside : Nat → Param → Param → Prop
  | here (p : Param) : Inside 0 p p
  | within {n : Nat} {p part q : Param} (child : Child p part) (inside : Inside n part q) :
    Inside (n + 1) p q

/-- Nothing stands in the value deeper than is allowed. -/
def Shallow (p : Param) : Prop :=
  ∀ n q, Inside n p q → n ≤ maxNesting

/-- What a text is read as at a depth: nothing below the deepest level, and otherwise what its level
makes of its parts as they are read one level deeper. -/
inductive Reads : Nat → List Char → Except CallError Param → Prop
  | tooDeep {depth : Nat} {cs : List Char} (deep : maxNesting < depth) :
    Reads depth cs (.error ⟨.tooDeep maxNesting, ⟨0, Chars.size (Chars.trim cs)⟩⟩)
  | level {depth : Nat} {cs : List Char} {param : List Char → Except CallError Param}
    (fits : depth ≤ maxNesting)
    (parts : ∀ f, PartOf (Chars.trim cs) f → Reads (depth + 1) f.text (param f.text)) :
    Reads depth cs (readLevel param cs)

theorem Reads.eq_readWithin {depth : Nat} {cs : List Char} {result : Except CallError Param}
    (h : Reads depth cs result) : result = readWithin (maxNesting + 1 - depth) cs := by
  induction h with
  | @tooDeep depth cs deep =>
    have hzero : maxNesting + 1 - depth = 0 := by omega
    rw [hzero, readWithin]
  | @level depth cs param fits _ ih =>
    have hsucc : maxNesting + 1 - depth = maxNesting - depth + 1 := by omega
    rw [hsucc, readWithin_succ]
    apply (readLevel_delegates cs).congr
    intro f hf
    have hnext : maxNesting + 1 - (depth + 1) = maxNesting - depth := by omega
    rw [ih f hf, hnext]

theorem reads_readWithin (n : Nat) {depth : Nat} (h : maxNesting + 1 - depth = n) (cs : List Char) :
    Reads depth cs (readWithin n cs) := by
  induction n generalizing depth cs with
  | zero =>
    rw [readWithin]
    exact .tooDeep (by omega)
  | succ n ih =>
    rw [readWithin_succ]
    exact .level (by omega) fun f _ => ih (by omega) f.text

/-- At every depth reading a text comes to an end, with one result. -/
theorem reads_iff {depth : Nat} {cs : List Char} {result : Except CallError Param} :
    Reads depth cs result ↔ result = readWithin (maxNesting + 1 - depth) cs := by
  constructor
  · exact Reads.eq_readWithin
  · rintro rfl
    exact reads_readWithin _ rfl cs

/-- What a reader gives if the parts of its text are read as outermost values. -/
def ReadsParts {β : Type} (part : Fragment → Prop)
    (read : (List Char → Except CallError Param) → Except CallError β)
    (result : Except CallError β) : Prop :=
  ∃ param, (∀ f, part f → Reads 0 f.text (param f.text)) ∧ read param = result

theorem readsParts_iff {β : Type} {read : (List Char → Except CallError Param) → Except CallError β}
    {own : CallError → Prop} {part : Fragment → Prop} {within : β → Param → Prop}
    (h : Delegates read own part within) {result : Except CallError β} :
    ReadsParts part read result ↔ result = read Param.read := by
  constructor
  · rintro ⟨param, hparam, rfl⟩
    exact h.congr fun f hf => (hparam f hf).eq_readWithin
  · rintro rfl
    exact ⟨Param.read, fun f _ => reads_readWithin _ rfl f.text, rfl⟩

/-- What is read within a number of levels has less of them. -/
theorem lt_of_inside {n k : Nat} {cs : List Char} {p q : Param} (h : readWithin n cs = .ok p)
    (hinside : Inside k p q) : k < n := by
  induction n generalizing k cs p with
  | zero => cases h
  | succ n ih =>
    cases hinside with
    | here => exact Nat.succ_pos n
    | within hchild hdeeper =>
      rw [readWithin_succ] at h
      obtain ⟨f, -, hpart⟩ := (readLevel_delegates cs).ok h hchild
      exact Nat.succ_lt_succ (ih hpart hdeeper)

theorem shallow_of_read {cs : List Char} {p : Param} (h : read cs = .ok p) : Shallow p :=
  fun _ _ hinside => Nat.le_of_lt_succ (lt_of_inside h hinside)

/-- Where the levels run out, each of them has its opening bracket. -/
theorem le_countP_of_tooDeep {n levels : Nat} {cs : List Char} {span : Span}
    (h : readWithin n cs = .error ⟨.tooDeep levels, span⟩) :
    n ≤ (Chars.trim cs).countP isOpening := by
  induction n generalizing cs span with
  | zero => exact Nat.zero_le _
  | succ n ih =>
    rw [readWithin_succ] at h
    rcases (readLevel_delegates cs).error h with hown | ⟨f, hf, ⟨fault, place⟩, hinner, he⟩
    · cases hown with
      | unclosed _ hscan =>
        obtain ⟨before, name, rest, -, he⟩ := CallStyle.exists_of_scan_error hscan
        cases he
    · obtain ⟨before, ⟨bracket, hbracket, hopen⟩, hstands⟩ := hf.exists_standsBehind
      obtain ⟨between, after, htext, -⟩ := hstands.exists_value
      obtain rfl : .tooDeep levels = fault := congrArg CallError.fault he
      have hpart := ih hinner
      have hfirst : 0 < before.countP isOpening := List.countP_pos_iff.2 ⟨bracket, hbracket, hopen⟩
      rw [htext, List.countP_append, List.countP_append, List.countP_append]
      omega

end Param

namespace Call

/-- The calls of a line, with the values of their arguments read in a given way. -/
def findWith (param : List Char → Except CallError Param) (line : String) :
    Except CallError (List Call) :=
  (segmentWith param .marked line.toList).map (·.calls.map (·.1))

theorem findWith_delegates (line : String) :
    Delegates (findWith · line) (fun e => CallStyle.marked.scan none 0 line.toList = .error e)
      (ArgumentOf .marked line.toList)
      (fun calls p => ∃ c ∈ calls, ∃ a ∈ c.arguments, a.value = p) := by
  refine (segmentWith_delegates .marked line.toList).map _ ?_
  rintro cut p ⟨c, hc, hp⟩
  obtain ⟨found, hfound, rfl⟩ := List.mem_map.1 hc
  exact ⟨found, hfound, hp⟩

/-- Reading a value, the arguments of a call and the calls of a line comes to an end, with one
result. No value in it is nested deeper than is allowed, and no value is found to be too deep with
no more opening brackets than levels. -/
theorem nesting_bounded (text : String) :
    (∀ result, Param.Reads 0 text.toList result ↔ result = Param.parse text) ∧
      (∀ result, Param.ReadsParts (Argument.PartOf text.toList) (Argument.readAll · text.toList)
        result ↔ result = Argument.parseAll text) ∧
      (∀ result, Param.ReadsParts (ArgumentOf .marked text.toList) (findWith · text) result ↔
        result = findAll text) ∧
      (∀ p, Param.parse text = .ok p → p.Shallow) ∧
      (∀ arguments, Argument.parseAll text = .ok arguments → ∀ a ∈ arguments, a.value.Shallow) ∧
      (∀ calls, findAll text = .ok calls → ∀ c ∈ calls, ∀ a ∈ c.arguments, a.value.Shallow) ∧
      (text.toList.countP isOpening ≤ Param.maxNesting → ∀ levels span,
        Param.parse text ≠ .error ⟨.tooDeep levels, span⟩) := by
  have harguments : Delegates (Argument.readAll · text.toList) (fun _ => False) _ _ :=
    Argument.readAll_delegates text.toList
  have hcalls := findWith_delegates text
  refine ⟨fun _ => Param.reads_iff, fun _ => Param.readsParts_iff harguments,
    fun _ => Param.readsParts_iff hcalls, fun _ => Param.shallow_of_read, ?_, ?_, ?_⟩
  · intro arguments h a ha
    obtain ⟨f, -, hpart⟩ := harguments.ok h ⟨a, ha, rfl⟩
    exact Param.shallow_of_read hpart
  · intro calls h c hc a ha
    obtain ⟨f, -, hpart⟩ := hcalls.ok h ⟨c, hc, a, ha, rfl⟩
    exact Param.shallow_of_read hpart
  · intro hfew levels span h
    have hbrackets := Param.le_countP_of_tooDeep h
    have htrim : (Chars.trim text.toList).countP isOpening ≤ text.toList.countP isOpening :=
      (Chars.trim_isInfix text.toList).sublist.countP_le
    omega

/-- A value with a list, an object, a call and a list again. -/
theorem nesting_bounded_mixed :
    (∃ p, Param.parse "[\x7bk: @f([x])\x7d]" = .ok p ∧ Param.Inside 4 p (.text "x") ∧ p.Shallow) ∧
      ∀ levels span, Param.parse "[\x7bk: @f([x])\x7d]" ≠ .error ⟨.tooDeep levels, span⟩ := by
  obtain ⟨-, -, -, hshallow, -, -, henough⟩ := nesting_bounded "[\x7bk: @f([x])\x7d]"
  have hparse : Param.parse "[\x7bk: @f([x])\x7d]" = .ok (.list [.object [("k", .call ⟨"f",
      [⟨none, .list [.text "x"]⟩], ⟨0, 7⟩, "@f([x])"⟩)]]) := by with_unfolding_all rfl
  refine ⟨⟨_, hparse, ?_, hshallow _ hparse⟩, henough (by decide)⟩
  exact .within (.item (List.mem_singleton_self _)) (.within (.entry (List.mem_singleton_self _))
    (.within (.argument (List.mem_singleton_self _)) (.within (.item (List.mem_singleton_self _))
      (.here _))))

end Call

end Worksheet
