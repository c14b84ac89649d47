import Worksheet.Proofs.Call.Arguments
import Worksheet.Proofs.Checked.Scanner

namespace Worksheet

/-- What the scan finds: the name of a call, its stretch, and that of its arguments. -/
structure FoundCall where
  name : List Char
  span : Span
  inner : Span
  deriving DecidableEq

/-- The stretches of a call that stands where it is found. -/
def RawCall.found (c : RawCall) : FoundCall :=
  ⟨c.name, c.span, ⟨c.innerStart, c.innerStart + Chars.size c.inner⟩⟩

/-- Whether a name is one that calls of the style can have. -/
def CallStyle.accepts (style : CallStyle) (name : List Char) : Bool :=
  match style with
  | .marked => true
  | .bare names => names.any (Text.eqIgnoringCase · (String.ofList name))

/-- The calls that are found after a part of a text. -/
def CallStyle.remaining (style : CallStyle) (done rest : List Char) :
    Except CallError (List FoundCall) :=
  (style.scan done.getLast? (Chars.size done) rest).map (·.calls.map (·.1.found))

namespace Checked

open Chars (size)

variable {style : CallStyle} {cs done rest : List Char}

/-- Whether the character at a place, if there is one, is of a sort. -/
def holdsAt (p : Char → Bool) (cs : List Char) (place : Nat) : Option Bool :=
  if place < cs.length then do return p (← cs[place]?) else some false

/-- Whether the character before a place, if there is one, is of a sort. -/
def holdsBefore (p : Char → Bool) (cs : List Char) (place : Nat) : Option Bool :=
  if 0 < place then do return p (← cs[← sub place 1]?) else some false

/-- The place behind the identifier that goes on at a place. -/
def identEnd (cs : List Char) (place : Nat) : Option Nat :=
  if place < cs.length then do
    if Text.isIdentChar (← cs[place]?) then identEnd cs (place + 1) else return place
  else some place
termination_by cs.length - place

/-- The place of the parenthesis that closes what is open, reading on from a place. -/
def closeFrom (cs : List Char) (s : Scanner) (place : Nat) : Option (Option Nat) :=
  if place < cs.length then do
    let c ← cs[place]?
    let (role, next) := s.step c
    if role == .closing && next.depth == 0 then return if c == ')' then some place else none
    else closeFrom cs next (place + 1)
  else some none
termination_by cs.length - place

/-- What a look at a place comes to. -/
inductive Look where
  /-- No call begins before the given place. -/
  | skip (next : Nat)
  | unclosed (e : CallError)
  /-- A call, and the place behind it. -/
  | call (c : FoundCall) (next : Nat)

/-- Looks for the end of the call that begins at a place, has the given name and opens its
parenthesis at another place. -/
def lookArguments (cs name : List Char) (place opened : Nat) : Option Look := do
  match ← closeFrom cs {} opened with
  | none =>
    return .unclosed ⟨.unclosed (String.ofList name), ⟨← offset cs place, ← offset cs cs.length⟩⟩
  | some closed =>
    let span : Span := ⟨← offset cs place, ← offset cs (closed + 1)⟩
    let inner : Span := ⟨← offset cs (opened + 1), ← offset cs closed⟩
    return .call ⟨name, span, inner⟩ (closed + 1)

/-- Looks at a place for a call whose name would begin at another one. -/
def lookName (style : CallStyle) (cs : List Char) (place first : Nat) : Option Look := do
  if !(← holdsAt Text.isIdentStart cs first) then return .skip (place + 1)
  else
    let stop ← identEnd cs first
    let name ← range cs first stop
    if !(← holdsAt (· == '(') cs stop) || !style.accepts name then
      return .skip (max stop (place + 1))
    else lookArguments cs name place stop

/-- Looks at a place for a call that begins there. -/
def lookAt (style : CallStyle) (cs : List Char) (place : Nat) : Option Look := do
  let c ← cs[place]?
  match style with
  | .marked =>
    if c != '@' then return .skip (place + 1)
    else if ← holdsBefore Text.isIdentChar cs place then return .skip (place + 1)
    else lookName style cs place (place + 1)
  | .bare _ =>
    if !Text.isIdentStart c then return .skip (place + 1)
    else if ← holdsBefore (fun b => Text.isIdentChar b || b == '@') cs place then
      return .skip (place + 1)
    else lookName style cs place place

section Places

theorem getElem?_append_length {c : Char} (hcs : cs = done ++ c :: rest) :
    cs[done.length]? = some c := by
  simp [hcs]

theorem holdsAt_append (p : Char → Bool) (hcs : cs = done ++ rest) :
    holdsAt p cs done.length = some (rest.head?.any p) := by
  cases rest with
  | nil => simp [holdsAt, hcs]
  | cons c rest => simp [holdsAt, hcs]

theorem holdsBefore_append (p : Char → Bool) (hcs : cs = done ++ rest) :
    holdsBefore p cs done.length = some (done.getLast?.any p) := by
  rcases List.eq_nil_or_concat done with rfl | ⟨before, c, rfl⟩
  · rfl
  · rw [List.concat_eq_append, List.append_assoc] at hcs
    have hlength : (before.concat c).length = before.length + 1 := by simp
    have hsub : sub (before.length + 1) 1 = some before.length := sub_of_le (Nat.le_add_left 1 _)
    simp only [holdsBefore, hlength, Nat.zero_lt_succ, if_true, hsub, Option.bind_eq_bind,
      Option.bind_some, getElem?_append_length hcs]
    simp

theorem range_append {xs ys zs : List Char} {start stop : Nat} (hcs : cs = xs ++ ys ++ zs)
    (hstart : start = xs.length) (hstop : stop = start + ys.length) :
    range cs start stop = some ys := by
  rw [hstop, hstart, ← List.length_append]
  have hle : xs.length ≤ (xs ++ ys).length := by simp
  have hend : (xs ++ ys).length ≤ cs.length := by simp [hcs]
  rw [range_of_le hle hend, hcs, List.take_left, List.drop_left]

theorem identEnd_append (hcs : cs = done ++ rest) : identEnd cs done.length =
    some (done ++ rest.takeWhile Text.isIdentChar).length := by
  induction rest generalizing done with
  | nil => simp [identEnd, hcs]
  | cons c rest ih =>
    have hnext : cs = (done ++ [c]) ++ rest := by simp [hcs]
    have hlt : done.length < cs.length := by simp [hcs]
    have hrest := ih hnext
    rw [List.length_append, List.length_singleton] at hrest
    rw [identEnd, if_pos hlt, getElem?_append_length hcs, List.takeWhile_cons]
    cases hc : Text.isIdentChar c with
    | false => simp [hc]
    | true =>
      simp [hc, hrest]

theorem closeFrom_append (hcs : cs = done ++ rest) (s : Scanner) : closeFrom cs s done.length =
    some ((s.close? rest).map fun (inner, _) => (done ++ inner).length) := by
  induction rest generalizing done s with
  | nil => simp [closeFrom, hcs, Scanner.close?]
  | cons c rest ih =>
    have hnext : cs = (done ++ [c]) ++ rest := by simp [hcs]
    have hlt : done.length < cs.length := by simp [hcs]
    have hrest := ih hnext (s.step c).2
    rw [List.length_append, List.length_singleton] at hrest
    rw [closeFrom, if_pos hlt, getElem?_append_length hcs, Scanner.close?]
    dsimp only [Option.bind_eq_bind, Option.bind_some]
    split
    · split <;> simp
    · rw [hrest, Option.map_map]
      congr 2
      funext found
      simp

end Places

section Remaining

open CallStyle

theorem remaining_nil (style : CallStyle) (done : List Char) :
    style.remaining done [] = .ok [] := by
  rw [remaining, scan_nil]
  rfl

theorem remaining_cons_of_none {c : Char} (h : style.opening? done.getLast? (c :: rest) = none) :
    style.remaining done (c :: rest) = style.remaining (done ++ [c]) rest := by
  rw [remaining, remaining, scan_cons_of_none h, List.getLast?_concat, Chars.size_append,
    Chars.size_cons, Chars.size_nil, Nat.add_zero]
  cases style.scan (some c) (size done + c.utf8Size) rest <;> rfl

/-- No call begins within an identifier. -/
theorem opening?_eq_none_of_ident {c : Char} {prev : Option Char} (hc : Text.isIdentChar c = true)
    (hstyle : style = .marked ∨ prev.any Text.isIdentChar = true) :
    style.opening? prev (c :: rest) = none := by
  cases style with
  | marked =>
    have hne : c ≠ '@' := by
      rintro rfl
      cases hc
    simp [opening?, hne]
  | bare names =>
    obtain ⟨b, rfl, hb⟩ : ∃ b, prev = some b ∧ Text.isIdentChar b = true := by
      simpa [Option.any_eq_true] using hstyle
    simp [opening?, hb]

theorem remaining_append_of_ident {name : List Char}
    (hname : ∀ c ∈ name, Text.isIdentChar c = true)
    (hstyle : style = .marked ∨ done.getLast?.any Text.isIdentChar = true) :
    style.remaining done (name ++ rest) = style.remaining (done ++ name) rest := by
  induction name generalizing done with
  | nil => rw [List.append_nil, List.nil_append]
  | cons c name ih =>
    have hc := hname c (by simp)
    rw [List.cons_append, remaining_cons_of_none (opening?_eq_none_of_ident hc hstyle),
      ih (fun d hd => hname d (by simp [hd])) (Or.inr (by simpa using hc)), List.append_assoc]
    rfl

theorem remaining_of_close {text name tail inner after : List Char}
    (hopen : style.opening? done.getLast? text = some (name, tail))
    (hclose : Scanner.close? { depth := 1 } tail = some (inner, after)) :
    let c : RawCall := ⟨name, size done, style.head name, inner⟩
    style.remaining done text =
      (style.remaining (done ++ c.source) after).map (c.found :: ·) := by
  intro c
  have hlast : (done ++ c.source).getLast? = some ')' := by
    rw [RawCall.source, ← List.append_assoc, List.getLast?_concat]
  have hsize : size (done ++ c.source) = c.span.stop := Chars.size_append _ _
  rw [remaining, remaining, scan_of_opening hopen hclose, hlast, hsize]
  cases style.scan (some ')') c.span.stop after <;> rfl

theorem remaining_of_unclosed {text name tail : List Char}
    (hopen : style.opening? done.getLast? text = some (name, tail))
    (hclose : Scanner.close? { depth := 1 } tail = none) : style.remaining done text =
      .error ⟨.unclosed (String.ofList name), ⟨size done, size (done ++ text)⟩⟩ := by
  have hne : text ≠ [] := by
    rintro rfl
    cases style <;> simp [opening?, named?] at hopen
  obtain ⟨c, rest, rfl⟩ := List.exists_cons_of_ne_nil hne
  rw [remaining, scan, Chars.size_append]
  split
  · rename_i hnone
    rw [hopen] at hnone
    cases hnone
  · rename_i found more hfound
    rw [hopen] at hfound
    obtain ⟨rfl, rfl⟩ := Prod.mk.inj (Option.some.inj hfound)
    split
    · rfl
    · rename_i hsome
      rw [hclose] at hsome
      cases hsome

end Remaining

/-- What a look at a place tells about the rest of the text. -/
def Look.Fits (style : CallStyle) (done rest : List Char) : Look → Prop
  | .skip next => ∃ passed after, passed ≠ [] ∧ rest = passed ++ after ∧
      next = (done ++ passed).length ∧
      style.remaining done rest = style.remaining (done ++ passed) after
  | .unclosed e => style.remaining done rest = .error e
  | .call c next => ∃ source after, source ≠ [] ∧ rest = source ++ after ∧
      next = (done ++ source).length ∧
      style.remaining done rest = (style.remaining (done ++ source) after).map (c :: ·)

/-- Only the character that is looked at is passed over. -/
theorem Look.fits_skip_one {c : Char} (h : style.opening? done.getLast? (c :: rest) = none) :
    (Look.skip (done.length + 1)).Fits style done (c :: rest) :=
  ⟨[c], rest, List.cons_ne_nil c [], rfl, by simp, remaining_cons_of_none h⟩

section Looking

open CallStyle

theorem isIdentChar_of_isIdentStart {c : Char} (h : Text.isIdentStart c = true) :
    Text.isIdentChar c = true := by
  simp only [Text.isIdentStart, Text.isIdentChar, Char.isAlphanum, Bool.or_eq_true] at h ⊢
  tauto

/-- A name begins with a letter or an underscore and is followed by a parenthesis. -/
theorem named?_eq (more : List Char) : named? more =
    if more.head?.any Text.isIdentStart ∧ (more.dropWhile Text.isIdentChar).head? = some '(' then
      some (more.takeWhile Text.isIdentChar, (more.dropWhile Text.isIdentChar).tail)
    else none := by
  cases more with
  | nil => rfl
  | cons c more =>
    rw [named?, List.head?_cons, Option.any_some]
    cases hc : Text.isIdentStart c with
    | false =>
      rw [if_neg (by simp)]
      split
      · rename_i first name tail htake _
        have hfirst : first = c := by
          rw [List.takeWhile_cons] at htake
          split at htake
          · exact (List.cons.inj htake).1.symm
          · cases htake
        rw [hfirst, hc]
        rfl
      · rfl
    | true =>
      have hident := isIdentChar_of_isIdentStart hc
      rw [List.takeWhile_cons, List.dropWhile_cons, if_pos hident, if_pos hident]
      cases hdrop : more.dropWhile Text.isIdentChar with
      | nil => rfl
      | cons d tail =>
        by_cases hd : d = '('
        · subst hd
          simp [hc]
        · simp [hd]

/-- A call whose parenthesis is opened after its name. -/
theorem exists_lookArguments {written name tail : List Char}
    (hhead : style.head name = written ++ ['('])
    (hcs : cs = done ++ written ++ '(' :: tail)
    (hopen : style.opening? done.getLast? (written ++ '(' :: tail) = some (name, tail)) :
    ∃ look, lookArguments cs name done.length (done ++ written).length = some look ∧
      look.Fits style done (written ++ '(' :: tail) := by
  have hplace : offset cs done.length = some (size done) :=
    offset_append (by rw [hcs, List.append_assoc])
  have hread : Scanner.close? {} ('(' :: tail) =
      (Scanner.close? { depth := 1 } tail).map fun (inner, after) => ('(' :: inner, after) := rfl
  rw [lookArguments, closeFrom_append hcs, hread]
  cases hclose : Scanner.close? { depth := 1 } tail with
  | none =>
    refine ⟨.unclosed ⟨.unclosed (String.ofList name), ⟨size done, size cs⟩⟩, ?_, ?_⟩
    · simp only [Option.bind_eq_bind, Option.bind_some, Option.map_none, hplace, offset_length]
      rfl
    · rw [hcs, List.append_assoc]
      exact remaining_of_unclosed hopen hclose
  | some found =>
    obtain ⟨inner, after⟩ := found
    obtain rfl := Scanner.close?_append hclose
    -- The parenthesis that opens the arguments, their end, and the one that closes them.
    have hopened : cs = (done ++ (written ++ ['('])) ++ (inner ++ ')' :: after) := by simp [hcs]
    have hinner : cs = (done ++ (written ++ ['(']) ++ inner) ++ (')' :: after) := by simp [hcs]
    have hclosed : cs = (done ++ (written ++ ['('] ++ inner ++ [')'])) ++ after := by simp [hcs]
    have hfirst : (done ++ written).length + 1 = (done ++ (written ++ ['('])).length := by
      simp [Nat.add_assoc]
    have hclosing : (done ++ written ++ '(' :: inner).length =
        (done ++ (written ++ ['(']) ++ inner).length := by simp
    have hnext : (done ++ (written ++ ['(']) ++ inner).length + 1 =
        (done ++ (written ++ ['('] ++ inner ++ [')'])).length := by
      simp [Nat.add_assoc]
    let c : RawCall := ⟨name, size done, style.head name, inner⟩
    have hwritten : c.head = written ++ ['('] := hhead
    have hsource : c.source = written ++ ['('] ++ inner ++ [')'] := by
      rw [RawCall.source, hwritten]
    refine ⟨.call c.found (done ++ c.source).length, ?_, c.source, after, ?_, ?_, rfl, ?_⟩
    · simp only [Option.bind_eq_bind, Option.bind_some, Option.map_some, hplace, hclosing, hnext,
        hfirst, offset_append hopened, offset_append hinner, offset_append hclosed, hsource]
      rw [RawCall.found, RawCall.span, RawCall.innerStart, hsource, hwritten]
      simp only [Chars.size_append]
      rfl
    · simp [hsource]
    · simp [hsource]
    · exact remaining_of_close hopen hclose

/-- The identifier at the start of a text that begins like one. -/
theorem exists_ident {more : List Char} (h : more.head?.any Text.isIdentStart = true) :
    ∃ name after, more = name ++ after ∧ name ≠ [] ∧
      (∀ d ∈ name, Text.isIdentChar d = true) ∧ more.takeWhile Text.isIdentChar = name ∧
      named? more = if after.head? = some '(' then some (name, after.tail) else none := by
  refine ⟨more.takeWhile Text.isIdentChar, more.dropWhile Text.isIdentChar,
    List.takeWhile_append_dropWhile.symm, ?_, List.all_eq_true.1 List.all_takeWhile, rfl, ?_⟩
  · cases more with
    | nil => cases h
    | cons d more => simp [isIdentChar_of_isIdentStart (c := d) (by simpa using h)]
  · rw [named?_eq, h]
    simp only [true_and]

/-- A look at a name that is there: either its arguments are opened behind it, or it is passed. -/
theorem lookName_of_ident {mark name after : List Char} (hcs : cs = done ++ (mark ++ name) ++ after)
    (hstart : (name ++ after).head?.any Text.isIdentStart = true) (hne : name ≠ [])
    (hname : (name ++ after).takeWhile Text.isIdentChar = name) :
    lookName style cs done.length (done ++ mark).length =
      if after.head? = some '(' ∧ style.accepts name = true then
        lookArguments cs name done.length (done ++ (mark ++ name)).length
      else some (.skip (done ++ (mark ++ name)).length) := by
  have hplaces : done ++ mark ++ name = done ++ (mark ++ name) := List.append_assoc _ _ _
  have hbefore : cs = done ++ mark ++ (name ++ after) := by rw [hcs, ← hplaces, List.append_assoc]
  have hrange : range cs (done ++ mark).length (done ++ (mark ++ name)).length = some name := by
    rw [← hplaces]
    exact range_append (by rw [hcs, hplaces]) rfl List.length_append
  have hstop := identEnd_append hbefore
  rw [hname, hplaces] at hstop
  have hmax : max (done ++ (mark ++ name)).length (done.length + 1) =
      (done ++ (mark ++ name)).length := by
    have hpos := List.length_pos_iff.2 hne
    rw [List.length_append, List.length_append]
    omega
  rw [lookName, holdsAt_append _ hbefore, hstart]
  simp only [Option.bind_eq_bind, Option.bind_some, hstop, hrange, holdsAt_append _ hcs, hmax]
  cases after with
  | nil => simp
  | cons d after => by_cases hd : d = '(' <;> cases style.accepts name <;> simp [hd]

/-- A look at a place where a call may begin, with what its style writes before the name. -/
theorem exists_lookName {mark more : List Char} {c : Char} (hmark : mark ++ more = c :: rest)
    (hcs : cs = done ++ mark ++ more) (hhead : ∀ name, style.head name = mark ++ name ++ ['('])
    (hopen : style.opening? done.getLast? (c :: rest) =
      (named? more).filter fun found => style.accepts found.1)
    (hpass : ∀ name after, more = name ++ after → name ≠ [] →
      (∀ d ∈ name, Text.isIdentChar d = true) →
      style.opening? done.getLast? (c :: rest) = none →
        style.remaining done (c :: rest) = style.remaining (done ++ (mark ++ name)) after) :
    ∃ look, lookName style cs done.length (done ++ mark).length = some look ∧
      look.Fits style done (c :: rest) := by
  cases hstart : more.head?.any Text.isIdentStart with
  | false =>
    have hnone : style.opening? done.getLast? (c :: rest) = none := by
      rw [hopen, named?_eq, if_neg (by simp [hstart])]
      rfl
    refine ⟨.skip (done.length + 1), ?_, Look.fits_skip_one hnone⟩
    rw [lookName, holdsAt_append _ hcs, hstart]
    rfl
  | true =>
    obtain ⟨name, after, rfl, hne, hident, hname, hnamed⟩ := exists_ident hstart
    have hwhole : cs = done ++ (mark ++ name) ++ after := by simp [hcs]
    have hrest : mark ++ name ++ after = c :: rest := by rw [← hmark, List.append_assoc]
    rw [hnamed] at hopen
    rw [lookName_of_ident hwhole hstart hne hname]
    split
    · rename_i hcall
      obtain ⟨hparen, haccepts⟩ := hcall
      obtain ⟨tail, rfl⟩ := List.head?_eq_some_iff.1 hparen
      have hcall : style.opening? done.getLast? (c :: rest) = some (name, tail) := by
        simp [hopen, Option.filter, haccepts]
      rw [← hrest] at hcall ⊢
      exact exists_lookArguments (hhead name) hwhole hcall
    · rename_i hstays
      have hnone : style.opening? done.getLast? (c :: rest) = none := by
        rw [hopen]
        split
        · rename_i hparen
          have hrefused : style.accepts name = false :=
            Bool.eq_false_iff.2 fun haccepts => hstays ⟨hparen, haccepts⟩
          simp [Option.filter, hrefused]
        · rfl
      refine ⟨_, rfl, mark ++ name, after, by simp [hne], hrest.symm, rfl, ?_⟩
      exact hpass name after rfl hne hident hnone

/-- A marked call begins with an at sign that does not go on an identifier. -/
theorem opening?_marked (prev : Option Char) (c : Char) (rest : List Char) :
    marked.opening? prev (c :: rest) =
      if c = '@' ∧ prev.any Text.isIdentChar = false then
        (named? rest).filter fun found => marked.accepts found.1
      else none := by
  by_cases hc : c = '@'
  · subst hc
    rw [opening?]
    cases prev.any Text.isIdentChar <;> cases named? rest <;> rfl
  · simp [opening?, hc]

/-- A bare call begins with its name, which does not go on an identifier and is not marked. -/
theorem opening?_bare (names : List String) (prev : Option Char) (text : List Char) :
    (bare names).opening? prev text =
      if prev.any fun b => Text.isIdentChar b || b == '@' then none
      else (named? text).filter fun found => (bare names).accepts found.1 := by
  rw [opening?]
  cases named? text <;> rfl

theorem exists_lookAt_marked {c : Char} (hcs : cs = done ++ c :: rest) :
    ∃ look, lookAt marked cs done.length = some look ∧ look.Fits marked done (c :: rest) := by
  have hopening := opening?_marked done.getLast? c rest
  rw [lookAt, getElem?_append_length hcs]
  dsimp only [Option.bind_eq_bind, Option.bind_some]
  rw [holdsBefore_append _ hcs]
  by_cases hc : c = '@'
  · subst hc
    cases hprev : done.getLast?.any Text.isIdentChar with
    | true =>
      have hnone := hopening.trans (if_neg (by simp [hprev]))
      exact ⟨.skip (done.length + 1), rfl, Look.fits_skip_one hnone⟩
    | false =>
      have hopen := hopening.trans (if_pos ⟨rfl, hprev⟩)
      have hwhole : cs = done ++ ['@'] ++ rest := by simp [hcs]
      have hnext : (done ++ ['@']).length = done.length + 1 := by simp
      have hlook := exists_lookName rfl hwhole (fun name => rfl) hopen
        fun name after hmore _ hident hnone => by
          rw [remaining_cons_of_none hnone, hmore, remaining_append_of_ident hident (Or.inl rfl),
            List.append_assoc]
      rwa [hnext] at hlook
  · have hnone := hopening.trans (if_neg fun h => hc h.1)
    refine ⟨.skip (done.length + 1), ?_, Look.fits_skip_one hnone⟩
    simp [hc]

theorem exists_lookAt_bare {names : List String} {c : Char} (hcs : cs = done ++ c :: rest) :
    ∃ look, lookAt (bare names) cs done.length = some look ∧
      look.Fits (bare names) done (c :: rest) := by
  have hopening := opening?_bare names done.getLast? (c :: rest)
  rw [lookAt, getElem?_append_length hcs]
  dsimp only [Option.bind_eq_bind, Option.bind_some]
  rw [holdsBefore_append _ hcs]
  cases hstart : Text.isIdentStart c with
  | false =>
    have hnone : (bare names).opening? done.getLast? (c :: rest) = none := by
      rw [hopening, named?_eq, if_neg (by simp [hstart] : ¬ (_ ∧ _))]
      split <;> rfl
    exact ⟨.skip (done.length + 1), rfl, Look.fits_skip_one hnone⟩
  | true =>
    cases hprev : done.getLast?.any fun b => Text.isIdentChar b || b == '@' with
    | true =>
      have hnone := hopening.trans (if_pos hprev)
      exact ⟨.skip (done.length + 1), rfl, Look.fits_skip_one hnone⟩
    | false =>
      have hopen := hopening.trans (if_neg (by simp [hprev]))
      have hwhole : cs = done ++ [] ++ c :: rest := by simpa using hcs
      have hlook := exists_lookName rfl hwhole (fun name => rfl) hopen
        fun name after hmore hne hident hnone => by
          obtain ⟨d, tail, rfl⟩ := List.exists_cons_of_ne_nil hne
          obtain ⟨rfl, hrest⟩ := List.cons.inj (hmore.trans List.cons_append)
          have hlast : (done ++ [c]).getLast?.any Text.isIdentChar = true := by
            simpa using hident c (by simp)
          rw [remaining_cons_of_none hnone, hrest,
            remaining_append_of_ident (fun d hd => hident d (by simp [hd])) (Or.inr hlast),
            List.append_assoc]
          rfl
      rwa [List.append_nil] at hlook

/-- Every look at a place within a text comes to something that fits. -/
theorem exists_lookAt {c : Char} (hcs : cs = done ++ c :: rest) :
    ∃ look, lookAt style cs done.length = some look ∧ look.Fits style done (c :: rest) := by
  cases style with
  | marked => exact exists_lookAt_marked hcs
  | bare names => exact exists_lookAt_bare hcs

end Looking

/-- The scan goes on behind what it looks at. -/
theorem lt_of_lookAt {place next : Nat} (hplace : place < cs.length) {look : Look}
    (h : lookAt style cs place = some look) (hnext : look = .skip next ∨ ∃ c, look = .call c next) :
    place < next := by
  have hcs : cs = cs.take place ++ cs[place] :: cs.drop (place + 1) := by simp
  have hlength : (cs.take place).length = place := List.length_take_of_le (Nat.le_of_lt hplace)
  obtain ⟨found, hfound, hfits⟩ : ∃ found,
      lookAt style cs (cs.take place).length = some found ∧ found.Fits style (cs.take place) _ :=
    exists_lookAt hcs
  rw [hlength, h] at hfound
  obtain rfl := Option.some.inj hfound
  have hlonger : ∀ passed : List Char, passed ≠ [] → place < (cs.take place ++ passed).length := by
    intro passed hne
    have hpos := List.length_pos_iff.2 hne
    rw [List.length_append, hlength]
    omega
  rcases hnext with rfl | ⟨c, rfl⟩
  · obtain ⟨passed, after, hne, -, rfl, -⟩ := hfits
    exact hlonger passed hne
  · obtain ⟨source, after, hne, -, rfl, -⟩ := hfits
    exact hlonger source hne

/-- The calls from a place on. -/
def scanFrom (style : CallStyle) (cs : List Char) (place : Nat) :
    OptionT (Except CallError) (List FoundCall) :=
  if hplace : place < cs.length then
    match hlook : lookAt style cs place with
    | none => failure
    | some (.skip next) =>
      have := lt_of_lookAt hplace hlook (Or.inl rfl)
      scanFrom style cs next
    | some (.unclosed e) => OptionT.lift (.error e)
    | some (.call c next) =>
      have := lt_of_lookAt hplace hlook (Or.inr ⟨c, rfl⟩)
      (c :: ·) <$> scanFrom style cs next
  else pure []
termination_by cs.length - place

theorem scanFrom_safe (hcs : cs = done ++ rest) :
    Safe (scanFrom style cs done.length) (style.remaining done rest) := by
  induction hn : rest.length using Nat.strongRecOn generalizing done rest with
  | _ n ih =>
    cases rest with
    | nil =>
      have hend : ¬ done.length < cs.length := by simp [hcs]
      rw [scanFrom, dif_neg hend, remaining_nil]
      exact safe_pure []
    | cons c rest =>
      have hplace : done.length < cs.length := by simp [hcs]
      obtain ⟨look, hlook, hfits⟩ : ∃ look, lookAt style cs done.length = some look ∧
          look.Fits style done (c :: rest) := exists_lookAt hcs
      have hshorter : ∀ passed after : List Char, passed ≠ [] → c :: rest = passed ++ after →
          Safe (scanFrom style cs (done ++ passed).length)
            (style.remaining (done ++ passed) after) := by
        intro passed after hne hsplit
        have hpos := List.length_pos_iff.2 hne
        have hlength := congrArg List.length hsplit
        rw [List.length_append] at hlength
        exact ih after.length (by omega) (by rw [hcs, hsplit, List.append_assoc]) rfl
      rw [scanFrom, dif_pos hplace]
      split <;> rename_i hfound <;> rw [hlook] at hfound
      · cases hfound
      · obtain rfl := Option.some.inj hfound
        obtain ⟨passed, after, hne, hsplit, rfl, hremaining⟩ := hfits
        rw [hremaining]
        exact hshorter passed after hne hsplit
      · obtain rfl := Option.some.inj hfound
        rw [show style.remaining done (c :: rest) = .error _ from hfits]
        exact safe_lift _
      · obtain rfl := Option.some.inj hfound
        obtain ⟨source, after, hne, hsplit, rfl, hremaining⟩ := hfits
        rw [hremaining]
        exact (hshorter source after hne hsplit).map _

/-- The scan of a whole text. -/
theorem scan_safe (style : CallStyle) (cs : List Char) : Safe (scanFrom style cs 0)
    ((style.scan none 0 cs).map (·.calls.map (·.1.found))) :=
  scanFrom_safe (List.nil_append cs).symm

end Checked

end Worksheet
