import Worksheet.Proofs.Call.Cut
import Worksheet.Proofs.Checked.Placed
import Worksheet.Proofs.Keyed

namespace Worksheet

open Chars (size)

/-- A part of a text that is read as a value. -/
structure Fragment where
  /-- The name of an argument or the key of an entry, with the sign behind it. -/
  label : List Char
  /-- The part with the white space around it. -/
  text : List Char
  /-- The offset of the label, from which the places of faults are counted. -/
  place : Nat

namespace Fragment

def shift (f : Fragment) (n : Nat) : Fragment :=
  ⟨f.label, f.text, f.place + n⟩

/-- How many bytes stand between the beginning of the label and that of the value. -/
def skipped (f : Fragment) : Nat :=
  size f.label + (size f.text - size (Chars.trimStart f.text))

/-- The fragment stands in a text with its label, behind what the text begins with. -/
structure StandsBehind (before cs : List Char) (f : Fragment) : Prop where
  split : ∃ between after, cs = before ++ between ++ (f.label ++ f.text) ++ after ∧
    f.place = size before + size between
  tight : Chars.Tight (f.label ++ f.text)

variable {f : Fragment} {before cs : List Char}

theorem StandsBehind.shift (h : f.StandsBehind [] cs) (before after : List Char) :
    (f.shift (size before)).StandsBehind before (before ++ cs ++ after) := by
  obtain ⟨⟨between, rest, rfl, hplace⟩, htight⟩ := h
  refine ⟨⟨between, rest ++ after, by simp [Fragment.shift], ?_⟩, htight⟩
  simp only [Chars.size_nil, Fragment.shift] at hplace ⊢
  omega

end Fragment

theorem CallError.shift_shift (e : CallError) (m n : Nat) :
    (e.shift m).shift n = e.shift (m + n) := by
  simp [shift, Span.shift, Nat.add_assoc]

section Pieces

namespace Fragment.StandsBehind

variable {f : Fragment} {before cs : List Char} (h : f.StandsBehind before cs)

include h

/-- The value begins as far behind the place of the fragment as is skipped. -/
theorem exists_value : ∃ between after, cs = before ++ between ++ Chars.trim f.text ++ after ∧
    f.place + f.skipped = size before + size between := by
  obtain ⟨between, after, rfl, hplace⟩ := h.split
  obtain ⟨lead, trail, -, -, htrim, hlead⟩ := Chars.exists_trim f.text
  refine ⟨between ++ f.label ++ lead, trail ++ after, ?_, ?_⟩
  · conv_lhs => rw [htrim]
    simp
  · simp only [skipped, Chars.size_append]
    omega

/-- Only behind a label something is skipped. -/
theorem skipped_eq_zero_iff : f.skipped = 0 ↔ f.label = [] := by
  constructor
  · intro hzero
    have hlabel : size f.label = 0 := Nat.eq_zero_of_add_eq_zero_right hzero
    cases hcs : f.label with
    | nil => rfl
    | cons c cs =>
      have hpos := Char.utf8Size_pos c
      rw [hcs, Chars.size_cons] at hlabel
      omega
  · intro hlabel
    have htight := h.tight
    rw [hlabel, List.nil_append] at htight
    rw [skipped, hlabel, Chars.trimStart_eq_self htight.head, Chars.size_nil]
    omega

end Fragment.StandsBehind

namespace Piece

/-- The value at the end of a piece, with what stands before it in the piece as its label. -/
def fragment (piece : Piece) (value : List Char) : Fragment :=
  ⟨piece.text.take (piece.text.length - value.length), value, piece.span.start⟩

theorem fragment_standsBehind {cs value : List Char} {piece : Piece}
    (h : piece ∈ splitTopLevel ',' cs) (hvalue : value <:+ piece.text) :
    (piece.fragment value).StandsBehind [] cs := by
  obtain ⟨before, after, htext, hspan⟩ := exists_of_mem_splitTopLevel h
  have hwhole : (piece.fragment value).label ++ (piece.fragment value).text = piece.text :=
    List.suffix_iff_eq_append.1 hvalue
  refine ⟨⟨before, after, ?_, ?_⟩, ?_⟩
  · rw [hwhole]
    exact htext
  · rw [fragment, hspan]
    simp
  · rw [hwhole]
    exact tight_of_mem_splitTopLevel h

end Piece

end Pieces

namespace Argument

/-- The text behind the name of an argument and its equals sign. -/
def namedText? (cs : List Char) : Option (List Char) :=
  if (cs.takeWhile Text.isIdentChar).head?.any Text.isIdentStart then
    match Chars.trimStart (cs.dropWhile Text.isIdentChar) with
    | '=' :: '=' :: _ => none
    | '=' :: value => some value
    | _ => none
  else none

/-- The text of an argument without its name. -/
def valueText (cs : List Char) : List Char :=
  (namedText? cs).getD cs

theorem exists_read_eq (cs : List Char) : ∃ name, ∀ param : List Char → Except CallError Param,
    read param cs = (param (valueText cs)).map fun value => ⟨name, value⟩ := by
  rw [valueText]
  cases hnamed : namedText? cs with
  | none =>
    refine ⟨none, fun param => ?_⟩
    unfold read
    extract_lets name value?
    have hvalue : value? = none := hnamed
    rw [hvalue]
    rfl
  | some value =>
    refine ⟨some (Text.asciiLower (String.ofList (cs.takeWhile Text.isIdentChar))), fun param => ?_⟩
    unfold read
    extract_lets name value?
    have hvalue : value? = some value := hnamed
    rw [hvalue]
    rfl

theorem valueText_isSuffix (cs : List Char) : valueText cs <:+ cs := by
  rw [valueText, namedText?]
  split
  · split
    · exact List.suffix_rfl
    · rename_i value _ hvalue
      have hbehind : value <:+ Chars.trimStart (cs.dropWhile Text.isIdentChar) := by
        rw [hvalue]
        exact List.suffix_cons '=' value
      exact hbehind.trans ((List.dropWhile_suffix _).trans (List.dropWhile_suffix _))
    · exact List.suffix_rfl
  · exact List.suffix_rfl

/-- The values of the arguments in the text between the parentheses of a call. -/
inductive PartOf (cs : List Char) : Fragment → Prop
  | intro {piece : Piece} (filled : cs.all Chars.isBlank = false)
    (mem : piece ∈ splitTopLevel ',' cs) : PartOf cs (piece.fragment (valueText piece.text))

theorem PartOf.standsBehind {cs : List Char} {f : Fragment} (h : PartOf cs f) :
    f.StandsBehind [] cs := by
  obtain ⟨-, hpiece⟩ := h
  exact Piece.fragment_standsBehind hpiece (valueText_isSuffix _)

end Argument

/-- The values of the arguments of the calls that the scan finds in a text. -/
inductive ArgumentOf (style : CallStyle) (cs : List Char) : Fragment → Prop
  | intro {s : Segmented RawCall} {call : RawCall × List Char} {f : Fragment}
    (scan : style.scan none 0 cs = .ok s) (mem : call ∈ s.calls)
    (part : Argument.PartOf call.1.inner f) : ArgumentOf style cs (f.shift call.1.innerStart)

namespace Param

/-- The parts of a text without white space around it that are read as values. -/
inductive PartOf (cs : List Char) : Fragment → Prop
  | argument {f : Fragment} (marked : cs.head? = some '@') (part : ArgumentOf .marked cs f) :
    PartOf cs f
  | item {inner : List Char} {piece : Piece} (brackets : enclosed? '[' ']' cs = some inner)
    (filled : inner.all Chars.isBlank = false) (mem : piece ∈ splitTopLevel ',' inner) :
    PartOf cs ((piece.fragment piece.text).shift 1)
  | entry {inner before rest : List Char} {piece : Piece}
    (braces : enclosed? '\x7b' '\x7d' cs = some inner)
    (mem : piece ∈ (splitTopLevel ',' inner).filter (!·.text.isEmpty))
    (mark : findTopLevel? [':', '='] piece.text = some (before, rest)) :
    PartOf cs ((piece.fragment rest.tail).shift 1)

/-- The faults that reading a text without white space around it finds outside its parts. -/
inductive OwnFault (cs : List Char) : CallError → Prop
  | unclosed {e : CallError} (marked : cs.head? = some '@')
    (scan : CallStyle.marked.scan none 0 cs = .error e) : OwnFault cs e
  | entry {inner : List Char} {piece : Piece}
    (braces : enclosed? '\x7b' '\x7d' cs = some inner)
    (mem : piece ∈ (splitTopLevel ',' inner).filter (!·.text.isEmpty))
    (mark : findTopLevel? [':', '='] piece.text = none) :
    OwnFault cs ⟨.entryWithoutKey (String.ofList piece.text), piece.span.shift 1⟩

/-- The values that stand right within a value. -/
inductive Child : Param → Param → Prop
  | item {items : List Param} {p : Param} (mem : p ∈ items) : Child (.list items) p
  | entry {entries : Keyed Param} {entry : String × Param} (mem : entry ∈ entries) :
    Child (.object entries) entry.2
  | argument {c : Call} {a : Argument Param} (mem : a ∈ c.arguments) : Child (.call c) a.value

/-- Reads one level of a value, and what is within it in a given way. -/
def readLevel (param : List Char → Except CallError Param) (cs : List Char) :
    Except CallError Param :=
  let raw := Chars.trim cs
  match Quoted.decode? raw with
  | some s => .ok (.text (String.ofList s))
  | none =>
    if raw.head? == some '@' then
      (segmentWith param .marked raw).map fun
        | ⟨[], [(c, [])]⟩ => .call c
        | _ => .text (String.ofList raw)
    else match enclosed? '[' ']' raw with
      | some inner => (readItems param inner).map .list
      | none =>
        match enclosed? '\x7b' '\x7d' raw with
        | some inner => (readEntries param inner).map .object
        | none => .ok (ofBare raw)

theorem readWithin_succ (n : Nat) (cs : List Char) :
    readWithin (n + 1) cs = readLevel (readWithin n) cs := rfl

end Param

section Delegating

variable {α β γ : Type}

/-- A reader that hands parts of a text on to be read as values. Its fault is one of its own or that
of a part, put in its place. The values within its result are read from parts, and it reads alike
where its parts are read alike. -/
structure Delegates (read : (List Char → Except CallError Param) → Except CallError β)
    (own : CallError → Prop) (part : Fragment → Prop) (within : β → Param → Prop) : Prop where
  error : ∀ {param e}, read param = .error e →
    own e ∨ ∃ f, part f ∧ ∃ inner, param f.text = .error inner ∧ e = inner.shift f.place
  ok : ∀ {param b p}, read param = .ok b → within b p → ∃ f, part f ∧ param f.text = .ok p
  congr : ∀ {param other}, (∀ f, part f → param f.text = other f.text) → read param = read other

namespace Delegates

theorem pure {own : CallError → Prop} {part : Fragment → Prop} {within : β → Param → Prop} {b : β}
    (h : ∀ p, ¬ within b p) : Delegates (fun _ => .ok b) own part within where
  error hread := nomatch hread
  ok hread hp := by
    cases hread
    exact absurd hp (h _)
  congr _ := rfl

theorem fail {own : CallError → Prop} {part : Fragment → Prop} {within : β → Param → Prop}
    {e : CallError} (h : own e) : Delegates (fun _ => .error e) own part within where
  error hread := by
    cases hread
    exact Or.inl h
  ok hread := nomatch hread
  congr _ := rfl

variable {read : (List Char → Except CallError Param) → Except CallError β}
  {own : CallError → Prop} {part : Fragment → Prop} {within : β → Param → Prop}

theorem ofPart {f : Fragment} (h : part f) : Delegates
    (fun param => shiftError f.place (param f.text)) own part (fun value p => value = p) where
  error hread := by
    obtain ⟨inner, hinner, rfl⟩ := mapError_eq_error_iff.1 hread
    exact Or.inr ⟨f, h, inner, hinner, rfl⟩
  ok hread hp := by
    obtain rfl := hp
    exact ⟨f, h, mapError_eq_ok_iff.1 hread⟩
  congr hparam := by
    rw [hparam f h]

theorem map (h : Delegates read own part within) (g : β → γ) {within' : γ → Param → Prop}
    (hg : ∀ b p, within' (g b) p → within b p) :
    Delegates (fun param => (read param).map g) own part within' where
  error hread := h.error (map_eq_error_iff.1 hread)
  ok hread hp := by
    obtain ⟨b, hb, rfl⟩ := map_eq_ok_iff.1 hread
    exact h.ok hb (hg b _ hp)
  congr hparam := by
    rw [h.congr hparam]

theorem shift (h : Delegates read (fun _ => False) part within) (n : Nat) {part' : Fragment → Prop}
    (hpart : ∀ f, part f → part' (f.shift n)) :
    Delegates (fun param => shiftError n (read param)) own part' within where
  error hread := by
    obtain ⟨e, he, rfl⟩ := mapError_eq_error_iff.1 hread
    obtain ⟨f, hf, inner, hinner, rfl⟩ := (h.error he).resolve_left id
    exact Or.inr ⟨f.shift n, hpart f hf, inner, hinner, inner.shift_shift f.place n⟩
  ok hread hp := by
    obtain ⟨f, hf, hinner⟩ := h.ok (mapError_eq_ok_iff.1 hread) hp
    exact ⟨f.shift n, hpart f hf, hinner⟩
  congr hparam := by
    rw [h.congr fun f hf => hparam (f.shift n) (hpart f hf)]

theorem mono (h : Delegates read own part within) {own' : CallError → Prop}
    {part' : Fragment → Prop} (hown : ∀ e, own e → own' e) (hpart : ∀ f, part f → part' f) :
    Delegates read own' part' within where
  error hread := (h.error hread).imp (hown _) fun ⟨f, hf, hinner⟩ => ⟨f, hpart f hf, hinner⟩
  ok hread hp := by
    obtain ⟨f, hf, hinner⟩ := h.ok hread hp
    exact ⟨f, hpart f hf, hinner⟩
  congr hparam := h.congr fun f hf => hparam f (hpart f hf)

theorem mapM {xs : List α} {read : α → (List Char → Except CallError Param) → Except CallError β}
    (h : ∀ x ∈ xs, Delegates (read x) own part within) :
    Delegates (fun param => xs.mapM fun x => read x param) own part
      (fun ys p => ∃ y ∈ ys, within y p) where
  error hread := by
    obtain ⟨x, hx, he⟩ := exists_of_mapM_eq_error hread
    exact (h x hx).error he
  ok hread hp := by
    obtain ⟨y, hy, hp⟩ := hp
    obtain ⟨x, hx, hxy⟩ := forall₂_exists_left (mapM_eq_ok_iff.1 hread) hy
    exact (h x hx).ok hxy hp
  congr hparam := mapM_congr fun x hx => (h x hx).congr hparam

end Delegates

/-- Arguments are read from the texts behind their names. -/
theorem Argument.readAll_delegates {own : CallError → Prop} (cs : List Char) :
    Delegates (readAll · cs) own (PartOf cs) (fun arguments p => ∃ a ∈ arguments, a.value = p) := by
  by_cases hblank : cs.all Chars.isBlank = true
  · have hread : (fun param => readAll param cs) = fun _ => .ok [] := by
      funext param
      rw [readAll, if_pos hblank]
    rw [hread]
    refine .pure ?_
    rintro p ⟨a, ha, -⟩
    cases ha
  · have hread : (fun param => readAll param cs) = fun param =>
        (splitTopLevel ',' cs).mapM fun piece =>
          shiftError piece.span.start (read param piece.text) := by
      funext param
      rw [readAll, if_neg hblank]
    rw [hread]
    apply Delegates.mapM
    intro piece hpiece
    obtain ⟨name, hname⟩ := exists_read_eq piece.text
    have hshift : (fun param => shiftError piece.span.start (read param piece.text)) = fun param =>
        (shiftError (piece.fragment (valueText piece.text)).place
          (param (piece.fragment (valueText piece.text)).text)).map fun value =>
            (⟨name, value⟩ : Argument Param) := by
      funext param
      rw [hname, Piece.fragment]
      cases param (valueText piece.text) <;> rfl
    rw [hshift]
    exact (Delegates.ofPart (.intro (Bool.eq_false_iff.2 hblank) hpiece)).map _ fun _ _ hp => hp

/-- Calls are read from their arguments. Only a call that is not closed is a fault in itself. -/
theorem segmentWith_delegates (style : CallStyle) (cs : List Char) :
    Delegates (segmentWith · style cs) (fun e => style.scan none 0 cs = .error e)
      (ArgumentOf style cs) (fun cut p => ∃ c ∈ cut.calls, ∃ a ∈ c.1.arguments, a.value = p) := by
  cases hs : style.scan none 0 cs with
  | error e =>
    have hread : (fun param => segmentWith param style cs) = fun _ => .error e := by
      funext param
      rw [segmentWith, hs]
      rfl
    rw [hread]
    exact .fail rfl
  | ok s =>
    have hread : (fun param => segmentWith param style cs) = fun param =>
        (s.calls.mapM fun (call : RawCall × List Char) =>
          (call.1.read param).map (·, call.2)).map fun calls => ⟨s.before, calls⟩ := by
      funext param
      rw [segmentWith, hs]
      rfl
    have hcall : ∀ (own : CallError → Prop), ∀ call ∈ s.calls,
        Delegates (fun param => (call.1.read param).map (·, call.2)) own (ArgumentOf style cs)
          (fun c p => ∃ a ∈ c.1.arguments, a.value = p) := by
      intro own call hmem
      have harguments : Delegates (fun param =>
          shiftError call.1.innerStart (Argument.readAll param call.1.inner)) own
          (ArgumentOf style cs) (fun arguments p => ∃ a ∈ arguments, a.value = p) := by
        apply (Argument.readAll_delegates call.1.inner).shift
        intro f hpart
        exact .intro hs hmem hpart
      exact (harguments.map _ fun _ _ hp => hp).map _ fun _ _ hp => hp
    rw [hread]
    exact (Delegates.mapM (hcall _)).map _ fun _ _ hp => hp

namespace Param

/-- Items are read from the pieces of a list. -/
theorem readItems_delegates {own : CallError → Prop} (inner : List Char) :
    Delegates (readItems · inner) own
      (fun f => inner.all Chars.isBlank = false ∧
        ∃ piece ∈ splitTopLevel ',' inner, f = (piece.fragment piece.text).shift 1)
      (fun items p => p ∈ items) := by
  by_cases hblank : inner.all Chars.isBlank = true
  · have hread : (fun param => readItems param inner) = fun _ => .ok [] := by
      funext param
      rw [readItems, if_pos hblank]
    rw [hread]
    exact .pure fun p hp => by cases hp
  · have hread : (fun param => readItems param inner) = fun param =>
        ((splitTopLevel ',' inner).mapM fun piece =>
          shiftError ((piece.fragment piece.text).shift 1).place
            (param ((piece.fragment piece.text).shift 1).text)).map id := by
      funext param
      rw [readItems, if_neg hblank]
      exact (id_map _).symm
    rw [hread]
    refine (Delegates.mapM fun piece hpiece => ?_).map id fun items p hp => ⟨p, hp, rfl⟩
    exact .ofPart ⟨Bool.eq_false_iff.2 hblank, piece, hpiece, rfl⟩

/-- An entry is read from the text behind its key. -/
theorem readEntry_delegates {pieces : List Piece} {piece : Piece} (hpiece : piece ∈ pieces) :
    Delegates (readEntry · piece)
      (fun e => ∃ piece ∈ pieces, findTopLevel? [':', '='] piece.text = none ∧
        e = ⟨.entryWithoutKey (String.ofList piece.text), piece.span.shift 1⟩)
      (fun f => ∃ piece ∈ pieces, ∃ before rest,
        findTopLevel? [':', '='] piece.text = some (before, rest) ∧
          f = (piece.fragment rest.tail).shift 1)
      (fun entry p => entry.2 = p) := by
  cases hmark : findTopLevel? [':', '='] piece.text with
  | none =>
    have hread : (fun param => readEntry param piece) = fun _ =>
        .error ⟨.entryWithoutKey (String.ofList piece.text), piece.span.shift 1⟩ := by
      funext param
      rw [readEntry, hmark]
    rw [hread]
    exact .fail ⟨piece, hpiece, hmark, rfl⟩
  | some found =>
    obtain ⟨before, rest⟩ := found
    let key := (Quoted.decode? before).getD (Chars.trim before)
    have hread : (fun param => readEntry param piece) = fun param =>
        (shiftError ((piece.fragment rest.tail).shift 1).place
          (param ((piece.fragment rest.tail).shift 1).text)).map
            (Text.asciiLower (String.ofList key), ·) := by
      funext param
      rw [readEntry, hmark]
      rfl
    rw [hread]
    exact (Delegates.ofPart ⟨piece, hpiece, before, rest, hmark, rfl⟩).map _ fun _ _ hp => hp

/-- Entries are read from the texts behind their keys. Only an entry without a key is a fault in
itself. -/
theorem readEntries_delegates (inner : List Char) :
    Delegates (readEntries · inner)
      (fun e => ∃ piece ∈ (splitTopLevel ',' inner).filter (!·.text.isEmpty),
        findTopLevel? [':', '='] piece.text = none ∧
          e = ⟨.entryWithoutKey (String.ofList piece.text), piece.span.shift 1⟩)
      (fun f => ∃ piece ∈ (splitTopLevel ',' inner).filter (!·.text.isEmpty), ∃ before rest,
        findTopLevel? [':', '='] piece.text = some (before, rest) ∧
          f = (piece.fragment rest.tail).shift 1)
      (fun entries p => ∃ entry ∈ entries, entry.2 = p) := by
  have hentries : Delegates (fun param => ((splitTopLevel ',' inner).filter (!·.text.isEmpty)).mapM
      fun piece => readEntry param piece) _ _ _ :=
    Delegates.mapM fun _ hpiece => readEntry_delegates hpiece
  refine hentries.map Keyed.ofList ?_
  rintro entries p ⟨entry, hentry, rfl⟩
  exact ⟨entry, Keyed.mem_of_mem_ofList hentry, rfl⟩

theorem not_child_ofBare (cs : List Char) (p : Param) : ¬ Child (ofBare cs) p := by
  intro hp
  have hbare : (∃ b, ofBare cs = .bool b) ∨ (∃ n, ofBare cs = .number n) ∨
      ∃ s, ofBare cs = .text s := by
    dsimp only [ofBare]
    split
    · exact Or.inl ⟨true, rfl⟩
    · split
      · exact Or.inl ⟨false, rfl⟩
      · split
        · exact Or.inr (Or.inl ⟨_, rfl⟩)
        · exact Or.inr (Or.inr ⟨_, rfl⟩)
  rcases hbare with ⟨b, hb⟩ | ⟨n, hn⟩ | ⟨s, hs⟩
  · rw [hb] at hp
    cases hp
  · rw [hn] at hp
    cases hp
  · rw [hs] at hp
    cases hp

/-- A marked text is read from the arguments of the calls in it. -/
theorem marked_delegates {raw : List Char} (hmarked : raw.head? = some '@') :
    Delegates (fun param => (segmentWith param .marked raw).map fun
      | ⟨[], [(c, [])]⟩ => Param.call c
      | _ => .text (String.ofList raw)) (OwnFault raw) (PartOf raw) Child := by
  refine ((segmentWith_delegates .marked raw).mono ?_ ?_).map _ ?_
  · exact fun e he => .unclosed hmarked he
  · exact fun f hf => .argument hmarked hf
  · intro cut p hp
    split at hp
    · cases hp with
      | argument hmem => exact ⟨_, List.mem_singleton_self _, _, hmem, rfl⟩
    · cases hp

/-- A list is read from its items. -/
theorem list_delegates {raw inner : List Char} (hlist : enclosed? '[' ']' raw = some inner) :
    Delegates (fun param => (readItems param inner).map .list) (OwnFault raw) (PartOf raw)
      Child := by
  refine ((readItems_delegates inner).mono (fun _ h => h) ?_).map _ ?_
  · rintro f ⟨hfilled, piece, hpiece, rfl⟩
    exact .item hlist hfilled hpiece
  · rintro items p ⟨hmem⟩
    exact hmem

/-- An object is read from the values of its entries. -/
theorem object_delegates {raw inner : List Char}
    (hobject : enclosed? '\x7b' '\x7d' raw = some inner) :
    Delegates (fun param => (readEntries param inner).map .object) (OwnFault raw) (PartOf raw)
      Child := by
  refine ((readEntries_delegates inner).mono ?_ ?_).map _ ?_
  · rintro e ⟨piece, hpiece, hmark, rfl⟩
    exact .entry hobject hpiece hmark
  · rintro f ⟨piece, hpiece, before, rest, hmark, rfl⟩
    exact .entry hobject hpiece hmark
  · intro entries p hp
    cases hp with
    | entry hmem => exact ⟨_, hmem, rfl⟩

/-- A value is read from its parts. -/
theorem readLevel_delegates (cs : List Char) :
    Delegates (readLevel · cs) (OwnFault (Chars.trim cs)) (PartOf (Chars.trim cs)) Child := by
  generalize hraw : Chars.trim cs = raw
  cases hquoted : Quoted.decode? raw with
  | some text =>
    simp only [readLevel, hraw, hquoted]
    exact .pure fun p hp => by cases hp
  | none =>
    by_cases hmarked : raw.head? = some '@'
    · simp only [readLevel, hraw, hquoted, hmarked, BEq.rfl, if_true]
      exact marked_delegates hmarked
    · have hat : (raw.head? == some '@') = false := beq_eq_false_iff_ne.2 hmarked
      simp only [readLevel, hraw, hquoted, hat, Bool.false_eq_true, if_false]
      cases hlist : enclosed? '[' ']' raw with
      | some inner => exact list_delegates hlist
      | none =>
        cases hobject : enclosed? '\x7b' '\x7d' raw with
        | some inner => exact object_delegates hobject
        | none => exact .pure fun p => not_child_ofBare raw p

end Param

end Delegating

section Standing

variable {style : CallStyle} {cs : List Char} {f : Fragment}

/-- An argument stands behind the parenthesis of its call. -/
theorem ArgumentOf.exists_standsBehind (h : ArgumentOf style cs f) :
    ∃ before, (∃ c ∈ before, isOpening c = true) ∧ f.StandsBehind before cs := by
  obtain ⟨hs, hcall, hpart⟩ := h
  rename_i s call f
  obtain ⟨htext, hlaid⟩ := CallStyle.laid_of_scan hs
  have hhead := CallStyle.head_of_scan hs call hcall
  rw [Nat.zero_add] at hlaid
  obtain ⟨left, right, hsplit, hspan⟩ := hlaid.exists_split (List.mem_map_of_mem hcall)
  have hstart : call.1.innerStart = size (left ++ call.1.head) := by
    have hleft : call.1.start = size left := congrArg Span.start hspan
    rw [RawCall.innerStart, hleft, Chars.size_append]
  have hcs : cs = left ++ call.1.head ++ call.1.inner ++ (')' :: right) := by
    rw [htext, hsplit, RawCall.placed, RawCall.source]
    simp
  refine ⟨left ++ call.1.head, ⟨'(', ?_, by decide⟩, ?_⟩
  · rw [hhead]
    cases style <;> simp [CallStyle.head]
  · rw [hcs, hstart]
    exact hpart.standsBehind.shift _ _

namespace Param

theorem append_of_enclosed? {left right : Char} {inner : List Char}
    (h : enclosed? left right cs = some inner) : cs = [left] ++ inner ++ [right] := by
  cases cs with
  | nil => cases h
  | cons c rest =>
    rw [enclosed?] at h
    split at h
    · rename_i hc
      rw [eq_of_beq hc, ← Chars.append_of_stripLast? h]
      rfl
    · cases h

/-- A part of a value stands behind an opening bracket. -/
theorem PartOf.exists_standsBehind (h : PartOf cs f) :
    ∃ before, (∃ c ∈ before, isOpening c = true) ∧ f.StandsBehind before cs := by
  cases h with
  | argument _ hpart => exact hpart.exists_standsBehind
  | @item inner piece hbrackets _ hpiece =>
    refine ⟨['['], ⟨'[', by simp, by decide⟩, ?_⟩
    rw [append_of_enclosed? hbrackets]
    exact (Piece.fragment_standsBehind hpiece List.suffix_rfl).shift ['['] _
  | @entry inner before rest piece hbraces hpiece hmark =>
    have hvalue : rest.tail <:+ piece.text := by
      rw [← Scanner.find?_append hmark]
      exact (List.tail_suffix rest).trans (List.suffix_append before rest)
    refine ⟨['\x7b'], ⟨'\x7b', by simp, by decide⟩, ?_⟩
    rw [append_of_enclosed? hbraces]
    exact (Piece.fragment_standsBehind (List.mem_of_mem_filter hpiece) hvalue).shift ['\x7b'] _

end Param

end Standing

end Worksheet
