import Worksheet.Call.Quoted
import Worksheet.Call.Scanner
import Worksheet.Proofs.Checked.Access
import Worksheet.Proofs.Chars.Split

namespace Worksheet

/-- Byte offsets of the characters of a text that begins at an offset, and of its end. -/
def Chars.offsets (start : Nat) : List Char → List Nat
  | [] => [start]
  | c :: cs => start :: offsets (start + c.utf8Size) cs

theorem Chars.getElem?_offsets (start : Nat) (xs ys : List Char) :
    (offsets start (xs ++ ys))[xs.length]? = some (start + size xs) := by
  induction xs generalizing start with
  | nil => cases ys <;> rfl
  | cons c cs ih =>
    rw [List.cons_append, offsets, List.length_cons, List.getElem?_cons_succ, ih, size_cons,
      Nat.add_assoc]

namespace Checked

open Chars (size)

/-- The byte offset of the character at a place, and for the place behind the last one that of the
end of the text. -/
def offset (cs : List Char) (place : Nat) : Option Nat :=
  (Chars.offsets 0 cs)[place]?

theorem offset_append {cs xs ys : List Char} (hcs : cs = xs ++ ys) :
    offset cs xs.length = some (size xs) := by
  rw [offset, hcs, Chars.getElem?_offsets, Nat.zero_add]

theorem offset_length (cs : List Char) : offset cs cs.length = some (size cs) :=
  offset_append (List.append_nil cs).symm

/-- Trims the text between two offsets. -/
def trimmedPiece (cs : List Char) (start stop : Nat) : Option Piece := do
  let raw ← slice cs start stop
  let lead ← sub (size raw) (size (Chars.trimStart raw))
  let text := Chars.trim raw
  return ⟨text, ⟨start + lead, start + lead + size text⟩⟩

/-- The pieces of a text from the place at which the current one begins, having read up to a place
behind which the given text is left. -/
def splitFrom (cs : List Char) (sep : Char) (s : Scanner) (start place : Nat) :
    List Char → Option (List Piece)
  | [] => do
    return [← trimmedPiece cs (← offset cs start) (← offset cs cs.length)]
  | c :: rest => do
    let next := (s.step c).2
    if c == sep && s.atTop c then
      let piece ← trimmedPiece cs (← offset cs start) (← offset cs place)
      return piece :: (← splitFrom cs sep next (place + 1) (place + 1) rest)
    else splitFrom cs sep next start (place + 1) rest

def splitTopLevel (sep : Char) (cs : List Char) : Option (List Piece) :=
  splitFrom cs sep {} 0 0 cs

theorem size_trimStart_le (cs : List Char) : size (Chars.trimStart cs) ≤ size cs := by
  have hsplit : cs.takeWhile Chars.isBlank ++ Chars.trimStart cs = cs :=
    List.takeWhile_append_dropWhile
  have hsize := congrArg size hsplit
  rw [Chars.size_append] at hsize
  omega

theorem trimmedPiece_append {cs xs ys zs : List Char} {stop : Nat} (hcs : cs = xs ++ ys ++ zs)
    (hstop : stop = size xs + size ys) :
    trimmedPiece cs (size xs) stop = some (Piece.trimmed (size xs) ys) := by
  rw [trimmedPiece, slice_append hcs rfl hstop]
  simp only [Option.bind_eq_bind, Option.bind_some, sub_of_le (size_trimStart_le ys)]
  rfl

theorem modifyHead_nil_append (pieces : List (List Char)) :
    pieces.modifyHead ([] ++ ·) = pieces := by
  cases pieces <;> rfl

/-- A piece that has been read in part goes on with the first of the pieces of the rest. -/
theorem splitFrom_eq {cs before part rest : List Char} (hcs : cs = before ++ part ++ rest)
    (sep : Char) (s : Scanner) : splitFrom cs sep s before.length (before ++ part).length rest =
      some (Piece.located sep (size before) ((s.cut sep rest).modifyHead (part ++ ·))) := by
  have hstart : offset cs before.length = some (size before) :=
    offset_append (by rw [hcs, List.append_assoc])
  induction rest generalizing s before part with
  | nil =>
    have hpiece : trimmedPiece cs (size before) (size cs) = some (.trimmed (size before) part) :=
      trimmedPiece_append hcs (by simp [hcs])
    simp only [splitFrom, hstart, offset_length, hpiece, Option.bind_eq_bind, Option.bind_some]
    simp [Scanner.cut, Piece.located]
  | cons c rest ih =>
    rw [splitFrom, Scanner.cut]
    split
    · rename_i hsep
      obtain rfl : c = sep := eq_of_beq (Bool.and_eq_true_iff.1 hsep).1
      have hpiece : trimmedPiece cs (size before) (size (before ++ part)) =
          some (.trimmed (size before) part) := trimmedPiece_append hcs (Chars.size_append _ _)
      have hnext : cs = (before ++ part ++ [c]) ++ [] ++ rest := by simp [hcs]
      have hrest := ih hnext (s.step c).2 (offset_append (by rw [hnext, List.append_assoc]))
      rw [modifyHead_nil_append, List.append_nil, List.length_append, List.length_singleton,
        Chars.size_append, Chars.size_append] at hrest
      simp only [hstart, offset_append hcs, hpiece, Option.bind_eq_bind, Option.bind_some]
      rw [hrest, List.modifyHead_cons, Piece.located, List.append_nil]
      rfl
    · have hnext : cs = before ++ (part ++ [c]) ++ rest := by simp [hcs]
      have hrest := ih hnext (s.step c).2 hstart
      have hlength : (before ++ (part ++ [c])).length = (before ++ part).length + 1 := by
        simp [Nat.add_assoc]
      rw [hlength] at hrest
      rw [hrest]
      cases hcut : Scanner.cut sep (s.step c).2 rest with
      | nil => exact absurd hcut (Scanner.cut_ne_nil sep _ rest)
      | cons piece pieces => simp

theorem splitTopLevel_eq (sep : Char) (cs : List Char) :
    splitTopLevel sep cs = some (Worksheet.splitTopLevel sep cs) := by
  have hcs : cs = [] ++ [] ++ cs := rfl
  have hsplit := splitFrom_eq hcs sep {}
  rw [modifyHead_nil_append] at hsplit
  exact hsplit

/-- The byte offset of the first of the needles outside strings and brackets, in a text that begins
at an offset. -/
def findFrom (needles : List Char) (s : Scanner) (offset : Nat) : List Char → Option Nat
  | [] => none
  | c :: cs =>
    if needles.contains c && s.atTop c then some offset
    else findFrom needles (s.step c).2 (offset + c.utf8Size) cs

def findTopLevel (needles : List Char) (cs : List Char) : Option Nat :=
  findFrom needles {} 0 cs

theorem findFrom_eq (needles : List Char) (s : Scanner) (offset : Nat) (cs : List Char) :
    findFrom needles s offset cs = (s.find? needles cs).map fun (before, _) =>
      offset + size before := by
  induction cs generalizing s offset with
  | nil => rfl
  | cons c cs ih =>
    rw [findFrom, Scanner.find?]
    split
    · rfl
    · rw [ih, Option.map_map]
      congr 1
      funext found
      exact Nat.add_assoc _ _ _

/-- The texts before and after the first of the needles outside strings and brackets. -/
def cutTopLevel (needles cs : List Char) : Option (Option (List Char × List Char)) :=
  match findTopLevel needles cs with
  | none => some none
  | some place => do return some (← upTo cs place, ← onward cs (place + 1))

theorem mem_needles_of_find? {needles : List Char} {s : Scanner} {cs before rest : List Char}
    (h : s.find? needles cs = some (before, rest)) : ∃ c ∈ needles, rest = c :: rest.tail := by
  induction cs generalizing s before with
  | nil => cases h
  | cons c cs ih =>
    rw [Scanner.find?] at h
    split at h
    · rename_i hc
      obtain ⟨rfl, rfl⟩ := Prod.mk.inj (Option.some.inj h)
      exact ⟨c, List.contains_iff_mem.1 (Bool.and_eq_true_iff.1 hc).1, rfl⟩
    · obtain ⟨⟨b, r⟩, hb, he⟩ := Option.map_eq_some_iff.1 h
      obtain ⟨rfl, rfl⟩ := Prod.mk.inj he
      exact ih hb

theorem utf8Size_separator {c : Char} (h : c = ':' ∨ c = '=') : c.utf8Size = 1 := by
  rcases h with rfl | rfl <;> rfl

/-- Needles of one byte each leave a boundary behind them. -/
theorem cutTopLevel_eq {needles : List Char} (hneedles : ∀ c ∈ needles, c.utf8Size = 1)
    (cs : List Char) : cutTopLevel needles cs =
      some ((findTopLevel? needles cs).map fun (before, rest) => (before, rest.tail)) := by
  rw [cutTopLevel, findTopLevel, findFrom_eq, findTopLevel?]
  cases hfind : Scanner.find? needles {} cs with
  | none => rfl
  | some found =>
    obtain ⟨before, rest⟩ := found
    obtain ⟨c, hc, hrest⟩ := mem_needles_of_find? hfind
    have hcs : cs = before ++ rest := (Scanner.find?_append hfind).symm
    have hafter : cs = (before ++ [c]) ++ rest.tail := by rw [hcs, hrest]; simp
    have hsize : size before + 1 = size (before ++ [c]) := by simp [hneedles c hc]
    simp only [Option.map_some, Nat.zero_add, upTo_append hcs rfl, onward_append hafter hsize]
    rfl

/-- The text without its first and its last byte. -/
def between (cs : List Char) : Option (List Char) := do
  slice cs 1 (← sub (size cs) 1)

theorem between_append {first last : Char} (hfirst : first.utf8Size = 1) (hlast : last.utf8Size = 1)
    (inner : List Char) : between (first :: (inner ++ [last])) = some inner := by
  have hsize : size (first :: (inner ++ [last])) = 1 + size inner + 1 := by
    simp [hfirst, hlast, Nat.add_assoc]
  have hwhole : first :: (inner ++ [last]) = [first] ++ inner ++ [last] := rfl
  rw [between, hsize, sub_of_le (Nat.le_add_left _ _)]
  exact slice_append hwhole (by simp [hfirst]) rfl

/-- The text between the quotes at both ends of a text, if there are any. -/
def unquote (cs : List Char) : Option (Option (List Char)) :=
  let text := Chars.trim cs
  match text with
  | [] => some none
  | quote :: _ =>
    if !(quote == '"' || quote == '\'') || size text < 2 || text.getLast? != some quote then
      some none
    else do return some (Quoted.unescape (← between text))

theorem unquote_eq (cs : List Char) : unquote cs = some (Quoted.decode? cs) := by
  rw [unquote, Quoted.decode?]
  cases htext : Chars.trim cs with
  | nil => rfl
  | cons quote rest =>
    dsimp only
    cases hquote : quote == '"' || quote == '\'' with
    | false => rfl
    | true =>
      have hone : quote.utf8Size = 1 := by
        simp only [Bool.or_eq_true, beq_iff_eq] at hquote
        rcases hquote with rfl | rfl <;> rfl
      cases hstrip : Chars.stripLast? quote rest with
      | some inner =>
        obtain rfl := Chars.append_of_stripLast? hstrip
        have hlast : (quote :: (inner ++ [quote])).getLast? = some quote := by
          rw [← List.cons_append, List.getLast?_concat]
        have hlength : ¬ size (quote :: (inner ++ [quote])) < 2 := by
          simp only [Chars.size_cons, Chars.size_append, hone]
          omega
        have hends : (size (quote :: (inner ++ [quote])) < 2 ||
            (quote :: (inner ++ [quote])).getLast? != some quote) = false := by
          rw [hlast, decide_eq_false hlength, Bool.false_or, bne_self_eq_false]
        rw [Bool.not_true, Bool.false_or, hends, between_append hone hone]
        rfl
      | none =>
        have hends :
            (size (quote :: rest) < 2 || (quote :: rest).getLast? != some quote) = true := by
          rcases List.eq_nil_or_concat rest with rfl | ⟨inner, last, rfl⟩
          · simp [hone]
          · have hlast : last ≠ quote := by
              rintro rfl
              rw [List.concat_eq_append, Chars.stripLast?_append] at hstrip
              cases hstrip
            simp [List.getLast?_cons, hlast]
        rw [Bool.not_true, Bool.false_or, hends]
        rfl

end Checked

end Worksheet
