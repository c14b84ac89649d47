import Worksheet.Proofs.Block.Braces
import Worksheet.Proofs.Block.Sections
import Worksheet.Proofs.Engine.Builtin
import Worksheet.Proofs.Engine.Exercise
import Worksheet.Proofs.Matching.Written

namespace Worksheet.Matching

open Chars (trim)
open SourceLine (texts linesOf)

/-- The script of a block of matching content. -/
def blockScript (lines : List String) : String :=
  Text.join "\n" ("\x7b" :: "type: matching" :: (lines ++ ["\x7d"]))

/-- What lines must be like to be the content of a block as they stand. -/
structure Survives (lines : List String) : Prop where
  whole : ∀ t ∈ lines, '\n' ∉ t.toList
  content : ∀ t ∈ lines, isContent t = true
  /-- At the head of a block a field is no content. -/
  first : ∀ t ∈ lines.head?, Sections.header? (trim t.toList) = none
  balanced : Braces.Balanced lines

instance (lines : List String) : Decidable (Survives lines) :=
  decidable_of_iff ((∀ t ∈ lines, '\n' ∉ t.toList) ∧ (∀ t ∈ lines, isContent t = true) ∧
      (∀ t ∈ lines.head?, Sections.header? (trim t.toList) = none) ∧ Braces.Balanced lines)
    ⟨fun ⟨hwhole, hcontent, hfirst, hbalanced⟩ => ⟨hwhole, hcontent, hfirst, hbalanced⟩,
      fun h => ⟨h.whole, h.content, h.first, h.balanced⟩⟩

section Lines

variable {lines : List String}

theorem texts_blockScript (lines : List String) :
    texts (SourceLine.ofScript (blockScript lines)) =
      "\x7b" :: "type: matching" :: (lines.flatMap linesOf ++ ["\x7d"]) := by
  have hopen : linesOf "\x7b" = ["\x7b"] := rfl
  have htype : linesOf "type: matching" = ["type: matching"] := rfl
  have hclose : linesOf "\x7d" = ["\x7d"] := rfl
  rw [SourceLine.texts_ofScript, blockScript, SourceLine.linesOf_join (by simp)]
  simp [hopen, htype, hclose]

theorem plain_blockScript (h : ∀ t ∈ lines, Call.occursIn t = false) :
    ∀ l ∈ SourceLine.ofScript (blockScript lines),
      Call.occursIn l.text = false ∧ '\n' ∉ l.text.toList := by
  intro l hl
  have hmem : l.text ∈ texts (SourceLine.ofScript (blockScript lines)) := List.mem_map_of_mem hl
  have hbreak : '\n' ∉ l.text.toList := by
    rw [SourceLine.texts_ofScript] at hmem
    exact SourceLine.not_mem_of_mem_linesOf hmem
  refine ⟨?_, hbreak⟩
  rw [texts_blockScript] at hmem
  simp only [List.mem_cons, List.mem_append, List.mem_flatMap, List.not_mem_nil, or_false] at hmem
  rcases hmem with hopen | htype | ⟨t, ht, hline⟩ | hclose
  · rw [hopen]
    decide
  · rw [htype]
    decide
  · exact SourceLine.occursIn_of_mem_linesOf (h t ht) hline
  · rw [hclose]
    decide

theorem framed_blockScript (hlines : lines.flatMap linesOf = lines)
    (hbrace : ∀ t ∈ lines, Text.trim t ≠ "\x7b") : ∃ first head mid close,
      Outline.Framed (blockScript lines) first head mid close ∧ head.text = "type: matching" ∧
        texts mid = lines := by
  have htexts := texts_blockScript lines
  rw [hlines] at htexts
  obtain ⟨first, rest, hscript, hfirst, hrest⟩ := List.map_eq_cons_iff.1 htexts
  obtain ⟨head, rest, rfl, hhead, hrest⟩ := List.map_eq_cons_iff.1 hrest
  obtain ⟨mid, ends, rfl, hmid, hends⟩ := List.map_eq_append_iff.1 hrest
  obtain ⟨close, rfl, hclose⟩ := List.map_eq_singleton_iff.1 hends
  refine ⟨first, head, mid, close, ⟨hscript, ?_, ?_, hclose, ?_⟩, hhead, hmid⟩
  · rw [hfirst]
    rfl
  · rw [hhead]
    rfl
  · intro l hl
    rcases List.mem_append.1 hl with hl | hl
    · rcases List.mem_cons.1 hl with rfl | hl
      · rw [hhead]
        decide
      · apply hbrace
        rw [← hmid]
        exact List.mem_map_of_mem hl
    · rw [List.mem_singleton.1 hl, hclose]
      decide

end Lines

section Reading

variable {pairs : List MatchPair}

/-- How pairs are read from lines without calls. -/
theorem forall₂_of_parse {ls : List SourceLine}
    (h : parse (SourceLine.contents ls) = .ok pairs) :
    List.Forall₂ (fun l p => parsePair (Text.trim l.text) = some p)
      (ls.filter (isContent ·.text)) pairs := by
  rw [parse_eq_ok_iff, SourceLine.withText_contents, mapM_eq_ok_iff, SourceLine.contents,
    List.forall₂_map_left_iff] at h
  exact h.1.imp fun l p hp => (pairLine_eq_ok_iff.1 hp).2

theorem route_typed {head : SourceLine} (h : head.text = "type: matching") :
    Sections.route {} head = ({}, [.fields .metadata "type: matching".toList]) := by
  rw [Sections.route, h]
  rfl

/-- A block of as many lines as it has pairs has a pair on every line. -/
theorem all_of_length_le {head : SourceLine} {more : List SourceLine}
    (hhead : head.text = "type: matching")
    (h : parse (SourceLine.contents (Sections.ofLines (head :: more)).content) = .ok pairs) :
    pairs.length ≤ more.length ∧ (more.length ≤ pairs.length →
      (Sections.contributions {} more).filterMap Sections.line? = more ∧
        (∀ l ∈ more, isContent l.text = true) ∧
          List.Forall₂ (fun l p => parsePair (Text.trim l.text) = some p) more pairs) := by
  have hcontent : (Sections.ofLines (head :: more)).content =
      (Sections.contributions {} more).filterMap Sections.line? := by
    rw [Sections.content_ofLines, Sections.contributions, route_typed hhead]
    rfl
  rw [hcontent] at h
  -- Every pair takes a line, and on the way from the block to the pairs lines only get lost.
  have hread := forall₂_of_parse h
  have hlength := hread.length_eq
  have hfilter := List.length_filter_le (fun l : SourceLine => isContent l.text)
    ((Sections.contributions {} more).filterMap Sections.line?)
  have hsublist := Sections.content_sublist {} more
  have hmore := hsublist.length_le
  refine ⟨by omega, fun hle => ?_⟩
  have hall : (Sections.contributions {} more).filterMap Sections.line? = more :=
    hsublist.eq_of_length_le (by omega)
  rw [hall] at hread hlength
  have hkept : more.filter (isContent ·.text) = more :=
    List.filter_sublist.eq_of_length_le (by omega)
  rw [hkept] at hread
  exact ⟨hall, List.filter_eq_self.1 hkept, hread⟩

theorem survives_of_kept {ls : List SourceLine} (hbreak : ∀ t ∈ texts ls, '\n' ∉ t.toList)
    (hbalanced : Braces.Balanced (texts ls))
    (hkept : (Sections.contributions {} ls).filterMap Sections.line? = ls)
    (hcontent : ∀ l ∈ ls, isContent l.text = true) : Survives (texts ls) := by
  refine ⟨hbreak, ?_, ?_, hbalanced⟩
  · intro t ht
    obtain ⟨l, hl, rfl⟩ := List.mem_map.1 ht
    exact hcontent l hl
  · intro t ht
    rw [texts, List.head?_map] at ht
    obtain ⟨l, hl, rfl⟩ := Option.map_eq_some_iff.1 ht
    obtain ⟨rest, rfl⟩ := List.head?_eq_some_iff.1 hl
    obtain ⟨-, hcomment, -⟩ := of_isContent (hcontent l (by simp))
    exact Sections.header?_of_content_eq hcomment hkept

/-- If the last line is cut before a closing brace, its pair is lost. -/
theorem not_forall₂_of_cut {inner : List SourceLine} {part last : SourceLine}
    (hwritten : texts (inner ++ [last]) = serialize pairs)
    (hpart : part.text.toList ++ ['\x7d'] <+: last.text.toList) :
    ¬ List.Forall₂ (fun l p => parsePair (Text.trim l.text) = some p) (inner ++ [part]) pairs := by
  intro hread
  rw [SourceLine.texts_append] at hwritten
  obtain ⟨front, ends, rfl, hfront, hends⟩ := List.map_eq_append_iff.1 hwritten.symm
  obtain ⟨p, rfl, hp⟩ := List.map_eq_singleton_iff.1 hends
  have hlength : front.length = inner.length := by
    have hlengths := congrArg List.length hfront
    simpa [texts] using hlengths
  have hlast := List.forall₂_drop_append _ _ _ hread
  rw [hlength, List.drop_left, List.forall₂_cons] at hlast
  have hp : renderPair p = last.text := hp
  rw [← hp] at hpart
  exact parsePair_ne_of_append hpart hlast.1

end Reading

section Compiling

variable {σ : Type} [RandomSource σ] (words : WordLibrary) {pairs : List MatchPair}

open Engine (withWords)

theorem flatMap_linesOf_serialize (hform : ∀ p ∈ pairs, WellRead p)
    (hbreak : ∀ t ∈ serialize pairs, '\n' ∉ t.toList) :
    (serialize pairs).flatMap linesOf = serialize pairs := by
  apply SourceLine.flatMap_linesOf_eq_self hbreak
  intro t ht
  obtain ⟨p, hp, rfl⟩ := List.mem_map.1 ht
  exact getLast?_renderPair (hform p hp)

theorem trim_ne_brace_of_mem_serialize :
    ∀ t ∈ serialize pairs, Text.trim t ≠ "\x7b" := by
  intro t ht
  obtain ⟨p, -, rfl⟩ := List.mem_map.1 ht
  exact trim_renderPair_ne_brace p

/-- A block of pairs that survive is sorted into its kind and the pairs. -/
theorem ofLines_typed {head : SourceLine} {mid : List SourceLine}
    (hhead : head.text = "type: matching") (hplain : ∀ l ∈ mid, Call.occursIn l.text = false)
    (h : Survives (texts mid)) :
    Sections.ofLines (head :: mid) = ⟨"type: matching", "", mid⟩ := by
  have hcontent : ∀ l ∈ mid, isContent l.text = true := fun l hl =>
    h.content _ (List.mem_map_of_mem hl)
  have hfirst : ∀ l ∈ mid.head?, Sections.header? (trim l.text.toList) = none := by
    intro l hl
    apply h.first
    rw [texts, List.head?_map, hl]
    rfl
  have hmetadata : Sections.fieldText .metadata [.fields .metadata "type: matching".toList] =
      "type: matching" := by decide +kernel
  have hconfig : Sections.fieldText .config [.fields .metadata "type: matching".toList] = "" := rfl
  rw [Sections.ofLines_of_field (route_typed hhead)
    (Sections.contributions_of_isContent hplain hcontent hfirst), hmetadata, hconfig]

theorem readHeader_typed (content : List SourceLine) :
    (Engine.readHeader ⟨"type: matching", "", content⟩).metadata.kind = some tag ∧
      (Engine.readHeader ⟨"type: matching", "", content⟩).config.variation = none := by
  have h : Engine.readHeader ⟨"type: matching", "", content⟩ =
      Engine.readHeader ⟨"type: matching", "", []⟩ := rfl
  rw [h]
  constructor <;> decide +kernel

theorem reads_typed {block : Block} {content : List SourceLine} {lines : List ContentLine}
    (hblock : Sections.ofBlock block = ⟨"type: matching", "", content⟩)
    (h : parse lines = .ok pairs) : ∃ k, k.tag = tag ∧
      (withWords words : Engine σ).Reads block lines k ⟨.matching pairs, none⟩ := by
  obtain ⟨hkind, hvariation⟩ := readHeader_typed content
  obtain ⟨k, hk, htag, -⟩ := exists_kind
  have hheader : Engine.headerOf block = Engine.readHeader ⟨"type: matching", "", content⟩ := by
    rw [Engine.headerOf, hblock]
  have hown : (withWords words : Engine σ).kindOf block = some k := by
    rw [Engine.kindOf, hheader, Engine.declaredKind, hkind]
    dsimp only
    rw [Engine.kinds_withWords, hk]
  refine ⟨k, htag, ?_, ?_⟩
  · rw [hown, Option.some_or]
  · rw [Engine.kinds_withWords, hheader, hvariation, htag, parse_builtin_iff]
    exact ⟨rfl, pairs, h, rfl⟩

/-- A block of lines that survive is one exercise with the pairs that are read from them. -/
theorem exercises_blockScript {lines : List String} (hlines : lines.flatMap linesOf = lines)
    (hbrace : ∀ t ∈ lines, Text.trim t ≠ "\x7b") (hplain : ∀ t ∈ lines, Call.occursIn t = false)
    (h : Survives lines) (hparse : parse (lines.map .reread) = .ok pairs) (author : String)
    (random : σ) :
    ∃ y, ((withWords words).compile (blockScript lines) author random).1.exercises = [y] ∧
      y.kind = tag ∧ y.content = ⟨.matching pairs, none⟩ := by
  obtain ⟨first, head, mid, close, hframed, hhead, rfl⟩ := framed_blockScript hlines hbrace
  have hcalls : ∀ l ∈ mid, Call.occursIn l.text = false := fun l hl =>
    hplain _ (List.mem_map_of_mem hl)
  have hcontent : ∀ l ∈ mid, isContent l.text = true := fun l hl =>
    h.content _ (List.mem_map_of_mem hl)
  obtain ⟨block, hblocks, hblock⟩ : ∃ block,
      (Outline.ofScript (blockScript (texts mid))).blocks = [block] ∧
        block.lines = head :: mid := by
    rcases hframed.blocks_cases with ⟨-, hblocks⟩ | ⟨hnot, -⟩
    · exact hblocks
    · exact absurd h.balanced hnot
  have hsections : Sections.ofBlock block = ⟨"type: matching", "", mid⟩ := by
    rw [Sections.ofBlock, hblock, ofLines_typed hhead hcalls h]
  have hmaterial : (withWords words).materialOf block random =
      (.ok { lines := mid.map SourceLine.asContent }, random) := by
    rw [Engine.materialOf, hsections, Context.material,
      Context.readLines_of_isContent _ hcalls hcontent]
    rfl
  have hread : parse (mid.map SourceLine.asContent) = .ok pairs := by
    apply parse_of_texts _ hparse
    rw [texts, List.map_map, List.map_map, List.map_map]
    rfl
  have hne : mid.map SourceLine.asContent ≠ [] := by
    intro hnil
    rw [hnil] at hread
    cases hread
  obtain ⟨k, htag, hreads⟩ := reads_typed (σ := σ) words hsections hread
  obtain ⟨y, hy, hykind, hycontent⟩ := Engine.exercises_compileBlock hmaterial hne hreads author
  rw [Engine.exercises_compile_of_singleton hblocks]
  refine ⟨y, hy, ?_, ?_⟩
  · rw [hykind, htag]
  · rw [hycontent, inheritInstructions_eq_iff]

/-- Pairs that were read from lines have no line breaks. -/
theorem whole_of_parse {ls : List SourceLine} (hls : ∀ l ∈ ls, '\n' ∉ l.text.toList)
    (h : parse (SourceLine.contents ls) = .ok pairs) : ∀ t ∈ serialize pairs, '\n' ∉ t.toList := by
  intro t ht
  obtain ⟨p, hp, rfl⟩ := List.mem_map.1 ht
  obtain ⟨l, hl, hread⟩ := forall₂_exists_left (forall₂_of_parse h) hp
  have hline : '\n' ∉ l.text.toList := hls l (List.mem_filter.1 hl).1
  have hitems : ¬ ('\n' ∈ p.left.toList ∨ '\n' ∈ p.right.toList) := by
    intro hitem
    rw [parsePair_trim] at hread
    exact hline (mem_of_parsePair hread hitem)
  exact not_mem_renderPair (fun hleft => hitems (Or.inl hleft)) fun hright => hitems (Or.inr hright)

theorem parse_of_reads {block : Block} {lines : List ContentLine} {kind : Kind} {c : Content}
    {instructions : Option String}
    (h : (withWords words : Engine σ).Reads block lines kind c)
    (hc : c.inheritInstructions instructions = ⟨.matching pairs, none⟩) :
    parse lines = .ok pairs := by
  obtain rfl := inheritInstructions_eq_iff.1 hc
  have hparse := h.read
  rw [Engine.kinds_withWords] at hparse
  have htag : Content.tag ⟨.matching pairs, none⟩ = tag := rfl
  have hown := KindRegistry.parse_own_tag hparse
  rw [htag, parse_builtin_iff] at hown
  obtain ⟨-, found, hfound, hsame⟩ := hown
  obtain rfl : pairs = found := Body.matching.inj (Content.mk.inj hsame).1
  exact hfound

/-- Pairs that come back as the one exercise of a block have survived. -/
theorem survives_of_mem_exercises (hform : ∀ p ∈ pairs, WellRead p)
    (hplain : ∀ t ∈ serialize pairs, Call.occursIn t = false) {author : String} {random : σ}
    {y : Exercise}
    (hy : y ∈ ((withWords words).compile (blockScript (serialize pairs)) author random).1.exercises)
    (hc : y.content = ⟨.matching pairs, none⟩) : Survives (serialize pairs) := by
  have hscript := plain_blockScript hplain
  have hcalls : ∀ l ∈ SourceLine.ofScript (blockScript (serialize pairs)),
      Call.occursIn l.text = false := fun l hl => (hscript l hl).1
  obtain ⟨block, hblock, kind, content, hreads, hcontent⟩ :=
    Engine.exists_reads_of_mem_compile hcalls hy
  have hparse := parse_of_reads words hreads (hcontent.symm.trans hc)
  have hbreak : ∀ t ∈ serialize pairs, '\n' ∉ t.toList := by
    have hcut : ∀ l part : SourceLine, part.number = l.number → part.text.toList <+: l.text.toList →
        '\n' ∉ l.text.toList → '\n' ∉ part.text.toList := fun l part _ hstart hl hp =>
      hl (hstart.subset hp)
    apply whole_of_parse _ hparse
    intro l hl
    exact Outline.forall_lines hcut (fun m hm => (hscript m hm).2) hblock l
      (Sections.content_subset_lines block hl)
  obtain ⟨first, head, mid, close, hframed, hhead, hmid⟩ :=
    framed_blockScript (flatMap_linesOf_serialize hform hbreak) trim_ne_brace_of_mem_serialize
  have hcount : mid.length = pairs.length := by
    have hlength := congrArg List.length hmid
    simpa [texts, serialize] using hlength
  rcases hframed.blocks_cases with ⟨hbalanced, own, hown, hlines⟩ | ⟨-, hlost⟩
  · rw [hown] at hblock
    obtain rfl := List.mem_singleton.1 hblock
    rw [Sections.ofBlock, hlines] at hparse
    obtain ⟨-, hall⟩ := all_of_length_le hhead hparse
    obtain ⟨hkept, hcontent, -⟩ := hall hcount.le
    rw [← hmid] at hbreak ⊢
    exact survives_of_kept hbreak hbalanced hkept hcontent
  · obtain ⟨inner, last, after, rfl, hlines⟩ := hlost block hblock
    rcases hlines with hlines | ⟨part, hlines, hpart⟩
    · -- The block has too few lines for the pairs.
      rw [Sections.ofBlock, hlines] at hparse
      obtain ⟨hle, -⟩ := all_of_length_le hhead hparse
      simp only [List.length_append, List.length_cons] at hcount
      omega
    · -- There are lines enough only if no more than the last one is cut.
      rw [Sections.ofBlock, hlines, List.cons_append] at hparse
      obtain ⟨hle, hall⟩ := all_of_length_le hhead hparse
      simp only [List.length_append, List.length_cons, List.length_nil] at hle hall hcount
      obtain rfl : after = [] := List.length_eq_zero_iff.1 (by omega)
      obtain ⟨-, -, hread⟩ := hall (by omega)
      exact absurd hread (not_forall₂_of_cut hmid hpart)

/-- The written pairs of a matching exercise, if no call begins in them, come back as the one
exercise of a block exactly if they survive in it. -/
theorem compile_written_iff_survives (script author : String) (random : σ) :
    ∀ x ∈ ((withWords words).compile script author random).1.exercises, x.kind = tag →
      ∃ lines, (withWords words : Engine σ).kinds.serialize tag x.content = .ok lines ∧
        ((∀ t ∈ lines, Call.occursIn t = false) → ∀ (author' : String) (random' : σ),
          (∃ y, ((withWords words).compile (blockScript lines) author' random').1.exercises = [y] ∧
            y.content = x.content) ↔ Survives lines) := by
  intro x hx hkind
  obtain ⟨block, -, before, hown⟩ := Engine.exists_block_of_mem_compile hx
  obtain ⟨material, next, kind, content, -, hreads, htag, hcontent⟩ :=
    Engine.reads_of_mem_compileBlock hown
  have hread := hreads.read
  rw [← htag, hkind, Engine.kinds_withWords, parse_builtin_iff] at hread
  obtain ⟨-, pairs, hparse, rfl⟩ := hread
  have hpairs : x.content = ⟨.matching pairs, none⟩ := by
    rw [hcontent, inheritInstructions_eq_iff]
  have hne : pairs ≠ [] := (parse_eq_ok_iff.1 hparse).2
  have hform : ∀ p ∈ pairs, WellRead p := wellRead_of_parse hparse
  rw [hpairs, Engine.kinds_withWords]
  refine ⟨serialize pairs, serialize_builtin pairs, ?_⟩
  intro hplain author' random'
  constructor
  · rintro ⟨y, hy, hc⟩
    have hmem : y ∈ ((withWords words).compile (blockScript (serialize pairs)) author'
        random').1.exercises := by
      rw [hy]
      exact List.mem_singleton_self y
    exact survives_of_mem_exercises words hform hplain hmem hc
  · intro h
    obtain ⟨y, hy, -, hc⟩ := exercises_blockScript words (flatMap_linesOf_serialize hform h.whole)
      trim_ne_brace_of_mem_serialize hplain h (parse_reread hne hform) author' random'
    exact ⟨y, hy, hc⟩

end Compiling

/-- Braces that match from line to line. -/
theorem compile_written_iff_survives_braces :
    ∃ x ∈ ((Engine.withWords .builtin : Engine Draws).compile
        (blockScript ["Sun :: Sol", "f \x7b :: x", "g \x7d :: y"]) "me" ⟨[], 0⟩).1.exercises,
      x.kind = tag ∧ (Engine.withWords .builtin : Engine Draws).kinds.serialize tag x.content =
          .ok ["Sun = Sol", "f \x7b = x", "g \x7d = y"] ∧
        ∃ y, ((Engine.withWords .builtin : Engine Draws).compile
          (blockScript ["Sun = Sol", "f \x7b = x", "g \x7d = y"]) "me" ⟨[], 0⟩).1.exercises = [y] ∧
            y.content = x.content := by
  have hlines : ["Sun :: Sol", "f \x7b :: x", "g \x7d :: y"].flatMap linesOf =
      ["Sun :: Sol", "f \x7b :: x", "g \x7d :: y"] := by decide +kernel
  have hparse : parse (["Sun :: Sol", "f \x7b :: x", "g \x7d :: y"].map .reread) =
      .ok [⟨"Sun", "Sol"⟩, ⟨"f \x7b", "x"⟩, ⟨"g \x7d", "y"⟩] := by decide +kernel
  have hfirst : Survives ["Sun :: Sol", "f \x7b :: x", "g \x7d :: y"] := by decide +kernel
  have hpairs : serialize [⟨"Sun", "Sol"⟩, ⟨"f \x7b", "x"⟩, ⟨"g \x7d", "y"⟩] =
      ["Sun = Sol", "f \x7b = x", "g \x7d = y"] := by decide +kernel
  have hsecond : Survives ["Sun = Sol", "f \x7b = x", "g \x7d = y"] := by decide +kernel
  obtain ⟨x, hx, hkind, hcontent⟩ := exercises_blockScript (σ := Draws) .builtin hlines
    (by decide +kernel) (by decide +kernel) hfirst hparse "me" ⟨[], 0⟩
  have hmem := List.mem_singleton_self x
  rw [← hx] at hmem
  obtain ⟨lines, hown, hback⟩ := compile_written_iff_survives (σ := Draws) .builtin
    (blockScript ["Sun :: Sol", "f \x7b :: x", "g \x7d :: y"]) "me" ⟨[], 0⟩ x hmem hkind
  have hwritten := hown
  rw [Engine.kinds_withWords, hcontent, serialize_builtin, hpairs] at hwritten
  obtain rfl := Except.ok.inj hwritten
  exact ⟨x, hmem, hkind, hown, (hback (by decide +kernel) "me" ⟨[], 0⟩).2 hsecond⟩

/-- A pair that is written like a field of the block is taken for that. -/
theorem compile_written_loses_title :
    let e : Engine Draws := Engine.withWords .builtin
    ∃ x ∈ (e.compile "\x7b\ntype: matching\ntitle :: x\nA = B\n\x7d" "me" ⟨[], 0⟩).1.exercises,
      x.kind = tag ∧ e.kinds.serialize tag x.content = .ok ["title = x", "A = B"] ∧
        ¬ ∃ y, (e.compile "\x7b\ntype: matching\ntitle = x\nA = B\n\x7d" "me"
          ⟨[], 0⟩).1.exercises = [y] ∧ y.content = x.content := by
  intro e
  have hparse : parse (["title :: x", "A = B"].map .reread) =
      .ok [⟨"title", "x"⟩, ⟨"A", "B"⟩] := by decide +kernel
  have hsurvives : Survives ["title :: x", "A = B"] := by decide +kernel
  obtain ⟨x, hx, hkind, hcontent⟩ := exercises_blockScript (σ := Draws) .builtin rfl
    (by decide +kernel) (by decide +kernel) hsurvives hparse "me" ⟨[], 0⟩
  have hwritten : serialize [⟨"title", "x"⟩, ⟨"A", "B"⟩] = ["title = x", "A = B"] := by
    decide +kernel
  have hform : ∀ p ∈ [(⟨"title", "x"⟩ : MatchPair), ⟨"A", "B"⟩], WellRead p :=
    wellRead_of_parse hparse
  refine ⟨x, ?_, hkind, ?_, ?_⟩
  · have hscript : blockScript ["title :: x", "A = B"] =
        "\x7b\ntype: matching\ntitle :: x\nA = B\n\x7d" := by decide +kernel
    rw [← hscript, hx]
    exact List.mem_singleton_self x
  · rw [Engine.kinds_withWords, hcontent, serialize_builtin, hwritten]
  · have hscript : blockScript ["title = x", "A = B"] =
        "\x7b\ntype: matching\ntitle = x\nA = B\n\x7d" := by decide +kernel
    rintro ⟨y, hy, hc⟩
    have hmem : y ∈ (e.compile (blockScript (serialize [⟨"title", "x"⟩, ⟨"A", "B"⟩])) "me"
        ⟨[], 0⟩).1.exercises := by
      rw [hwritten, hscript, hy]
      exact List.mem_singleton_self y
    have hlost := survives_of_mem_exercises .builtin hform (by decide +kernel) hmem
      (hc.trans hcontent)
    rw [hwritten] at hlost
    have hheader : Sections.header? (trim "title = x".toList) ≠ none := by decide +kernel
    exact hheader (hlost.first _ rfl)

end Worksheet.Matching
