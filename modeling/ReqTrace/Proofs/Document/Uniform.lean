/-
Module: ReqTrace.Proofs.Document.Uniform
Purpose: Loading a file and saving it again. The first line break decides how all lines are joined, so a text is
  kept exactly if its line breaks are all of one kind, and what is saved has line breaks of one kind in any case.
Main exports: Text.FirstBreakReturns, Text.EveryBreakReturns, Text.unify, LineEnding.detect_eq_crlf_iff,
  LineFile.render_parse_eq_iff
-/
import ReqTrace.Proofs.Document.LineBreaks

namespace ReqTrace

namespace Text

/-! ### Line breaks with a return -/

/-- The first line feed of a text comes right after a carriage return. -/
def FirstBreakReturns (t : Text) : Prop :=
  ∃ line rest, t = line ++ '\r' :: '\n' :: rest ∧ '\n' ∉ line

/-- Every line feed of a text comes right after a carriage return. -/
def EveryBreakReturns (t : Text) : Prop :=
  ∀ before after, t = before ++ '\n' :: after → before.getLast? = some '\r'

theorem everyBreakReturns_of_plain {line : Text} (plain : '\n' ∉ line) : EveryBreakReturns line := by
  rintro before after rfl
  exact absurd (List.mem_append_right before List.mem_cons_self) plain

/-- The line feeds of a text are its first one and those of the rest. -/
theorem everyBreakReturns_append_cons {line : Text} (plain : '\n' ∉ line) (rest : Text) :
    EveryBreakReturns (line ++ '\n' :: rest) ↔ line.getLast? = some '\r' ∧ EveryBreakReturns rest := by
  constructor
  · intro h
    refine ⟨h line rest rfl, ?_⟩
    rintro before after rfl
    have hlast := h (line ++ '\n' :: before) after (by simp)
    cases before with
    | nil => simp at hlast
    | cons c before => simpa using hlast
  · rintro ⟨hline, hrest⟩ before after h
    rcases List.append_eq_append_iff.mp h with ⟨more, rfl, hmore⟩ | ⟨more, rfl, hmore⟩
    · cases more with
      | nil => simpa using hline
      | cons c more =>
          obtain ⟨rfl, rfl⟩ := List.cons.inj hmore
          have hlast := hrest more after rfl
          cases more with
          | nil => cases hlast
          | cons c more => simpa using hlast
    · cases more with
      | nil => simpa using hline
      | cons c more =>
          obtain ⟨rfl, -⟩ := List.cons.inj hmore
          simp at plain

/-- If a return precedes every line feed, one precedes the first. -/
theorem EveryBreakReturns.first {t : Text} (h : EveryBreakReturns t) (feed : '\n' ∈ t) : FirstBreakReturns t := by
  cases lined t with
  | last plain => exact absurd feed plain
  | @more line rest plain after =>
      obtain ⟨hreturn, -⟩ := (everyBreakReturns_append_cons plain rest).mp h
      obtain ⟨line', rfl⟩ := List.getLast?_eq_some_iff.mp hreturn
      exact ⟨line', rest, by simp, fun hmem => plain (List.mem_append_left _ hmem)⟩

/-! ### Texts with line breaks of one kind -/

/-- A text with a return before each of its line feeds, and with one return less at its end if it has one there. -/
def unify (t : Text) : Text :=
  join ['\r', '\n'] ((t.splitOn '\n').map dropReturn)

theorem unify_of_plain {line : Text} (plain : '\n' ∉ line) : unify line = dropReturn line := by
  rw [unify, List.splitOn_eq_singleton plain]
  simp [join]

theorem unify_append_cons {line : Text} (plain : '\n' ∉ line) (rest : Text) :
    unify (line ++ '\n' :: rest) = (dropReturn line ++ ['\r']) ++ '\n' :: unify rest := by
  obtain ⟨first, others, hsplit⟩ := List.exists_cons_of_ne_nil (List.splitOn_ne_nil '\n' rest)
  rw [unify, unify, List.splitOn_append_cons_self_of_not_mem plain, hsplit]
  simp [join]

theorem everyBreakReturns_unify (t : Text) : EveryBreakReturns (unify t) := by
  induction lined t with
  | last plain =>
      rw [unify_of_plain plain]
      exact everyBreakReturns_of_plain (plain_dropReturn plain)
  | @more line rest plain after ih =>
      have hfeed : '\n' ∉ dropReturn line ++ ['\r'] := by simp [plain_dropReturn plain]
      rw [unify_append_cons plain]
      exact (everyBreakReturns_append_cons hfeed _).mpr ⟨by simp, ih⟩

theorem feed_mem_unify {t : Text} (h : FirstBreakReturns t) : '\n' ∈ unify t := by
  obtain ⟨line, rest, rfl, plain⟩ := h
  have hfeed : '\n' ∉ line ++ ['\r'] := by simp [plain]
  have hsplit : line ++ '\r' :: '\n' :: rest = (line ++ ['\r']) ++ '\n' :: rest := by simp
  rw [hsplit, unify_append_cons hfeed]
  simp

/-- A text is of one kind already exactly if a return precedes each of its line feeds and none ends it. -/
theorem unify_eq_self_iff {t : Text} : unify t = t ↔ EveryBreakReturns t ∧ t.getLast? ≠ some '\r' := by
  induction lined t with
  | last plain =>
      rw [unify_of_plain plain, dropReturn_eq_self_iff]
      exact (and_iff_right (everyBreakReturns_of_plain plain)).symm
  | @more line rest plain after ih =>
      have hfeed : '\n' ∉ dropReturn line ++ ['\r'] := by simp [plain_dropReturn plain]
      have hlast : (line ++ '\n' :: rest).getLast? ≠ some '\r' ↔ rest.getLast? ≠ some '\r' := by
        cases rest with
        | nil => simp
        | cons c rest => simp
      rw [unify_append_cons plain, append_cons_inj hfeed plain, dropReturn_append_eq_self_iff, ih,
        everyBreakReturns_append_cons plain, hlast, and_assoc]

/-- The lines are the same, but for one more return that the last one may lose. -/
theorem exists_map_dropReturn_splitOn_unify (t : Text) : ∃ init last,
    (t.splitOn '\n').map dropReturn = init ++ [last] ∧
      ((unify t).splitOn '\n').map dropReturn = init ++ [dropReturn last] := by
  induction lined t with
  | @last line plain =>
      refine ⟨[], dropReturn line, ?_, ?_⟩
      · simp [List.splitOn_eq_singleton plain]
      · simp [unify_of_plain plain, List.splitOn_eq_singleton (plain_dropReturn plain)]
  | @more line rest plain after ih =>
      obtain ⟨init, last, hold, hnew⟩ := ih
      have hfeed : '\n' ∉ dropReturn line ++ ['\r'] := by simp [plain_dropReturn plain]
      refine ⟨dropReturn line :: init, last, ?_, ?_⟩
      · rw [List.splitOn_append_cons_self_of_not_mem plain, List.map_cons, hold]
        rfl
      · rw [unify_append_cons plain, List.splitOn_append_cons_self_of_not_mem hfeed, List.map_cons, hnew,
          dropReturn_append_return]
        rfl

end Text

open Text

/-! ### Files -/

/-- The line break of a file has a return exactly if the first one of its text has. -/
theorem LineEnding.detect_eq_crlf_iff {t : Text} : detect t = .crlf ↔ FirstBreakReturns t := by
  constructor
  · intro h
    fun_induction detect t with
    | case1 => cases h
    | case2 => cases h
    | case3 rest => exact ⟨[], rest, rfl, List.not_mem_nil⟩
    | case4 rest => cases h
    | case5 c rest hreturn hbreak hfeed ih =>
        obtain ⟨line, rest', rfl, plain⟩ := ih h
        exact ⟨c :: line, rest', rfl, by simp [plain, Ne.symm hfeed]⟩
  · rintro ⟨line, rest, rfl, plain⟩
    exact detect_append_crlf plain rest

namespace LineFile

theorem parse_of_firstBreakReturns {t : Text} (h : FirstBreakReturns t) :
    parse t = { lines := (t.splitOn '\n').map dropReturn, ending := .crlf } := by
  rw [parse, LineEnding.detect_eq_crlf_iff.mpr h]
  rfl

theorem render_parse_of_firstBreakReturns {t : Text} (h : FirstBreakReturns t) : (parse t).render = unify t := by
  rw [parse_of_firstBreakReturns h]
  rfl

/-- Without a return in its first line break a file is joined as it was split. -/
theorem render_parse_of_not {t : Text} (h : ¬ FirstBreakReturns t) : (parse t).render = t := by
  have hending : LineEnding.detect t = .lf := by
    cases hdetect : LineEnding.detect t with
    | lf => rfl
    | crlf => exact absurd (LineEnding.detect_eq_crlf_iff.mp hdetect) h
  have hlines : (parse t).lines = t.splitOn '\n' := by
    rw [parse, hending]
    exact List.map_id _
  rw [render, hlines, parse, hending]
  exact List.intercalate_splitOn '\n'

/-- Exactly the texts whose line breaks are all of one kind survive loading and saving. Otherwise a return precedes
    every line feed afterwards, and loading again gives the same lines, but for one more return at the end of the
    last line. -/
theorem render_parse_eq_iff (t : Text) :
    ((parse t).render = t ↔ ¬ FirstBreakReturns t ∨ EveryBreakReturns t ∧ t.getLast? ≠ some '\r') ∧
      (FirstBreakReturns t → EveryBreakReturns (parse t).render ∧
        ∃ init last, parse t = { lines := init ++ [last], ending := .crlf } ∧
          parse (parse t).render = { lines := init ++ [dropReturn last], ending := .crlf }) := by
  by_cases h : FirstBreakReturns t
  · have hevery := everyBreakReturns_unify t
    obtain ⟨init, last, hold, hnew⟩ := exists_map_dropReturn_splitOn_unify t
    rw [render_parse_of_firstBreakReturns h, unify_eq_self_iff]
    refine ⟨⟨.inr, fun hkept => hkept.resolve_left (not_not_intro h)⟩, fun _ => ⟨hevery, init, last, ?_, ?_⟩⟩
    · rw [parse_of_firstBreakReturns h, hold]
    · rw [parse_of_firstBreakReturns (hevery.first (feed_mem_unify h)), hnew]
  · rw [render_parse_of_not h]
    exact ⟨⟨fun _ => .inl h, fun _ => rfl⟩, fun hfirst => absurd hfirst h⟩

/-- The first line break has a return and the second one has none. The last line loses a return by the first loading
    and the other one by the second. -/
theorem render_parse_mixed_breaks :
    let t := "a\r\r\nb\nc\r\r".toList
    FirstBreakReturns t ∧ (parse t).render = "a\r\r\nb\r\nc\r".toList ∧ EveryBreakReturns (parse t).render ∧
      ∃ init last, parse t = { lines := init ++ [last], ending := .crlf } ∧ last = ['c', '\r'] ∧
        parse (parse t).render = { lines := init ++ [dropReturn last], ending := .crlf } := by
  intro t
  have hfirst : FirstBreakReturns t := ⟨"a\r".toList, "b\nc\r\r".toList, by decide, by decide⟩
  obtain ⟨hevery, init, last, hparse, hagain⟩ := (render_parse_eq_iff t).2 hfirst
  refine ⟨hfirst, by decide, hevery, init, last, hparse, ?_, hagain⟩
  have hlast := congrArg (fun f => f.lines.getLast?) hparse
  simpa using hlast.symm.trans (by decide : (parse t).lines.getLast? = some ['c', '\r'])

end LineFile

end ReqTrace
