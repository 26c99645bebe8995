/-
Module: ReqTrace.Proofs.Document.LineBreaks
Purpose: The line break of a document is no part of what it says, and no edit depends on it. A document whose line
  breaks all get a carriage return reads the same, edits succeed on it exactly if they do without the returns, and
  what they write then differs in the returns only.
Main exports: Text.addReturns, LineFile.parse_addReturns, LineFile.applyAll_withEnding, LineFile.plain_applyAll,
  patchDocument_addReturns
-/
import ReqTrace.Proofs.Document.Edited

namespace ReqTrace

/-! ### Returns before line feeds -/

namespace Text

/-- A text with a carriage return before each of its line feeds. -/
def addReturns (t : Text) : Text :=
  t.flatMap fun c => if c = '\n' then ['\r', '\n'] else [c]

theorem addReturns_eq_self {line : Text} (plain : '\n' ∉ line) : addReturns line = line := by
  have hkept : ∀ c ∈ line, (if c = '\n' then ['\r', '\n'] else [c]) = [c] := by
    intro c hc
    exact if_neg (ne_of_mem_of_not_mem hc plain)
  rw [addReturns, List.flatMap_congr hkept, List.flatMap_singleton']

theorem addReturns_append_cons {line : Text} (plain : '\n' ∉ line) (rest : Text) :
    addReturns (line ++ '\n' :: rest) = (line ++ ['\r']) ++ '\n' :: addReturns rest := by
  have hline : line.flatMap (fun c => if c = '\n' then ['\r', '\n'] else [c]) = line := addReturns_eq_self plain
  rw [addReturns, List.flatMap_append, hline, List.flatMap_cons, if_pos rfl]
  simp [addReturns]

/-- Returns before the line feeds between lines make these the longer line breaks. -/
theorem addReturns_join {lines : List Text} (plain : ∀ t ∈ lines, '\n' ∉ t) :
    addReturns (join ['\n'] lines) = join ['\r', '\n'] lines := by
  unfold join
  induction lines with
  | nil => rfl
  | cons line lines ih =>
      obtain ⟨hline, hlines⟩ := List.forall_mem_cons.mp plain
      cases lines with
      | nil => simpa using addReturns_eq_self hline
      | cons next lines =>
          rw [List.intercalate_cons_cons, List.intercalate_cons_cons, ← ih hlines, List.append_assoc,
            List.singleton_append, addReturns_append_cons hline]
          simp

theorem dropReturn_append_return (line : Text) : dropReturn (line ++ ['\r']) = line := by
  rw [dropReturn, dropTail?_eq_some_iff.mpr rfl, Option.getD_some]

theorem dropReturn_eq_self {line : Text} (noReturn : '\r' ∉ line) : dropReturn line = line :=
  dropReturn_eq_self_iff.mpr fun hlast => noReturn (List.mem_of_getLast? hlast)

/-- The lines of a text do not tell whether there are returns before its line feeds. -/
theorem lines_addReturns {t : Text} (noReturn : '\r' ∉ t) : lines (addReturns t) = lines t := by
  induction lined t with
  | last plain => rw [addReturns_eq_self plain]
  | @more line rest plain after ih =>
      have hline : '\r' ∉ line := fun hmem => noReturn (List.mem_append_left _ hmem)
      have hrest : '\r' ∉ rest := fun hmem => noReturn (List.mem_append_right _ (List.mem_cons_of_mem _ hmem))
      have hfeed : '\n' ∉ line ++ ['\r'] := by simp [plain]
      rw [addReturns_append_cons plain, lines_append_cons hfeed, lines_append_cons plain, ih hrest,
        dropReturn_append_return, dropReturn_eq_self hline]

/-- Between the line feeds stands what stood there before, with one return more in front of each line feed. -/
theorem map_dropReturn_splitOn_addReturns {t : Text} (noReturn : '\r' ∉ t) :
    ((addReturns t).splitOn '\n').map dropReturn = t.splitOn '\n' := by
  induction lined t with
  | @last line plain =>
      rw [addReturns_eq_self plain, List.splitOn_eq_singleton plain, List.map_singleton, dropReturn_eq_self noReturn]
  | @more line rest plain after ih =>
      have hrest : '\r' ∉ rest := fun hmem => noReturn (List.mem_append_right _ (List.mem_cons_of_mem _ hmem))
      have hfeed : '\n' ∉ line ++ ['\r'] := by simp [plain]
      rw [addReturns_append_cons plain, List.splitOn_append_cons_self_of_not_mem hfeed,
        List.splitOn_append_cons_self_of_not_mem plain, List.map_cons, ih hrest, dropReturn_append_return]

end Text

open Text

/-! ### Files with either line break -/

namespace LineEnding

theorem detect_eq_lf {t : Text} (noReturn : '\r' ∉ t) : detect t = .lf := by
  fun_induction detect t with
  | case1 => rfl
  | case2 => rfl
  | case3 rest => simp at noReturn
  | case4 rest => rfl
  | case5 c rest _ _ _ ih => exact ih fun hmem => noReturn (List.mem_cons_of_mem _ hmem)

/-- A return before the first line feed shows in the line break. -/
theorem detect_append_crlf {line : Text} (plain : '\n' ∉ line) (rest : Text) :
    detect (line ++ '\r' :: '\n' :: rest) = .crlf := by
  induction line with
  | nil => rfl
  | cons c line ih =>
      obtain ⟨hfeed, hline⟩ := List.ne_and_not_mem_of_not_mem_cons plain
      rw [List.cons_append, detect]
      · exact ih hline
      · simp
      · -- What follows the first character starts with one of the line or with the return.
        rintro - rfl
        cases line with
        | nil => simp
        | cons next line =>
            have hnext : next ≠ '\n' := fun heq => hline (by simp [heq])
            simp [hnext]
      · exact Ne.symm hfeed

end LineEnding

namespace LineFile

/-- The lines of a file with another line break. -/
def withEnding (f : LineFile) (ending : LineEnding) : LineFile :=
  { f with ending }

/-- A file whose line feeds get returns has the same lines, and returns in its line break. -/
theorem parse_addReturns {t : Text} (noReturn : '\r' ∉ t) (feed : '\n' ∈ t) :
    parse (addReturns t) = (parse t).withEnding .crlf := by
  have hending : LineEnding.detect (addReturns t) = .crlf := by
    cases lined t with
    | last plain => exact absurd feed plain
    | @more line rest plain after =>
        rw [addReturns_append_cons plain, List.append_assoc]
        exact LineEnding.detect_append_crlf plain _
  have hlines : (parse t).lines = t.splitOn '\n' := by
    rw [parse, LineEnding.detect_eq_lf noReturn]
    exact List.map_id _
  rw [withEnding, hlines, ← map_dropReturn_splitOn_addReturns noReturn, parse, hending]
  rfl

/-! ### Edits of files with either line break -/

variable (path : Path) (f : LineFile) (ending : LineEnding)

theorem setLine_withEnding (line : Nat) (t : Text) :
    (f.withEnding ending).setLine line t = (f.setLine line t).withEnding ending := by
  cases line with
  | zero => rfl
  | succ n => rfl

theorem replaceSpan?_withEnding (line : Nat) (span : Span) (payload : Text) :
    (f.withEnding ending).replaceSpan? line span payload =
      (f.replaceSpan? line span payload).map (·.withEnding ending) := by
  have hline : (f.withEnding ending).line? line = f.line? line := rfl
  rw [replaceSpan?, replaceSpan?, hline]
  cases f.line? line with
  | none => rfl
  | some t =>
      cases hreplaced : replaceIn? t span payload with
      | none => simp [hreplaced]
      | some t' => simp [hreplaced, setLine_withEnding]

theorem patchSite_withEnding (line : Nat) (requirement : RequirementId) (payload : Text) :
    (f.withEnding ending).patchSite path line requirement payload =
      (f.patchSite path line requirement payload).map (·.withEnding ending) := by
  have hline : (f.withEnding ending).line? line = f.line? line := rfl
  unfold patchSite
  rw [hline]
  cases f.line? line with
  | none => rfl
  | some t =>
      simp only [replaceSpan?_withEnding]
      cases siteOn? line t requirement.name with
      | none => rfl
      | some site =>
          simp only [Option.bind_some]
          cases f.replaceSpan? line site.span payload with
          | none => rfl
          | some patched => rfl

theorem patchFootnote_withEnding (line : Nat) (requirement : RequirementId) (payload : Text) :
    (f.withEnding ending).patchFootnote path line requirement payload =
      (f.patchFootnote path line requirement payload).map (·.withEnding ending) := by
  have hline : (f.withEnding ending).line? line = f.line? line := rfl
  unfold patchFootnote
  rw [hline]
  cases f.line? line with
  | none => rfl
  | some t =>
      simp only [setLine_withEnding]
      split
      · rfl
      · rfl

/-- An edit finds and leaves the same lines, whatever the line break. -/
theorem patch_withEnding (a : Action) :
    (f.withEnding ending).patch path a = (f.patch path a).map (·.withEnding ending) := by
  cases a with
  | site _ line requirement payload => exact patchSite_withEnding path f ending line requirement payload
  | footnote _ line requirement payload =>
      cases line with
      | zero => rfl
      | succ n => exact patchFootnote_withEnding path f ending (n + 1) requirement payload
  | setHash _ _ _ => rfl
  | dropHash _ _ => rfl

theorem foldlM_patch_withEnding (actions : List Action) :
    actions.foldlM (patch path) (f.withEnding ending) =
      (actions.foldlM (patch path) f).map (·.withEnding ending) := by
  induction actions generalizing f with
  | nil => rfl
  | cons a actions ih =>
      rw [List.foldlM_cons, List.foldlM_cons, patch_withEnding]
      cases f.patch path a with
      | error error => rfl
      | ok next => exact ih next

theorem appendFootnotes_withEnding (footnotes : List Text) :
    (f.withEnding ending).appendFootnotes footnotes = (f.appendFootnotes footnotes).withEnding ending := by
  unfold appendFootnotes
  split
  · rfl
  · rfl

theorem applyAll_withEnding (actions : List Action) :
    (f.withEnding ending).applyAll path actions = (f.applyAll path actions).map (·.withEnding ending) := by
  rw [applyAll, applyAll, foldlM_patch_withEnding]
  cases actions.foldlM (patch path) f with
  | error error => rfl
  | ok patched => exact congrArg Except.ok (appendFootnotes_withEnding patched ending _)

end LineFile

/-! ### Lines without line feeds -/

/-- The text that an edit writes into a document. -/
def Action.payload? : Action → Option Text
  | site _ _ _ payload => some payload
  | footnote _ _ _ payload => some payload
  | setHash _ _ _ => none
  | dropHash _ _ => none

theorem LineEdit.plain {lines lines' : List Text} {a : Action} (h : LineEdit lines a lines')
    (plain : ∀ t ∈ lines, '\n' ∉ t) (payload : ∀ t ∈ a.payload?, '\n' ∉ t) : ∀ t ∈ lines', '\n' ∉ t := by
  intro t ht
  cases h with
  | @marker _ _ requirement text left right status _ _ line read first =>
      have hold := plain _ (List.mem_of_getElem? line)
      rcases List.mem_or_eq_of_mem_set ht with hkept | rfl
      · exact plain t hkept
      · have hnew := payload text rfl
        simp only [List.mem_append, not_or] at hold ⊢
        exact ⟨⟨hold.1.1, hnew⟩, hold.2⟩
  | @note _ _ _ text _ _ line read name =>
      rcases List.mem_or_eq_of_mem_set ht with hkept | rfl
      · exact plain t hkept
      · exact payload t rfl
  | later path requirement text => exact plain t ht
  | elsewhere manifest => exact plain t ht

/-- Edits put no line feed into a line if none of them writes one. -/
theorem LineEdits.plain {lines lines' : List Text} {actions : List Action} (h : LineEdits lines actions lines')
    (plain : ∀ t ∈ lines, '\n' ∉ t) (payloads : ∀ a ∈ actions, ∀ t ∈ a.payload?, '\n' ∉ t) :
    ∀ t ∈ lines', '\n' ∉ t := by
  induction h with
  | nil lines => exact plain
  | cons first rest ih =>
      obtain ⟨hfirst, hrest⟩ := List.forall_mem_cons.mp payloads
      exact ih (first.plain plain hfirst) hrest

/-- A new footnote is what some edit writes. -/
theorem exists_of_mem_newFootnotes {actions : List Action} {t : Text} (h : t ∈ newFootnotes actions) :
    ∃ a ∈ actions, a.payload? = some t := by
  obtain ⟨a, ha, hadded⟩ := List.mem_filterMap.mp h
  refine ⟨a, ha, ?_⟩
  cases a with
  | site _ _ _ _ => cases hadded
  | footnote _ line _ payload =>
      cases line with
      | zero => exact hadded
      | succ n => cases hadded
  | setHash _ _ _ => cases hadded
  | dropHash _ _ => cases hadded

/-- The edited lines hold no line feed, and the line break stays. -/
theorem LineFile.plain_applyAll {path : Path} {f f' : LineFile} {actions : List Action}
    (h : f.applyAll path actions = .ok f') (plain : ∀ t ∈ f.lines, '\n' ∉ t)
    (payloads : ∀ a ∈ actions, ∀ t ∈ a.payload?, '\n' ∉ t) :
    (∀ t ∈ f'.lines, '\n' ∉ t) ∧ f'.ending = f.ending := by
  obtain ⟨patched, hpatched, happended⟩ := bind_eq_ok_iff.mp h
  obtain rfl := Except.ok.inj happended
  obtain ⟨hedits, hending⟩ := lineEdits_of_foldlM_patch hpatched
  refine ⟨plain_appendFootnotes (hedits.plain plain payloads) fun t ht => ?_, ?_⟩
  · obtain ⟨a, ha, hpayload⟩ := exists_of_mem_newFootnotes ht
    exact payloads a ha t hpayload
  · rw [ending_appendFootnotes, hending]

/-! ### Documents with either line break -/

/-- Line breaks are no part of what a document says and of what edits do to it. If the line feeds of a document
    without returns all get one, the same is read, the same edits fail with the same errors, and where they succeed
    the text that they write has a return before each line feed and is the same apart from that. -/
theorem patchDocument_addReturns {t : Text} (noReturn : '\r' ∉ t) (feed : '\n' ∈ t) :
    ParsedDocument.parse (addReturns t) = ParsedDocument.parse t ∧
      ∀ (path : Path) (actions : List Action), (∀ a ∈ actions, ∀ payload ∈ a.payload?, '\n' ∉ payload) →
        patchDocument path (addReturns t) actions = (patchDocument path t actions).map addReturns := by
  refine ⟨?_, fun path actions payloads => ?_⟩
  · rw [ParsedDocument.parse, ParsedDocument.parse, lines_addReturns noReturn]
  · rw [patchDocument, patchDocument, LineFile.parse_addReturns noReturn feed, LineFile.applyAll_withEnding]
    cases happlied : (LineFile.parse t).applyAll path actions with
    | error error => rfl
    | ok applied =>
        obtain ⟨hplain, hending⟩ := LineFile.plain_applyAll happlied
          (fun line hline => LineFile.not_mem_of_mem_parse hline) payloads
        have hfeeds : applied.render = join ['\n'] applied.lines := by
          rw [LineFile.render, hending, LineFile.parse, LineEnding.detect_eq_lf noReturn]
          rfl
        have hrender : (applied.withEnding .crlf).render = addReturns applied.render := by
          rw [hfeeds, addReturns_join hplain]
          rfl
        exact congrArg Except.ok hrender

/-- A marker is replaced and a footnote added in place of the blank lines; the line of another edit is gone. -/
theorem patchDocument_addReturns_blank_end :
    let a : RequirementId := ⟨⟨['p'], by decide⟩, ⟨['A'], by decide⟩⟩
    let path : Path := ⟨"a.md".toList⟩
    let t := "of `~A~`.\n \n\n".toList
    let marker : Action := .site path 1 a "`~A~`covered[^~A~]✅".toList
    let note : Action := .footnote path 0 a "[^~A~]: `y`".toList
    let gone : Action := .footnote path 9 a "[^~A~]: `y`".toList
    '\r' ∉ t ∧ '\n' ∈ t ∧ (∀ e ∈ [marker, note, gone], ∀ payload ∈ e.payload?, '\n' ∉ payload) ∧
      ParsedDocument.parse (addReturns t) = ParsedDocument.parse t ∧
      patchDocument path (addReturns t) [marker, note] =
        .ok "of `~A~`covered[^~A~]✅.\r\n\r\n[^~A~]: `y`\r\n".toList ∧
      patchDocument path (addReturns t) [marker, gone] = .error (.lineDrift path 9) := by
  intro a path t marker note gone
  have noReturn : '\r' ∉ t := by decide
  have feed : '\n' ∈ t := by decide
  obtain ⟨hparse, hpatch⟩ := patchDocument_addReturns noReturn feed
  refine ⟨noReturn, feed, by decide, hparse, ?_, ?_⟩
  · rw [hpatch path [marker, note] (by decide)]
    decide +kernel
  · rw [hpatch path [marker, gone] (by decide)]
    decide +kernel

end ReqTrace
