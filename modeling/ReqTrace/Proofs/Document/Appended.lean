/-
Module: ReqTrace.Proofs.Document.Appended
Purpose: Footnotes that are added to a document. Blank lines at its end go, but no line of it that says
  something, and the added lines say nothing but their footnotes.
Main exports: viewsFrom, LineFile.exists_dropBlankEnd_eq, LineFile.Appended, LineFile.appended,
  LineFile.plain_appendFootnotes
-/
import ReqTrace.Proofs.Document.Views

namespace ReqTrace

open Text

/-! ### Views of added lines -/

/-- What lines say whose numbers start at `first`. -/
def viewsFrom (first : Nat) (lines : List Text) : List (Nat × LineView) :=
  (lines.zipIdx first).map fun (t, line) => (line, (BodyLine.read line t).view)

theorem viewsFrom_append (first : Nat) (lines more : List Text) :
    viewsFrom first (lines ++ more) = viewsFrom first lines ++ viewsFrom (first + lines.length) more := by
  rw [viewsFrom, List.zipIdx_append, List.map_append]
  rfl

theorem views_append (header : Header) {lines : List Text} (h : header.bodyStart ≤ lines.length)
    (more : List Text) :
    views header (lines ++ more) = views header lines ++ viewsFrom (lines.length + 1) more := by
  rw [views, ParsedDocument.bodyOf_append h, List.map_append, List.map_map]
  rfl

/-- A line that holds neither a site nor a footnote. -/
theorem view_read_blank (line : Nat) {t : Text} (blank : isBlank t = true) :
    (BodyLine.read line t).view = .sites [] := by
  rw [BodyLine.read_blank line blank]
  rfl

theorem viewsFrom_blank (first : Nat) {lines : List Text} (blank : ∀ t ∈ lines, isBlank t = true) :
    ∀ entry ∈ viewsFrom first lines, entry.2 = .sites [] := by
  intro entry hentry
  obtain ⟨⟨t, line⟩, hmem, rfl⟩ := List.mem_map.mp hentry
  exact view_read_blank line (blank t (List.fst_mem_of_mem_zipIdx hmem))

theorem siteKeys_blank {body : List (Nat × LineView)} (blank : ∀ entry ∈ body, entry.2 = .sites []) :
    siteKeys body = [] := by
  refine List.flatMap_eq_nil_iff.mpr ?_
  rintro ⟨line, v⟩ hentry
  obtain rfl : v = .sites [] := blank _ hentry
  rfl

theorem noteKeys_blank {body : List (Nat × LineView)} (blank : ∀ entry ∈ body, entry.2 = .sites []) :
    noteKeys body = [] := by
  refine List.filterMap_eq_nil_iff.mpr ?_
  rintro ⟨line, v⟩ hentry
  obtain rfl : v = .sites [] := blank _ hentry
  rfl

/-- Names of footnotes with their lines as written, wherever these stand. -/
def AreFootnotes (added : List (Identifier × Text)) : Prop :=
  ∀ a ∈ added, ∀ line, (BodyLine.read line a.2).view = .footnote a.1 a.2

theorem viewsFrom_footnotes {added : List (Identifier × Text)} (h : AreFootnotes added) (first : Nat) :
    viewsFrom first (added.map Prod.snd) =
      (added.zipIdx first).map fun (a, line) => (line, .footnote a.1 a.2) := by
  rw [viewsFrom, List.zipIdx_map, List.map_map]
  refine List.map_congr_left ?_
  rintro ⟨a, line⟩ hmem
  exact congrArg (Prod.mk line) (h a (List.fst_mem_of_mem_zipIdx hmem) line)

theorem siteKeys_footnotes (added : List (Identifier × Text)) (first : Nat) :
    siteKeys ((added.zipIdx first).map fun (a, line) => (line, .footnote a.1 a.2)) = [] := by
  refine List.flatMap_eq_nil_iff.mpr fun entry hentry => ?_
  obtain ⟨a, -, rfl⟩ := List.mem_map.mp hentry
  rfl

theorem noteKeys_footnotes (added : List (Identifier × Text)) (first : Nat) :
    noteKeys ((added.zipIdx first).map fun (a, line) => (line, .footnote a.1 a.2)) =
      (added.zipIdx first).map fun (a, line) => (a.1, line, a.2) := by
  rw [noteKeys, List.filterMap_map, ← List.filterMap_eq_map]
  rfl

/-! ### Files with footnotes added -/

namespace LineFile

/-- Only blank lines go at the end of a file. -/
theorem exists_dropBlankEnd_eq (lines : List Text) :
    ∃ blanks, lines = dropBlankEnd lines ++ blanks ∧ ∀ t ∈ blanks, isBlank t = true := by
  refine ⟨(lines.reverse.takeWhile isBlank).reverse, ?_, fun t ht => ?_⟩
  · rw [dropBlankEnd, ← List.reverse_append, List.takeWhile_append_dropWhile, List.reverse_reverse]
  · exact List.mem_takeWhile_imp (List.mem_reverse.mp ht)

theorem isBlank_getLast?_dropBlankEnd (lines : List Text) :
    ∀ last ∈ (dropBlankEnd lines).getLast?, isBlank last = false := by
  intro last hlast
  rw [dropBlankEnd, List.getLast?_reverse] at hlast
  have hfirst := List.head?_dropWhile_not isBlank lines.reverse
  rw [hlast] at hfirst
  exact hfirst

/-- An empty line is put after lines that do not end with a footnote, unless there are none. -/
theorem separator_eq (body : List Text) :
    separator body = if body.getLast?.any (!Footnote.isFootnoteLine ·) then [[]] else [] := by
  rw [separator]
  cases body.getLast? with
  | none => rfl
  | some last => cases hlast : Footnote.isFootnoteLine last <;> simp [hlast]

theorem eq_nil_of_mem_separator {body : List Text} {t : Text} (h : t ∈ separator body) : t = [] := by
  rw [separator_eq] at h
  split at h
  · exact List.mem_singleton.mp h
  · cases h

/-- The header of a document is no part of the blank lines at its end. -/
theorem bodyStart_le_length_dropBlankEnd (lines : List Text) :
    (Header.ofLines lines).bodyStart ≤ (dropBlankEnd lines).length := by
  obtain ⟨blanks, hsplit, hblank⟩ := exists_dropBlankEnd_eq lines
  have hheader := Header.ofLines_append_blank (dropBlankEnd lines) hblank
  rw [← hsplit] at hheader
  rw [hheader]
  exact Header.bodyStart_le_length (dropBlankEnd lines)

/-- What a document says after footnotes have been added to it. -/
structure Appended (header : Header) (lines new : List Text) (added : List (Identifier × Text)) :
    Prop where
  ofLines : Header.ofLines new = header
  sites : siteKeys (views header new) = siteKeys (views header lines)
  notes : ∃ first, noteKeys (views header new) =
    noteKeys (views header lines) ++ (added.zipIdx first).map fun (a, line) => (a.1, line, a.2)
  wellFormed : (∀ entry ∈ views header lines, entry.2 ≠ .malformed) →
    ∀ entry ∈ views header new, entry.2 ≠ .malformed

theorem Appended.noteNames {header : Header} {lines new : List Text} {added : List (Identifier × Text)}
    (h : Appended header lines new added) : (noteKeys (views header new)).map Prod.fst =
      (noteKeys (views header lines)).map Prod.fst ++ added.map Prod.fst := by
  obtain ⟨first, hnotes⟩ := h.notes
  rw [hnotes, List.map_append, List.map_map, ← List.zipIdx_map_fst first added, List.map_map,
    List.zipIdx_map_fst]
  rfl

theorem isBlank_of_mem_separator {body : List Text} : ∀ t ∈ separator body, isBlank t = true := by
  intro t ht
  rw [eq_nil_of_mem_separator ht]
  rfl

theorem lines_appendFootnotes (f : LineFile) {footnotes : List Text} (hsome : footnotes ≠ []) :
    (f.appendFootnotes footnotes).lines = dropBlankEnd f.lines ++
      (separator (dropBlankEnd f.lines) ++ (footnotes ++ [[]])) := by
  simp [appendFootnotes, hsome]

/-- Added footnotes leave the header as it is, whatever it says. -/
theorem ofLines_appendFootnotes (f : LineFile) {added : List (Identifier × Text)} (hadded : AreFootnotes added)
    (hsome : added.map Prod.snd ≠ []) :
    Header.ofLines (f.appendFootnotes (added.map Prod.snd)).lines = Header.ofLines f.lines := by
  obtain ⟨blanks, hsplit, hblank⟩ := exists_dropBlankEnd_eq f.lines
  have hheader := Header.ofLines_append_blank (dropBlankEnd f.lines) hblank
  rw [← hsplit] at hheader
  rw [lines_appendFootnotes f hsome, hheader]
  refine Header.ofLines_append _ fun t ht => ?_
  simp only [List.mem_append, List.mem_singleton] at ht
  rcases ht with ht | ht | rfl
  · exact Header.not_isFence (isBlank_of_mem_separator t ht)
  · obtain ⟨a, ha, rfl⟩ := List.mem_map.mp ht
    exact Header.not_isFence_of_footnote (isFootnoteLine_of_view (hadded a ha 0))
  · rfl

/-- The lines of a document before and after footnotes have been added: up to lines that say nothing, the
    footnotes come behind what was there. -/
theorem exists_views_appendFootnotes (f : LineFile) {added : List (Identifier × Text)}
    (hadded : AreFootnotes added) (hsome : added.map Prod.snd ≠ []) :
    ∃ kept blanks between last first, views (Header.ofLines f.lines) f.lines = kept ++ blanks ∧
      views (Header.ofLines f.lines) (f.appendFootnotes (added.map Prod.snd)).lines = kept ++
        (between ++ (((added.zipIdx first).map fun (a, line) => (line, .footnote a.1 a.2)) ++ last)) ∧
      (∀ entry ∈ blanks, entry.2 = .sites []) ∧ (∀ entry ∈ between, entry.2 = .sites []) ∧
      ∀ entry ∈ last, entry.2 = .sites [] := by
  obtain ⟨blanks, hsplit, hblank⟩ := exists_dropBlankEnd_eq f.lines
  have hlength := bodyStart_le_length_dropBlankEnd f.lines
  have hold := views_append _ hlength blanks
  rw [← hsplit] at hold
  have hnew := views_append _ hlength (separator (dropBlankEnd f.lines) ++ (added.map Prod.snd ++ [[]]))
  rw [← lines_appendFootnotes f hsome, viewsFrom_append, viewsFrom_append, viewsFrom_footnotes hadded] at hnew
  have hempty : ∀ t ∈ [([] : Text)], isBlank t = true := fun t ht => by
    rw [List.mem_singleton.mp ht]
    rfl
  exact ⟨_, _, _, _, _, hold, hnew, viewsFrom_blank _ hblank, viewsFrom_blank _ isBlank_of_mem_separator,
    viewsFrom_blank _ hempty⟩

theorem appended (f : LineFile) {added : List (Identifier × Text)} (hadded : AreFootnotes added) :
    Appended (Header.ofLines f.lines) f.lines (f.appendFootnotes (added.map Prod.snd)).lines added := by
  by_cases hnone : added = []
  · subst hnone
    exact ⟨rfl, rfl, ⟨0, by simp [appendFootnotes]⟩, fun hwell => hwell⟩
  · have hsome : added.map Prod.snd ≠ [] := by simpa using hnone
    obtain ⟨kept, blanks, between, last, first, hold, hnew, hblanks, hbetween, hlast⟩ :=
      exists_views_appendFootnotes f hadded hsome
    refine ⟨ofLines_appendFootnotes f hadded hsome, ?_, ⟨first, ?_⟩, fun hwell entry hentry => ?_⟩
    · rw [hnew, hold]
      simp only [siteKeys_append, siteKeys_blank hblanks, siteKeys_blank hbetween, siteKeys_blank hlast,
        siteKeys_footnotes, List.append_nil]
    · rw [hnew, hold]
      simp only [noteKeys_append, noteKeys_blank hblanks, noteKeys_blank hbetween, noteKeys_blank hlast,
        noteKeys_footnotes, List.append_nil, List.nil_append]
    · rw [hold] at hwell
      rw [hnew] at hentry
      simp only [List.mem_append] at hentry
      rcases hentry with hentry | hentry | hentry | hentry
      · exact hwell entry (List.mem_append_left _ hentry)
      · rw [hbetween entry hentry]
        simp
      · obtain ⟨a, -, rfl⟩ := List.mem_map.mp hentry
        simp
      · rw [hlast entry hentry]
        simp

theorem plain_appendFootnotes {f : LineFile} (plain : ∀ t ∈ f.lines, '\n' ∉ t) {footnotes : List Text}
    (hfootnotes : ∀ t ∈ footnotes, '\n' ∉ t) :
    ∀ t ∈ (f.appendFootnotes footnotes).lines, '\n' ∉ t := by
  intro t ht
  unfold appendFootnotes at ht
  split at ht
  · exact plain t ht
  · obtain ⟨blanks, hsplit, -⟩ := exists_dropBlankEnd_eq f.lines
    simp only [List.mem_append, List.mem_singleton] at ht
    rcases ht with ((ht | ht) | ht) | rfl
    · exact plain t (by rw [hsplit]; exact List.mem_append_left _ ht)
    · rw [eq_nil_of_mem_separator ht]
      simp
    · exact hfootnotes t ht
    · simp

theorem appendFootnotes_ne_nil {f : LineFile} (nonempty : f.lines ≠ []) (footnotes : List Text) :
    (f.appendFootnotes footnotes).lines ≠ [] := by
  unfold appendFootnotes
  split
  · exact nonempty
  · simp

end LineFile

end ReqTrace
