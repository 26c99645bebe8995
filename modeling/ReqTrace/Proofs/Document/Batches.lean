/-
Module: ReqTrace.Proofs.Document.Batches
Purpose: Footnotes that are added batch by batch. A batch leaves the file in the layout that the next batch starts
  from, so it makes no difference where a list of footnotes is cut, and no batch changes the sites of the document.
Main exports: LineFile.dropBlankEnd_append, LineFile.appendFootnotes_eq, ParsedDocument.parse_render_eq_flatMap,
  ParsedDocument.sites_append, LineFile.appendFootnotes_batches
-/
import ReqTrace.Proofs.Document.Edited

namespace ReqTrace

open Text

/-! ### The end of a file -/

namespace LineFile

/-- Lines that do not end with a blank one are what is left when blank lines after them go. -/
theorem dropBlankEnd_append {body blanks : List Text} (blank : ∀ t ∈ blanks, isBlank t = true)
    (last : ∀ t ∈ body.getLast?, isBlank t = false) : dropBlankEnd (body ++ blanks) = body := by
  have hbody : body.reverse.dropWhile isBlank = body.reverse := by
    cases hlast : body.reverse with
    | nil => rfl
    | cons t rest =>
        have ht : body.getLast? = some t := by rw [← List.head?_reverse, hlast, List.head?_cons]
        exact List.dropWhile_cons_of_neg (by simp [last t ht])
  rw [dropBlankEnd, List.reverse_append,
    List.dropWhile_append_of_pos fun t ht => blank t (List.mem_reverse.mp ht), hbody, List.reverse_reverse]

/-- A footnote is not blank. -/
theorem not_isBlank_of_footnote {t : Text} (h : Footnote.isFootnoteLine t = true) : isBlank t = false := by
  obtain ⟨rest, rfl⟩ := Footnote.exists_eq_cons h
  have hbracket : isBlankChar '[' = false := by decide
  simp [isBlank, hbracket]

theorem separator_eq_nil {body : List Text} (notes : ∀ t ∈ body.getLast?, Footnote.isFootnoteLine t = true) :
    separator body = [] := by
  rw [separator]
  cases hlast : body.getLast? with
  | none => rfl
  | some last => exact if_pos (notes last hlast)

/-- The lines of a file with new lines at its end. -/
theorem appendFootnotes_eq {f : LineFile} {body blanks xs : List Text} (lines : f.lines = body ++ blanks)
    (blank : ∀ t ∈ blanks, isBlank t = true) (last : ∀ t ∈ body.getLast?, isBlank t = false) (nonempty : xs ≠ []) :
    f.appendFootnotes xs = { f with lines := body ++ separator body ++ xs ++ [[]] } := by
  rw [appendFootnotes, if_neg (by simpa using nonempty), lines, dropBlankEnd_append blank last]

/-- The file as one batch of footnotes leaves it is ready for the next batch. -/
theorem appendFootnotes_append (f : LineFile) {xs : List Text} (nonempty : xs ≠ [])
    (notes : ∀ x ∈ xs, Footnote.isFootnoteLine x = true) (ys : List Text) :
    (f.appendFootnotes xs).appendFootnotes ys = f.appendFootnotes (xs ++ ys) := by
  by_cases hnone : ys = []
  · rw [hnone, List.append_nil]
    rfl
  · obtain ⟨blanks, hlines, hblank⟩ := exists_dropBlankEnd_eq f.lines
    have hlast := isBlank_getLast?_dropBlankEnd f.lines
    generalize dropBlankEnd f.lines = body at hlines hlast
    have hnote : ∀ t ∈ (body ++ separator body ++ xs).getLast?, Footnote.isFootnoteLine t = true := by
      rw [List.getLast?_append_of_ne_nil _ nonempty]
      exact fun t ht => notes t (List.mem_of_getLast? ht)
    have hfirst := appendFootnotes_eq hlines hblank hlast nonempty
    have hboth := appendFootnotes_eq hlines hblank hlast (List.append_ne_nil_of_left_ne_nil nonempty ys)
    have hsecond := appendFootnotes_eq (congrArg LineFile.lines hfirst) (List.forall_mem_singleton.mpr rfl)
      (fun t ht => not_isBlank_of_footnote (hnote t ht)) hnone
    rw [hsecond, hboth, separator_eq_nil hnote, hfirst]
    simp

end LineFile

/-! ### Sites -/

namespace ParsedDocument

/-- A file says what the texts between the line feeds in its lines say. -/
theorem parse_render_eq_flatMap (f : LineFile) : parse f.render = ofLines (f.lines.flatMap (·.splitOn '\n')) := by
  rw [parse_eq_ofLines_splitOn]
  by_cases hnone : f.lines = []
  · have hrender : f.render = [] := by
      rw [LineFile.render, hnone]
      rfl
    rw [hrender, hnone]
    exact ofLines_append_blank [] rfl
  · exact ofLines_congr (map_dropReturns_splitOn_render hnone)

/-- A line that neither is a fence nor holds a site. -/
structure Silent (t : Text) : Prop where
  fence : Header.isFence t = false
  sites : ∀ line, (BodyLine.read line t).siteList = []

theorem silent_of_isBlank {t : Text} (blank : isBlank t = true) : Silent t := by
  refine ⟨Header.not_isFence blank, fun line => ?_⟩
  rw [BodyLine.read_blank line blank]
  rfl

theorem silent_of_footnote {t : Text} (h : Footnote.isFootnoteLine t = true) : Silent t := by
  refine ⟨Header.not_isFence_of_footnote h, fun line => List.eq_nil_iff_forall_not_mem.mpr fun s hs => ?_⟩
  rw [(BodyLine.mem_siteList_iff.mp hs).1] at h
  cases h

/-- Silent lines at the end of a document leave its sites as they are. -/
theorem sites_append (lines : List Text) {more : List Text} (silent : ∀ t ∈ more, Silent t) :
    (ofLines (lines ++ more)).sites = (ofLines lines).sites := by
  have hheader := Header.ofLines_append lines fun t ht => (silent t ht).fence
  simp only [ofLines, hheader, bodyOf_append (Header.bodyStart_le_length lines), List.flatMap_append]
  refine List.append_right_eq_self.mpr (List.flatMap_eq_nil_iff.mpr fun entry hentry => ?_)
  obtain ⟨⟨t, line⟩, hmem, rfl⟩ := List.mem_map.mp hentry
  exact (silent t (List.fst_mem_of_mem_zipIdx hmem)).sites line

end ParsedDocument

open ParsedDocument

/-- The pieces of a blank line are blank, so they say nothing. -/
theorem Text.silent_of_mem_splitOn {t piece : Text} (blank : isBlank t = true) (h : piece ∈ t.splitOn '\n') :
    Silent piece :=
  silent_of_isBlank (List.all_eq_true.mpr fun c hc => List.all_eq_true.mp blank c (of_mem_splitOnP h c hc).1)

namespace LineFile

/-- The sites of a file are those of its first lines if the other ones are silent. -/
theorem sites_parse_render {f : LineFile} {body more : List Text} (lines : f.lines = body ++ more)
    (silent : ∀ t ∈ more, ∀ piece ∈ t.splitOn '\n', Silent piece) :
    (ParsedDocument.parse f.render).sites = (ofLines (body.flatMap (·.splitOn '\n'))).sites := by
  rw [parse_render_eq_flatMap, lines, List.flatMap_append, sites_append]
  intro piece hpiece
  obtain ⟨t, ht, hpiece⟩ := List.mem_flatMap.mp hpiece
  exact silent t ht piece hpiece

/-- Neither the added lines nor the blank ones that go hold a site. -/
theorem sites_appendFootnotes (f : LineFile) {xs : List Text} (nonempty : xs ≠ [])
    (notes : ∀ x ∈ xs, Footnote.isFootnoteLine x = true) (plain : ∀ x ∈ xs, '\n' ∉ x) :
    (ParsedDocument.parse (f.appendFootnotes xs).render).sites = (ParsedDocument.parse f.render).sites := by
  obtain ⟨blanks, hlines, hblank⟩ := exists_dropBlankEnd_eq f.lines
  have hlast := isBlank_getLast?_dropBlankEnd f.lines
  generalize dropBlankEnd f.lines = body at hlines hlast
  have happended : (f.appendFootnotes xs).lines = body ++ (separator body ++ xs ++ [[]]) := by
    rw [appendFootnotes_eq hlines hblank hlast nonempty]
    simp
  rw [sites_parse_render happended, sites_parse_render hlines fun t ht piece => silent_of_mem_splitOn (hblank t ht)]
  intro t ht piece hpiece
  simp only [List.mem_append, List.mem_singleton] at ht
  rcases ht with (ht | ht) | rfl
  · rw [eq_nil_of_mem_separator ht] at hpiece
    exact silent_of_mem_splitOn rfl hpiece
  · rw [List.splitOn_eq_singleton (plain t ht), List.mem_singleton] at hpiece
    rw [hpiece]
    exact silent_of_footnote (notes t ht)
  · exact silent_of_mem_splitOn rfl hpiece

/-- Footnotes can be added in two batches as well as in one. After a batch the file has its old lines without the
    blank ones at the end, an empty line if there are lines left that do not end with a footnote, the new lines, and
    an empty line. The sites of the document are where they were. -/
theorem appendFootnotes_batches (f : LineFile) {xs : List Text} (nonempty : xs ≠ [])
    (notes : ∀ x ∈ xs, Footnote.isFootnoteLine x = true) :
    (∀ ys, (f.appendFootnotes xs).appendFootnotes ys = f.appendFootnotes (xs ++ ys)) ∧
      (f.appendFootnotes xs).ending = f.ending ∧ AddedAtEnd f.lines xs (f.appendFootnotes xs).lines ∧
      ((∀ x ∈ xs, '\n' ∉ x) → (ParsedDocument.parse (f.appendFootnotes xs).render).sites =
        (ParsedDocument.parse f.render).sites) :=
  ⟨f.appendFootnotes_append nonempty notes, f.ending_appendFootnotes xs, f.addedAtEnd_appendFootnotes nonempty,
    f.sites_appendFootnotes nonempty notes⟩

/-- Two footnotes are added one after the other to a body with blank lines at its end, one of them empty and the other
    one not. -/
theorem appendFootnotes_batches_blank_end :
    let f : LineFile := .parse "of `~A~`.\r\n\r\n\u3000\t\r\n".toList
    let a := "[^~A~]: `x`".toList
    let b := "[^~B~]: `y`".toList
    Footnote.isFootnoteLine a = true ∧
      (f.appendFootnotes [a]).appendFootnotes [b] = f.appendFootnotes [a, b] ∧
      (f.appendFootnotes [a, b]).render = "of `~A~`.\r\n\r\n[^~A~]: `x`\r\n[^~B~]: `y`\r\n".toList ∧
      (ParsedDocument.parse (f.appendFootnotes [a]).render).sites = [Site.placed 1 3 ⟨['A'], by decide⟩ .bare] := by
  intro f a b
  have hnote : Footnote.isFootnoteLine a = true := by decide
  obtain ⟨hbatches, -, -, hsites⟩ := f.appendFootnotes_batches (List.cons_ne_nil a [])
    (List.forall_mem_singleton.mpr hnote)
  refine ⟨hnote, hbatches [b], by decide +kernel, ?_⟩
  rw [hsites (by decide)]
  decide +kernel

end LineFile

end ReqTrace
