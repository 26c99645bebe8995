/-
Module: ReqTrace.Proofs.Document.Located
Purpose: Where the parts of a document stand in its file. A document is read from lines that may keep a
  carriage return at their end, while its file has lines from which the returns of its own line break are
  gone, so the same number can lead to two different texts. What is read from them is the same, so a site
  or a footnote is found again in its file by its line and its place.
Main exports: LineFile.mem_bodyOf_iff, ParsedDocument.mem_sites_iff, ParsedDocument.mem_footnotes_iff,
  ParsedDocument.located_in_file
-/
import ReqTrace.Proofs.Document.Views

namespace ReqTrace

/-! ### Lines by their numbers -/

/-- The body of a document is read from the lines of its file that follow the header. -/
theorem LineFile.mem_bodyOf_iff {file : LineFile} {header : Header} {line : Nat} {l : BodyLine} :
    (line, l) ∈ ParsedDocument.bodyOf header file.lines ↔
      header.bodyStart < line ∧
        ∃ text, file.line? line = some text ∧ BodyLine.read line text = l := by
  rw [ParsedDocument.mem_bodyOf_iff]
  constructor
  · intro h
    obtain ⟨n, text, hbody, hget, rfl, hread⟩ := h
    exact ⟨Nat.lt_succ_of_le hbody, text, hget, hread⟩
  · intro h
    obtain ⟨hbody, text, hget, hread⟩ := h
    cases line with
    | zero => cases hget
    | succ n => exact ⟨n, text, Nat.le_of_lt_succ hbody, hget, rfl, hread⟩

/-! ### Documents and their files -/

namespace ParsedDocument

variable {file : LineFile}

/-- The sites of a document are the well-formed ones on the lines of its file that follow the header and are
    not footnotes. -/
theorem mem_sites_iff {s : Site} :
    s ∈ (ofLines file.lines).sites ↔
      (Header.ofLines file.lines).bodyStart < s.line ∧
        ∃ text, file.line? s.line = some text ∧ Footnote.isFootnoteLine text = false ∧
          .ok s ∈ Site.ofLine s.line text := by
  constructor
  · intro h
    obtain ⟨⟨line, l⟩, hbody, hs⟩ := List.mem_flatMap.mp h
    obtain ⟨hheader, text, hget, rfl⟩ := LineFile.mem_bodyOf_iff.mp hbody
    have hline : s.line = line := BodyLine.line_of_mem_siteList hs
    rw [hline]
    exact ⟨hheader, text, hget, BodyLine.mem_siteList_iff.mp hs⟩
  · intro h
    obtain ⟨hheader, text, hget, hs⟩ := h
    apply List.mem_flatMap_of_mem
    · exact LineFile.mem_bodyOf_iff.mpr ⟨hheader, text, hget, rfl⟩
    · exact BodyLine.mem_siteList_iff.mpr hs

theorem mem_allFootnotes_iff {header : Header} {note : Footnote} :
    note ∈ allFootnotes header file.lines ↔
      header.bodyStart < note.line ∧
        ∃ text, file.line? note.line = some text ∧ Footnote.ofLine? note.line text = some (.ok note) := by
  constructor
  · intro h
    obtain ⟨⟨line, l⟩, hbody, hnote⟩ := List.mem_filterMap.mp h
    obtain ⟨hheader, text, hget, rfl⟩ := LineFile.mem_bodyOf_iff.mp hbody
    have hread := BodyLine.footnote?_read_iff.mp hnote
    have hline : note.line = line := (Footnote.ofLine?_eq_ok hread).1
    rw [hline]
    exact ⟨hheader, text, hget, hread⟩
  · intro h
    obtain ⟨hheader, text, hget, hread⟩ := h
    apply List.mem_filterMap.mpr
    exact ⟨_, LineFile.mem_bodyOf_iff.mpr ⟨hheader, text, hget, rfl⟩,
      BodyLine.footnote?_read_iff.mpr hread⟩

/-- The footnotes of a document are the well-formed ones on the lines of its file that follow the header, but
    of those with one name the first only. -/
theorem mem_footnotes_iff {note : Footnote} :
    note ∈ (ofLines file.lines).footnotes ↔
      ((Header.ofLines file.lines).bodyStart < note.line ∧
        ∃ text, file.line? note.line = some text ∧ Footnote.ofLine? note.line text = some (.ok note)) ∧
      note.isFirst (allFootnotes (Header.ofLines file.lines) file.lines) = true := by
  rw [← mem_allFootnotes_iff]
  exact List.mem_filter

/-- Reading a text as a document and splitting it into the lines of a file agree, whichever line breaks the
    text mixes: every site stands on its line of the file, its span holds its marker, and the line read
    alone has the same site in the same place; every footnote is read again from its line. -/
theorem located_in_file (t : Text) :
    (∀ s ∈ (parse t).sites, ∃ text,
      (LineFile.parse t).line? s.line = some text ∧
        s.span.textIn? text = some (Site.render s.name s.status) ∧
        .ok s ∈ Site.ofLine s.line text) ∧
      ∀ note ∈ (parse t).footnotes, ∃ text,
        (LineFile.parse t).line? note.line = some text ∧
          Footnote.ofLine? note.line text = some (.ok note) := by
  rw [parse_eq_ofLines]
  constructor
  · intro s hs
    obtain ⟨-, text, hget, -, hread⟩ := mem_sites_iff.mp hs
    exact ⟨text, hget, Site.textIn?_of_mem hread, hread⟩
  · intro note hnote
    obtain ⟨⟨-, text, hget, hread⟩, -⟩ := mem_footnotes_iff.mp hnote
    exact ⟨text, hget, hread⟩

/-- Where the first line break has a carriage return, each line of the file loses one, also the last line,
    from which the document takes none away. -/
theorem located_in_file_mixed_returns :
    let t := "x\r\n`~A~`\r\r\n[^~A~]: `h`\r".toList
    let note : Footnote := ⟨⟨['A'], by decide⟩, 3, ['h'], [], "[^~A~]: `h`".toList⟩
    (∃ text, (LineFile.parse t).line? 2 = some text ∧
      Span.textIn? ⟨0, 5⟩ text = some "`~A~`".toList ∧
      .ok (Site.placed 2 0 ⟨['A'], by decide⟩ .bare) ∈ Site.ofLine 2 text) ∧
      ∃ text, (LineFile.parse t).line? 3 = some text ∧ Footnote.ofLine? 3 text = some (.ok note) := by
  intro t note
  have hsite : Site.placed 2 0 ⟨['A'], by decide⟩ .bare ∈ (parse t).sites := by decide
  have hnote : note ∈ (parse t).footnotes := by decide
  exact ⟨(located_in_file t).1 _ hsite, (located_in_file t).2 note hnote⟩

end ParsedDocument

end ReqTrace
