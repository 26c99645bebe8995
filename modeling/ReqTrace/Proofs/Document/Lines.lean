/-
Module: ReqTrace.Proofs.Document.Lines
Purpose: Documents line by line. A document says what its lines say, whichever of its line breaks have a
  carriage return, so it says the same before it is split into lines and after these are joined again.
Main exports: Header.ofLines_append, ParsedDocument.ofLines_append_blank, Header.ofLines_eq_declared_iff,
  ParsedDocument.parse_eq_ofLines, ParsedDocument.parse_render
-/
import ReqTrace.LineFile
import ReqTrace.Proofs.Document.Footnote
import ReqTrace.Proofs.Document.Returns
import ReqTrace.Proofs.Document.SiteLine

namespace ReqTrace

open Text

/-! ### Blank lines -/

theorem Site.ofLine_eq_nil (line : Nat) {t : Text} (plain : '`' ∉ t) : ofLine line t = [] := by
  have hnone := occurrencesFrom_append_of_none (s := t) (t := []) 0
    fun c hc rest => read?_eq_none (fun heq => plain (heq ▸ hc)) rest
  rw [List.append_nil] at hnone
  rw [ofLine, occurrences, hnone]
  rfl

theorem Text.not_mem_of_isBlank {t : Text} (blank : isBlank t = true) {c : Char}
    (hc : isBlankChar c = false) : c ∉ t := by
  intro hmem
  rw [List.all_eq_true.mp blank c hmem] at hc
  cases hc

theorem BodyLine.read_blank (line : Nat) {t : Text} (blank : isBlank t = true) :
    read line t = .sites [] := by
  have hshape : Footnote.shape? t = none := by
    refine Option.eq_none_iff_forall_ne_some.mpr ?_
    rintro ⟨name, body⟩ heq
    refine not_mem_of_isBlank blank (by decide : isBlankChar '[' = false) ?_
    rw [(Footnote.shape?_eq_some_iff.mp heq).1]
    exact List.mem_cons_self
  have hsites := Site.ofLine_eq_nil line (not_mem_of_isBlank blank (by decide : isBlankChar '`' = false))
  simp [read, Footnote.ofLine?, hshape, hsites]

theorem Header.not_isFence {t : Text} (blank : isBlank t = true) : isFence t = false := by
  have hstart : trimStart t = [] := List.dropWhile_eq_nil_iff.mpr (List.all_eq_true.mp blank)
  rw [isFence, hstart]
  decide

/-- A line that is shaped like a footnote starts with a bracket. -/
theorem Footnote.exists_eq_cons {t : Text} (h : isFootnoteLine t = true) : ∃ rest, t = '[' :: rest := by
  obtain ⟨⟨name, body⟩, hshape⟩ := Option.isSome_iff_exists.mp h
  exact ⟨_, (shape?_eq_some_iff.mp hshape).1⟩

theorem Header.not_isFence_of_footnote {t : Text} (h : Footnote.isFootnoteLine t = true) :
    isFence t = false := by
  obtain ⟨rest, rfl⟩ := Footnote.exists_eq_cons h
  have hbracket : isBlankChar '[' = false := by decide
  have hstart : trimStart ('[' :: rest) = '[' :: rest := List.dropWhile_cons_of_neg (by simp [hbracket])
  rw [isFence, hstart]
  rfl

/-- What follows the leading blank lines when lines are added: lines of the addition only, or what followed
    them before and the addition. -/
theorem Text.drop_takeWhile_isBlank_append (lines tail : List Text) :
    (lines.drop (lines.takeWhile isBlank).length = [] ∧
        (lines ++ tail).drop ((lines ++ tail).takeWhile isBlank).length ⊆ tail) ∨
      ((lines ++ tail).takeWhile isBlank).length = (lines.takeWhile isBlank).length ∧
        (lines ++ tail).drop (lines.takeWhile isBlank).length =
          lines.drop (lines.takeWhile isBlank).length ++ tail := by
  have hlength : (lines.takeWhile isBlank).length ≤ lines.length :=
    (List.takeWhile_prefix isBlank).length_le
  rw [List.takeWhile_append]
  split
  · rename_i hall
    refine .inl ⟨by simp [hall], ?_⟩
    rw [List.length_append, List.drop_length_add_append]
    exact List.drop_subset _ _
  · exact .inr ⟨rfl, List.drop_append_of_le_length hlength⟩

/-- Lines at the end do not belong to the header if no fence is among them. -/
theorem Header.ofLines_append (lines : List Text) {tail : List Text} (h : ∀ t ∈ tail, isFence t = false) :
    ofLines (lines ++ tail) = ofLines lines := by
  rcases drop_takeWhile_isBlank_append lines tail with ⟨hall, hsubset⟩ | ⟨hstart, hdrop⟩
  · simp only [ofLines, hall]
    split
    · rename_i opening _ _ _ hlonger
      rw [hlonger] at hsubset
      rw [if_neg (by simp [h opening (hsubset List.mem_cons_self)])]
    · rfl
  · simp only [ofLines, hstart, hdrop]
    -- The closing fence would be one of the lines that are added.
    rcases lines.drop (lines.takeWhile isBlank).length with - | ⟨_, - | ⟨_, - | ⟨_, _⟩⟩⟩
    · split
      · rename_i opening _ _ _ htail
        have hopening := h opening (by rw [← List.nil_append tail, htail]; exact List.mem_cons_self)
        rw [if_neg (by simp [hopening])]
      · rfl
    · split
      · rename_i closing _ htail
        cases htail
        rw [if_neg (by simp [h closing (by simp)])]
      · rfl
    · split
      · rename_i closing _ htail
        cases htail
        rw [if_neg (by simp [h closing (by simp)])]
      · rfl
    · rfl

theorem Header.ofLines_append_blank (lines : List Text) {blanks : List Text}
    (blank : ∀ t ∈ blanks, isBlank t = true) : ofLines (lines ++ blanks) = ofLines lines :=
  ofLines_append lines fun t ht => not_isFence (blank t ht)

theorem Header.bodyStart_le_length (lines : List Text) : (ofLines lines).bodyStart ≤ lines.length := by
  have hlength := List.length_drop (i := (lines.takeWhile isBlank).length) (l := lines)
  simp only [ofLines]
  split
  · rename_i opening inner closing rest hdrop
    rw [hdrop] at hlength
    simp only [List.length_cons] at hlength
    split
    · split
      · exact Nat.zero_le _
      · split
        · simp only [bodyStart]
          omega
        · simp only [bodyStart]
          omega
    · exact Nat.zero_le _
  · exact Nat.zero_le _

/-- The lines of a body and the lines that are added to it. -/
theorem ParsedDocument.bodyOf_append {header : Header} {lines : List Text}
    (h : header.bodyStart ≤ lines.length) (more : List Text) :
    bodyOf header (lines ++ more) =
      bodyOf header lines ++ (more.zipIdx (lines.length + 1)).map fun (t, line) =>
        (line, BodyLine.read line t) := by
  have hline : header.bodyStart + 1 + (lines.length - header.bodyStart) = lines.length + 1 := by omega
  rw [bodyOf, List.drop_append_of_le_length h, List.zipIdx_append, List.map_append, List.length_drop,
    hline]
  rfl

/-- A blank line at the end of a document says nothing. -/
theorem ParsedDocument.ofLines_append_blank (lines : List Text) {t : Text} (blank : isBlank t = true) :
    ofLines (lines ++ [t]) = ofLines lines := by
  have hbody := bodyOf_append (Header.bodyStart_le_length lines) [t]
  simp only [List.zipIdx_cons, List.zipIdx_nil, List.map_cons, List.map_nil,
    BodyLine.read_blank _ blank] at hbody
  have hnone : (BodyLine.sites []).footnote? = none ∧ (BodyLine.sites []).siteList = [] ∧
      ∀ all, (BodyLine.sites []).faults all = [] := ⟨rfl, rfl, fun _ => rfl⟩
  have hheader := Header.ofLines_append_blank lines (List.forall_mem_singleton.mpr blank)
  simp [ofLines, hheader, hbody, hnone]

/-! ### Headers -/

/-- A header that declares a package is read from the lines up to its closing fence. -/
theorem Header.ofLines_eq_declared_iff {lines : List Text} {package : Identifier} {bodyStart : Nat} :
    ofLines lines = declared package bodyStart ↔
      ∃ blanks opening inner closing rest value,
        lines = blanks ++ opening :: inner :: closing :: rest ∧ (∀ t ∈ blanks, isBlank t = true) ∧
        isFence opening = true ∧ isFence closing = true ∧
        dropLead? packageKey (trim inner) = some value ∧
        Identifier.parse? (trim value) = some package ∧ bodyStart = blanks.length + 3 := by
  constructor
  · intro h
    simp only [ofLines] at h
    split at h
    · rename_i opening inner closing rest hdrop
      split at h
      · rename_i hfence
        split at h
        · cases h
        · rename_i value hvalue
          split at h
          · rename_i package' hpackage
            cases h
            refine ⟨lines.takeWhile isBlank, opening, inner, closing, rest, value, ?_,
              fun t ht => List.mem_takeWhile_imp ht, hfence.1, hfence.2, hvalue, hpackage, rfl⟩
            have htake := List.prefix_iff_eq_take.mp (List.takeWhile_prefix isBlank (l := lines))
            have hsplit := List.take_append_drop (lines.takeWhile isBlank).length lines
            rw [← htake, hdrop] at hsplit
            exact hsplit.symm
          · cases h
      · cases h
    · cases h
  · rintro ⟨blanks, opening, inner, closing, rest, value, rfl, blank, hopening, hclosing, hvalue,
      hpackage, rfl⟩
    have hstop : isBlank opening = false := by
      refine Bool.eq_false_iff.mpr fun heq => ?_
      rw [not_isFence heq] at hopening
      cases hopening
    have hstart : (blanks ++ opening :: inner :: closing :: rest).takeWhile isBlank = blanks := by
      rw [List.takeWhile_append_of_pos blank]
      simp [hstop]
    simp [ofLines, hstart, hopening, hclosing, hvalue, hpackage]

/-- A header does not depend on what follows it. -/
theorem Header.ofLines_of_take_eq {lines lines' : List Text} {package : Identifier} {bodyStart : Nat}
    (h : ofLines lines = declared package bodyStart)
    (same : lines'.take bodyStart = lines.take bodyStart) :
    ofLines lines' = declared package bodyStart := by
  obtain ⟨blanks, opening, inner, closing, rest, value, rfl, blank, hopening, hclosing, hvalue,
    hpackage, rfl⟩ := ofLines_eq_declared_iff.mp h
  refine ofLines_eq_declared_iff.mpr ⟨blanks, opening, inner, closing, lines'.drop (blanks.length + 3),
    value, ?_, blank, hopening, hclosing, hvalue, hpackage, rfl⟩
  have hfirst : (blanks ++ opening :: inner :: closing :: rest).take (blanks.length + 3) =
      blanks ++ [opening, inner, closing] := by
    rw [List.take_length_add_append]
    rfl
  have hsplit := List.take_append_drop (blanks.length + 3) lines'
  rw [same, hfirst] at hsplit
  exact hsplit.symm.trans (by simp)

/-! ### Splitting and joining -/

theorem LineEnding.dropReturns_strip (ending : LineEnding) (t : Text) :
    dropReturns (ending.strip t) = dropReturns t := by
  cases ending with
  | lf => rfl
  | crlf => exact dropReturns_dropReturn t

namespace ParsedDocument

theorem ofLines_congr {lines lines' : List Text} (h : lines.map dropReturns = lines'.map dropReturns) :
    ofLines lines = ofLines lines' := by
  rw [← ofLines_map_dropReturns lines, h, ofLines_map_dropReturns]

/-- The lines of a document are the texts between its line feeds, up to carriage returns and but for an empty
    one at the end. -/
theorem map_dropReturns_splitOn (t : Text) :
    (t.splitOn '\n').map dropReturns = (Text.lines t).map dropReturns ∨
      (t.splitOn '\n').map dropReturns = (Text.lines t).map dropReturns ++ [[]] := by
  obtain ⟨before, last, hsplit⟩ := (List.eq_nil_or_concat (t.splitOn '\n')).resolve_left
    (List.splitOn_ne_nil '\n' t)
  rw [List.concat_eq_append] at hsplit
  have hlines : Text.lines t = before.map dropReturn ++ [last].filter (! ·.isEmpty) := by
    simp [Text.lines, hsplit]
  cases last with
  | nil => exact .inr (by simp [hlines, hsplit, show dropReturns [] = [] from rfl])
  | cons c last => exact .inl (by simp [hlines, hsplit])

theorem map_dropReturns_splitOn_append_return (t : Text) :
    ((t ++ ['\r']).splitOn '\n').map dropReturns = (t.splitOn '\n').map dropReturns := by
  induction lined t with
  | @last line plain =>
      have hfeed : '\n' ∉ line ++ ['\r'] := by simp [plain]
      simp [List.splitOn_eq_singleton plain, List.splitOn_eq_singleton hfeed]
  | @more line rest plain after ih =>
      rw [List.append_assoc, List.cons_append, List.splitOn_append_cons_self, List.splitOn_append_cons_self,
        List.map_append, List.map_append, ih]

theorem map_dropReturns_parse (t : Text) :
    (LineFile.parse t).lines.map dropReturns = (t.splitOn '\n').map dropReturns := by
  simp only [LineFile.parse, List.map_map]
  exact List.map_congr_left fun line _ => LineEnding.dropReturns_strip _ line

/-- The header of a document is read from the lines of its file. -/
theorem header_eq_ofLines (t : Text) :
    Header.ofLines (Text.lines t) = Header.ofLines (LineFile.parse t).lines := by
  rw [← Header.ofLines_map_dropReturns, ← Header.ofLines_map_dropReturns (LineFile.parse t).lines,
    map_dropReturns_parse]
  rcases map_dropReturns_splitOn t with hsame | hlonger
  · rw [hsame]
  · rw [hlonger, Header.ofLines_append_blank _ (List.forall_mem_singleton.mpr rfl)]

/-- A document says what the texts between its line feeds say. -/
theorem parse_eq_ofLines_splitOn (t : Text) : parse t = ofLines (t.splitOn '\n') := by
  rw [parse, ← ofLines_map_dropReturns, ← ofLines_map_dropReturns (t.splitOn '\n')]
  rcases map_dropReturns_splitOn t with hsame | hlonger
  · rw [hsame]
  · rw [hlonger, ofLines_append_blank _ rfl]

/-- Splitting a file into lines changes nothing of what it says. -/
theorem parse_eq_ofLines (t : Text) : parse t = ofLines (LineFile.parse t).lines := by
  rw [parse_eq_ofLines_splitOn]
  exact ofLines_congr (map_dropReturns_parse t).symm

/-- The line break of a file, with or without a carriage return, stands between its lines. -/
theorem map_dropReturns_splitOn_render {f : LineFile} (nonempty : f.lines ≠ []) :
    (f.render.splitOn '\n').map dropReturns = (f.lines.flatMap (·.splitOn '\n')).map dropReturns := by
  obtain ⟨lines, ending⟩ := f
  obtain ⟨first, others, rfl⟩ := List.exists_cons_of_ne_nil nonempty
  simp only [LineFile.render, join]
  induction others generalizing first with
  | nil => simp
  | cons next others ih =>
      have hrest := ih next (List.cons_ne_nil next others)
      rw [List.intercalate_cons_cons, List.append_assoc, List.flatMap_cons, List.map_append, ← hrest]
      cases ending with
      | lf =>
          rw [LineEnding.text, List.singleton_append, List.splitOn_append_cons_self, List.map_append]
      | crlf =>
          rw [LineEnding.text, List.cons_append, List.singleton_append, ← List.singleton_append (x := '\r'),
            ← List.append_assoc, List.splitOn_append_cons_self, List.map_append,
            map_dropReturns_splitOn_append_return]

/-- Joining lines changes nothing of what they say. -/
theorem parse_render {f : LineFile} (nonempty : f.lines ≠ []) (plain : ∀ t ∈ f.lines, '\n' ∉ t) :
    parse f.render = ofLines f.lines := by
  have hlines : f.lines.flatMap (·.splitOn '\n') = f.lines := by
    rw [List.flatMap_congr fun t ht => List.splitOn_eq_singleton (plain t ht), List.flatMap_singleton']
  rw [parse_eq_ofLines_splitOn]
  refine ofLines_congr ?_
  rw [map_dropReturns_splitOn_render nonempty, hlines]

end ParsedDocument

theorem LineFile.not_mem_of_mem_parse {t line : Text} (h : line ∈ (LineFile.parse t).lines) :
    '\n' ∉ line := by
  obtain ⟨piece, hpiece, rfl⟩ := List.mem_map.mp h
  have hplain := not_mem_of_mem_splitOn hpiece
  cases hending : LineEnding.detect t with
  | lf => exact hplain
  | crlf => exact plain_dropReturn hplain

theorem LineFile.lines_parse_ne_nil (t : Text) : (LineFile.parse t).lines ≠ [] := by
  simp [LineFile.parse, List.splitOn_ne_nil]

end ReqTrace
