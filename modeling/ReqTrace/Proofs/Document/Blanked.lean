/-
Module: ReqTrace.Proofs.Document.Blanked
Purpose: A malformed line hides nothing else of a document. The only state that lines share is the header and which
  footnotes have come before; a line at fault after the header adds nothing to either, so a blank line in its place
  takes away what was reported on it and leaves the rest.
Main exports: Text.setLine, Text.firstLine, Footnote.find?_append_of_not_isFirst, ParsedDocument.ofLines_blanked,
  ParsedDocument.parse_malformed_line
-/
import ReqTrace.Proofs.Document.WellFormed

namespace ReqTrace

open Text

/-- The text with another line in place of the one with the number `n`. What belongs to a line is all that stands
    between two line feeds, a carriage return at its end as well. -/
def Text.setLine (t : Text) (n : Nat) (line : Text) : Text :=
  join ['\n'] ((t.splitOn '\n').set (n - 1) line)

/-- The number of the first line that is not blank. If all lines are, it is larger than their number. -/
def Text.firstLine (t : Text) : Nat :=
  ((lines t).takeWhile isBlank).length + 1

/-- What a document says, but for the sites and the faults on a line. -/
def ParsedDocument.withoutLine (d : ParsedDocument) (n : Nat) : ParsedDocument :=
  { d with
    sites := d.sites.filter (·.line ≠ n)
    faults := d.faults.filter (·.1 ≠ n) }

/-! ### Headers -/

/-- A header is read from the first line that is not blank and the two after it. -/
theorem Header.ofLines_append_of_long {lines : List Text} (long : (lines.takeWhile isBlank).length + 3 ≤ lines.length)
    (more : List Text) : ofLines (lines ++ more) = ofLines lines := by
  have hthree : 3 ≤ (lines.drop (lines.takeWhile isBlank).length).length := by
    rw [List.length_drop]
    omega
  rcases drop_takeWhile_isBlank_append lines more with ⟨hall, -⟩ | ⟨hstart, hdrop⟩
  · rw [hall] at hthree
    cases hthree
  · simp only [ofLines, hstart, hdrop]
    generalize lines.drop (lines.takeWhile isBlank).length = rest at hthree
    rcases rest with - | ⟨_, - | ⟨_, - | ⟨_, _⟩⟩⟩
    · simp at hthree
    · simp at hthree
    · simp at hthree
    · rfl

/-! ### Footnotes -/

namespace Footnote

variable {before after : List Footnote} {f : Footnote}

/-- A footnote that is not the first one of its name is not found under any name. -/
theorem find?_append_of_not_isFirst (h : f.isFirst (before ++ f :: after) = false) (name : Identifier) :
    (before ++ f :: after).find? (·.name == name) = (before ++ after).find? (·.name == name) := by
  rw [List.find?_append, List.find?_append]
  cases hbefore : before.find? (·.name == name) with
  | some g => rfl
  | none =>
      -- The first footnote of this name would be the one that is not the first.
      have hname : ¬ (f.name == name) = true := fun heq => by
        have hfound : (f :: after).find? (·.name == name) = some f := List.find?_cons_of_pos heq
        rw [isFirst, beq_iff_eq.mp heq, List.find?_append, hbefore, hfound] at h
        simp at h
      have hskip : (f :: after).find? (·.name == name) = after.find? (·.name == name) := List.find?_cons_of_neg hname
      rw [hskip]

theorem isFirst_append_of_not_isFirst (h : f.isFirst (before ++ f :: after) = false) :
    isFirst (before ++ f :: after) = isFirst (before ++ after) := by
  funext g
  rw [isFirst, isFirst, find?_append_of_not_isFirst h]

end Footnote

/-! ### Bodies -/

theorem BodyLine.eq_of_footnote? {l : BodyLine} {f : Footnote} (h : l.footnote? = some f) :
    l = .footnote (.ok f) := by
  cases l with
  | footnote reading => exact congrArg footnote (toOption_eq_some_iff.mp h)
  | sites readings => cases h

/-- The faults of a line depend on which footnotes are the first ones of their names. -/
theorem BodyLine.faults_congr {all all' : List Footnote} (h : Footnote.isFirst all = Footnote.isFirst all')
    (l : BodyLine) : l.faults all = l.faults all' := by
  unfold faults
  rw [h]

/-- All footnotes among some lines. -/
def BodyLine.notes (body : List (Nat × BodyLine)) : List Footnote :=
  body.filterMap (·.2.footnote?)

/-- A line at fault adds no footnote, or one that has no effect on the other lines. -/
theorem BodyLine.notes_of_faults {before after : List (Nat × BodyLine)} {entry : Nat × BodyLine}
    (faulty : entry.2.faults (notes (before ++ entry :: after)) ≠ []) :
    Footnote.isFirst (notes (before ++ entry :: after)) = Footnote.isFirst (notes (before ++ after)) ∧
      (notes (before ++ entry :: after)).filter (Footnote.isFirst (notes (before ++ entry :: after))) =
        (notes (before ++ after)).filter (Footnote.isFirst (notes (before ++ after))) := by
  cases hnote : entry.2.footnote? with
  | none =>
      have hsame : notes (before ++ entry :: after) = notes (before ++ after) := by
        simp [notes, hnote]
      rw [hsame]
      exact ⟨rfl, rfl⟩
  | some f =>
      have hnotes : notes (before ++ entry :: after) = notes before ++ f :: notes after := by
        simp [notes, hnote]
      have hnotes' : notes (before ++ after) = notes before ++ notes after := List.filterMap_append
      rw [hnotes] at faulty ⊢
      rw [hnotes']
      have hlater : f.isFirst (notes before ++ f :: notes after) = false := by
        refine Bool.eq_false_iff.mpr fun hfirst => faulty ?_
        rw [eq_of_footnote? hnote, faults, if_pos hfirst]
      have hfirst := Footnote.isFirst_append_of_not_isFirst hlater
      refine ⟨hfirst, ?_⟩
      rw [List.filter_append, List.filter_cons_of_neg (by simp [hlater]), ← List.filter_append, hfirst]

/-- In ascending lines the other lines than one are those before and after it. -/
theorem filter_line_ne {α : Type} {before after : List (Nat × α)} {entry : Nat × α}
    (ascending : (before ++ entry :: after).Pairwise fun a b => a.1 < b.1) :
    (before ++ entry :: after).filter (·.1 ≠ entry.1) = before ++ after := by
  obtain ⟨-, hrest, hbefore⟩ := List.pairwise_append.mp ascending
  have hafter := (List.pairwise_cons.mp hrest).1
  rw [List.filter_append, List.filter_cons_of_neg (by simp)]
  refine congrArg₂ (· ++ ·) (List.filter_eq_self.mpr fun a ha => ?_) (List.filter_eq_self.mpr fun a ha => ?_)
  · simpa using Nat.ne_of_lt (hbefore a ha entry List.mem_cons_self)
  · simpa using Nat.ne_of_gt (hafter a ha)

namespace ParsedDocument

/-- What a document with a header and a body says. -/
def ofBody (header : Header) (body : List (Nat × BodyLine)) : ParsedDocument :=
  let all := BodyLine.notes body
  { package := header.package?
    sites := body.flatMap (·.2.siteList)
    footnotes := all.filter (Footnote.isFirst all)
    faults := header.faults ++ body.flatMap fun (line, l) => (l.faults all).map fun fault => (line, fault) }

theorem ofLines_eq_ofBody (lines : List Text) :
    ofLines lines = ofBody (Header.ofLines lines) (bodyOf (Header.ofLines lines) lines) := rfl

section OneLine

variable {header : Header} {before after : List (Nat × BodyLine)} {entry : Nat × BodyLine}

/-- A line that says nothing need not be there. -/
theorem ofBody_blank (n : Nat) :
    ofBody header (before ++ (n, .sites []) :: after) = ofBody header (before ++ after) := by
  simp [ofBody, BodyLine.notes, BodyLine.footnote?, BodyLine.siteList, BodyLine.faults]

/-- A fault with the number of a line is a fault of this line. -/
theorem faults_ne_nil (ascending : (before ++ entry :: after).Pairwise fun a b => a.1 < b.1)
    (apart : ∀ e ∈ header.faults, e.1 ≠ entry.1) {e : Nat × SyntaxFault}
    (he : e ∈ (ofBody header (before ++ entry :: after)).faults) (line : e.1 = entry.1) :
    entry.2.faults (BodyLine.notes (before ++ entry :: after)) ≠ [] := by
  obtain ⟨x, hx, he⟩ := List.mem_flatMap.mp ((List.mem_append.mp he).resolve_left fun he => apart e he line)
  obtain ⟨fault, hfault, rfl⟩ := List.mem_map.mp he
  have hentry : x = entry := by
    by_contra hne
    have hother : x ∈ before ++ after := by
      rcases List.mem_append.mp hx with hx | hx
      · exact List.mem_append_left _ hx
      · exact List.mem_append_right _ ((List.mem_cons.mp hx).resolve_left hne)
    rw [← filter_line_ne ascending, List.mem_filter, line] at hother
    simp at hother
  rw [hentry] at hfault
  exact List.ne_nil_of_mem hfault

/-- Without a line at fault a body says what the other lines say with it. -/
theorem ofBody_append_of_faults (ascending : (before ++ entry :: after).Pairwise fun a b => a.1 < b.1)
    (sites : ∀ x ∈ before ++ entry :: after, ∀ s ∈ x.2.siteList, s.line = x.1)
    (apart : ∀ e ∈ header.faults, e.1 ≠ entry.1)
    (faulty : entry.2.faults (BodyLine.notes (before ++ entry :: after)) ≠ []) :
    ofBody header (before ++ after) =
      (ofBody header (before ++ entry :: after)).withoutLine entry.1 := by
  obtain ⟨hfirst, hfootnotes⟩ := BodyLine.notes_of_faults faulty
  have hothers := filter_line_ne ascending
  simp only [withoutLine, ofBody, hfootnotes, mk.injEq, true_and]
  refine ⟨?_, ?_⟩
  · rw [filter_flatMap_of_origin (q := (·.1 ≠ entry.1)) fun x hx s hs => by rw [sites x hx s hs], hothers]
  · have hheader : header.faults.filter (·.1 ≠ entry.1) = header.faults :=
      List.filter_eq_self.mpr fun e he => by simpa using apart e he
    rw [List.filter_append, hheader, filter_flatMap_of_origin (q := (·.1 ≠ entry.1))
      fun x hx e he => by rw [BodyLine.line_of_mem_faults he], hothers]
    simp only [BodyLine.faults_congr hfirst]

end OneLine

/-! ### Documents -/

/-- After the header a line at fault can be replaced by a blank one. This takes away the sites and faults on this
    line only. -/
theorem ofLines_blanked {before after : List Text} {line blank : Text} (hblank : isBlank blank = true)
    (long : (before.takeWhile isBlank).length + 3 ≤ before.length)
    (faulty : ∃ e ∈ (ofLines (before ++ line :: after)).faults, e.1 = before.length + 1) :
    ofLines (before ++ blank :: after) = (ofLines (before ++ line :: after)).withoutLine (before.length + 1) := by
  obtain ⟨e, he, hline⟩ := faulty
  -- The header lies in the lines before, so it stays, and with it where the body starts.
  have hheader := Header.ofLines_append_of_long long
  have hstart := Header.bodyStart_le_length before
  have hbody := fun t => bodyOf_append hstart (t :: after)
  have hascending := bodyOf_ascending (Header.ofLines before) (before ++ line :: after)
  have hsites : ∀ x ∈ bodyOf (Header.ofLines before) (before ++ line :: after), ∀ s ∈ x.2.siteList, s.line = x.1 :=
    fun x hx s hs => line_of_site hx hs
  have hapart : ∀ e ∈ (Header.ofLines before).faults, e.1 ≠ before.length + 1 := fun e he => by
    have hbefore := (Header.line_of_mem_faults he).2
    omega
  simp only [List.zipIdx_cons, List.map_cons] at hbody
  rw [hbody] at hascending hsites
  rw [ofLines_eq_ofBody, hheader, hbody] at he
  rw [ofLines_eq_ofBody, ofLines_eq_ofBody (before ++ line :: after), hheader, hheader, hbody, hbody,
    BodyLine.read_blank _ hblank, ofBody_blank]
  exact ofBody_append_of_faults hascending hsites hapart (faults_ne_nil hascending hapart he hline)

/-! ### Texts -/

/-- The lines of a text in which one is replaced. -/
theorem parse_setLine {t line : Text} {n : Nat} (h : n < (Text.lines t).length) (plain : '\n' ∉ line) :
    parse (t.setLine (n + 1) line) = ofLines ((Text.lines t).set n line) := by
  have hsplit : (t.setLine (n + 1) line).splitOn '\n' = (t.splitOn '\n').set n line := by
    refine List.splitOn_intercalate '\n' (fun piece hpiece => ?_) ?_
    · rcases List.mem_or_eq_of_mem_set hpiece with hpiece | rfl
      · exact not_mem_of_mem_splitOn hpiece
      · exact plain
    · simp
  rw [parse_eq_ofLines_splitOn, hsplit, ← ofLines_map_dropReturns,
    ← ofLines_map_dropReturns ((Text.lines t).set n line), List.map_set, List.map_set]
  rcases map_dropReturns_splitOn t with hsame | hlonger
  · rw [hsame]
  · rw [hlonger, List.set_append_left _ _ (by simpa using h), ofLines_append_blank _ rfl]

/-- Whatever the text of a document is, what is reported of it is in order. If a line is at fault that comes three or
    more lines after the first one that is not blank, a blank line in its place takes away the sites and faults on it
    and nothing else. -/
theorem parse_malformed_line (t : Text) :
    (parse t).WellFormed (Text.lines t).length ∧
      ∀ (n : Nat) (blank : Text), isBlank blank = true → '\n' ∉ blank → t.firstLine + 3 ≤ n →
        (∃ e ∈ (parse t).faults, e.1 = n) → parse (t.setLine n blank) = (parse t).withoutLine n := by
  have hwell := wellFormed_ofLines (Text.lines t)
  refine ⟨hwell, fun n blank hblank plain hafter hfaulty => ?_⟩
  obtain ⟨k, rfl⟩ : ∃ k, n = k + 1 := ⟨n - 1, by omega⟩
  have hk : k < (Text.lines t).length := by
    obtain ⟨e, he, hline⟩ := hfaulty
    have hbound := (hwell.faultLines e he).2
    omega
  rw [parse_setLine hk plain, parse]
  rw [parse] at hfaulty
  simp only [firstLine] at hafter
  generalize Text.lines t = lines at hk hafter hfaulty ⊢
  have hcut : ∀ line, lines.set k line = lines.take k ++ line :: lines.drop (k + 1) := fun line => by
    rw [List.set_eq_take_append_cons_drop, if_pos hk]
  have hlength : (lines.take k).length = k := List.length_take_of_le hk.le
  have hlong : ((lines.take k).takeWhile isBlank).length + 3 ≤ (lines.take k).length := by
    rw [← List.take_takeWhile, List.length_take]
    omega
  have hlines := (List.set_getElem_self hk).symm.trans (hcut lines[k])
  rw [hlines] at hfaulty
  have hblanked := ofLines_blanked hblank hlong (by rwa [hlength])
  rw [hlength, ← hlines, ← hcut] at hblanked
  exact hblanked

/-- A line with a site and a malformed marker, and a second footnote of a name. -/
theorem parse_malformed_line_repeated_footnote :
    let t : Text := "```\nreqmd.package: p\n```\n`~A~` `~B~`covered\n[^~A~]: `x`\r\n[^~A~]: `y`\r\n`~C~`".toList
    let c := Site.placed 7 0 ⟨['C'], by decide⟩ .bare
    (parse t).sites = [Site.placed 4 0 ⟨['A'], by decide⟩ .bare, c] ∧
      (parse t).faults = [(4, .incompleteMarker "`~B~`covered".toList), (6, .duplicateFootnote ['A'])] ∧
      parse (t.setLine 4 []) = { parse t with sites := [c], faults := [(6, .duplicateFootnote ['A'])] } ∧
      parse (t.setLine 6 ['\r']) =
        { parse t with faults := [(4, .incompleteMarker "`~B~`covered".toList)] } := by
  intro t c
  have hsites : (parse t).sites = [Site.placed 4 0 ⟨['A'], by decide⟩ .bare, c] := by decide +kernel
  have hfaults : (parse t).faults =
      [(4, .incompleteMarker "`~B~`covered".toList), (6, .duplicateFootnote ['A'])] := by
    decide +kernel
  have hfirst : t.firstLine = 1 := by decide +kernel
  obtain ⟨-, hblank⟩ := parse_malformed_line t
  refine ⟨hsites, hfaults, ?_, ?_⟩
  · rw [hblank 4 [] rfl (by decide) (by omega) (by simp [hfaults]), withoutLine, hsites, hfaults]
    rfl
  · rw [hblank 6 ['\r'] rfl (by decide) (by omega) (by simp [hfaults]), withoutLine, hsites, hfaults]
    rfl

end ParsedDocument

end ReqTrace
