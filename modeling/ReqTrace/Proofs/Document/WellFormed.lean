/-
Module: ReqTrace.Proofs.Document.WellFormed
Purpose: What is reported of a document is in order, whatever its text is. Sites, footnotes and faults come line by
  line; the sites of a line come from left to right without a common byte; a name has one footnote, and the line of
  a footnote has no site.
Main exports: Site.Precedes, ParsedDocument.WellFormed, ParsedDocument.sites_precede,
  ParsedDocument.wellFormed_ofLines
-/
import ReqTrace.Proofs.Document.Matches
import ReqTrace.Proofs.Document.Views

namespace ReqTrace

/-- A site stands before another one: on an earlier line, or farther to the left without a common byte. -/
def Site.Precedes (s s' : Site) : Prop :=
  s.line < s'.line ∨ s.line = s'.line ∧ s.span.start < s'.span.start ∧ s.span.stop ≤ s'.span.start

/-- What is reported of a document with some number of lines is in order. -/
structure ParsedDocument.WellFormed (d : ParsedDocument) (lines : Nat) : Prop where
  sites : d.sites.Pairwise Site.Precedes
  footnotes : d.footnotes.Pairwise fun f g => f.line < g.line ∧ f.name ≠ g.name
  faults : d.faults.Pairwise fun e e' => e.1 ≤ e'.1
  siteLines : ∀ s ∈ d.sites, 1 ≤ s.line ∧ s.line ≤ lines
  footnoteLines : ∀ f ∈ d.footnotes, 1 ≤ f.line ∧ f.line ≤ lines
  faultLines : ∀ e ∈ d.faults, 1 ≤ e.1 ∧ e.1 ≤ lines
  apart : ∀ s ∈ d.sites, ∀ f ∈ d.footnotes, s.line ≠ f.line

/-! ### Lines -/

/-- A site starts where its marker does and ends there or before the word glued to it. -/
theorem Site.span_of_ofMarker {line start : Nat} {m : Marker} {s : Site} (h : ofMarker line start m = .ok s) :
    s.span.start = start ∧ s.span.stop ≤ start + Text.byteLength m.text := by
  obtain ⟨hplaced, glued, htext, -⟩ := ofMarker_eq_ok h
  rw [hplaced, htext, Text.byteLength_append]
  exact ⟨rfl, Nat.add_le_add_left (Nat.le_add_right _ _) _⟩

theorem BodyLine.siteList_precede (line : Nat) (t : Text) : (read line t).siteList.Pairwise Site.Precedes := by
  have hpairwise : ((Site.ofLine line t).filterMap Except.toOption).Pairwise Site.Precedes := by
    refine List.pairwise_filterMap.mpr (List.pairwise_map.mpr ?_)
    have hmatches := (Marker.ascending_occurrences t).and (Marker.disjoint_occurrences t)
    refine hmatches.imp fun {a b} hab s hs s' hs' => ?_
    have hok := toOption_eq_some_iff.mp hs
    have hok' := toOption_eq_some_iff.mp hs'
    obtain ⟨hstart, hstop⟩ := Site.span_of_ofMarker hok
    obtain ⟨hstart', -⟩ := Site.span_of_ofMarker hok'
    rw [(Site.ofMarker_eq_ok hok).1] at hstart hstop ⊢
    rw [(Site.ofMarker_eq_ok hok').1] at hstart' ⊢
    exact .inr ⟨rfl, by omega, by omega⟩
  unfold read
  split
  · exact .nil
  · exact hpairwise

/-- A line gives sites or a footnote. -/
theorem BodyLine.siteList_eq_nil {l : BodyLine} {f : Footnote} (h : l.footnote? = some f) : l.siteList = [] := by
  cases l with
  | footnote reading => rfl
  | sites readings => cases h

/-- A fault carries the number of its line. -/
theorem BodyLine.line_of_mem_faults {all : List Footnote} {line : Nat} {l : BodyLine} {e : Nat × SyntaxFault}
    (h : e ∈ (l.faults all).map fun fault => (line, fault)) : e.1 = line := by
  obtain ⟨fault, -, rfl⟩ := List.mem_map.mp h
  rfl

theorem Header.ofLines_eq_invalid {lines : List Text} {line bodyStart : Nat} {value : Text}
    (h : ofLines lines = invalid line value bodyStart) : 1 ≤ line ∧ bodyStart = line + 1 := by
  simp only [ofLines] at h
  split at h
  · split at h
    · split at h
      · cases h
      · split at h
        · cases h
        · cases h
          omega
    · cases h
  · cases h

/-- A header is at fault before the body. -/
theorem Header.line_of_mem_faults {lines : List Text} {e : Nat × SyntaxFault} (h : e ∈ (ofLines lines).faults) :
    1 ≤ e.1 ∧ e.1 < (ofLines lines).bodyStart := by
  cases hheader : ofLines lines with
  | invalid line value bodyStart =>
      obtain ⟨hline, rfl⟩ := ofLines_eq_invalid hheader
      rw [hheader] at h
      obtain rfl := List.mem_singleton.mp h
      exact ⟨hline, Nat.lt_succ_self line⟩
  | _ =>
      rw [hheader] at h
      cases h

/-! ### Bodies -/

namespace ParsedDocument

/-- The lines of a body come after the header. -/
theorem line_of_mem_bodyOf {header : Header} {lines : List Text} {entry : Nat × BodyLine}
    (h : entry ∈ bodyOf header lines) : header.bodyStart < entry.1 ∧ entry.1 ≤ lines.length := by
  obtain ⟨n, t, hle, hget, hline, -⟩ := mem_bodyOf_iff.mp h
  rw [hline]
  exact ⟨Nat.lt_succ_of_le hle, (List.getElem?_eq_some_iff.mp hget).1⟩

/-- A number is that of one line. -/
theorem eq_of_mem_bodyOf {header : Header} {lines : List Text} {entry entry' : Nat × BodyLine}
    (h : entry ∈ bodyOf header lines) (h' : entry' ∈ bodyOf header lines) (line : entry.1 = entry'.1) :
    entry.2 = entry'.2 := by
  obtain ⟨n, t, -, hget, hn, hread⟩ := mem_bodyOf_iff.mp h
  obtain ⟨n', t', -, hget', hn', hread'⟩ := mem_bodyOf_iff.mp h'
  obtain rfl : n = n' := by omega
  obtain rfl := Option.some.inj (hget.symm.trans hget')
  exact hread.symm.trans hread'

/-- What the lines of a body give is in order if what each line gives is, and its lines are. -/
theorem pairwise_flatMap_bodyOf {α : Type} {R : α → α → Prop} (number : α → Nat) {give : Nat × BodyLine → List α}
    {header : Header} {lines : List Text}
    (numbered : ∀ entry ∈ bodyOf header lines, ∀ a ∈ give entry, number a = entry.1)
    (line : ∀ entry ∈ bodyOf header lines, (give entry).Pairwise R)
    (later : ∀ a b, number a < number b → R a b) : ((bodyOf header lines).flatMap give).Pairwise R := by
  refine List.pairwise_flatMap.mpr ⟨line, ?_⟩
  refine (bodyOf_ascending header lines).imp_of_mem fun {x y} hx hy hlt a ha b hb => later a b ?_
  rw [numbered x hx a ha, numbered y hy b hb]
  exact hlt

theorem sites_precede (lines : List Text) : (ofLines lines).sites.Pairwise Site.Precedes := by
  refine pairwise_flatMap_bodyOf Site.line (fun entry hentry s hs => line_of_site hentry hs) (fun entry hentry => ?_)
    fun a b hlt => .inl hlt
  obtain ⟨n, t, -, -, -, hread⟩ := mem_bodyOf_iff.mp hentry
  rw [← hread]
  exact BodyLine.siteList_precede (n + 1) t

/-- The footnotes that are reported have names of their own. -/
theorem footnotes_ascending (lines : List Text) :
    (ofLines lines).footnotes.Pairwise fun f g => f.line < g.line ∧ f.name ≠ g.name := by
  refine ((allFootnotes_ascending (Header.ofLines lines) lines).filter _).imp_of_mem fun {f g} hf hg hlt => ?_
  refine ⟨hlt, fun name => Nat.ne_of_lt hlt ?_⟩
  exact Footnote.line_eq_of_isFirst (List.mem_filter.mp hf).2 (List.mem_filter.mp hg).2 name

theorem faults_ascending (lines : List Text) : (ofLines lines).faults.Pairwise fun e e' => e.1 ≤ e'.1 := by
  refine List.pairwise_append.mpr ⟨?_, ?_, fun e he e' he' => ?_⟩
  · cases Header.ofLines lines with
    | invalid line value bodyStart => exact List.pairwise_singleton _ _
    | _ => exact .nil
  · refine pairwise_flatMap_bodyOf Prod.fst (fun entry _ e he => BodyLine.line_of_mem_faults he)
      (fun entry _ => ?_) fun a b => Nat.le_of_lt
    exact List.pairwise_map.mpr (List.pairwise_of_forall fun _ _ => Nat.le_refl _)
  · obtain ⟨entry, hentry, he'⟩ := List.mem_flatMap.mp he'
    rw [BodyLine.line_of_mem_faults he']
    exact Nat.le_of_lt ((Header.line_of_mem_faults he).2.trans (line_of_mem_bodyOf hentry).1)

/-- Whatever the lines of a document are, what is reported of it is in order. -/
theorem wellFormed_ofLines (lines : List Text) : (ofLines lines).WellFormed lines.length where
  sites := sites_precede lines
  footnotes := footnotes_ascending lines
  faults := faults_ascending lines
  siteLines s hs := by
    obtain ⟨entry, hentry, hs⟩ := List.mem_flatMap.mp hs
    have hline := line_of_mem_bodyOf hentry
    rw [line_of_site hentry hs]
    omega
  footnoteLines f hf := by
    obtain ⟨entry, hentry, hf⟩ := List.mem_filterMap.mp (List.mem_filter.mp hf).1
    have hline := line_of_mem_bodyOf hentry
    rw [line_of_footnote hentry hf]
    omega
  faultLines e he := by
    rcases List.mem_append.mp he with he | he
    · have hline := Header.line_of_mem_faults he
      have hbody := Header.bodyStart_le_length lines
      omega
    · obtain ⟨entry, hentry, he⟩ := List.mem_flatMap.mp he
      have hline := line_of_mem_bodyOf hentry
      rw [BodyLine.line_of_mem_faults he]
      omega
  apart s hs f hf line := by
    obtain ⟨entry, hentry, hs⟩ := List.mem_flatMap.mp hs
    obtain ⟨entry', hentry', hf⟩ := List.mem_filterMap.mp (List.mem_filter.mp hf).1
    rw [line_of_site hentry hs, line_of_footnote hentry' hf] at line
    rw [eq_of_mem_bodyOf hentry hentry' line, BodyLine.siteList_eq_nil hf] at hs
    cases hs

end ParsedDocument

end ReqTrace
