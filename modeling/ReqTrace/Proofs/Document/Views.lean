/-
Module: ReqTrace.Proofs.Document.Views
Purpose: What a document says, line by line and without the places in a line: which sites with which
  status stand on a line, or which footnote. A document is free of faults exactly if no line is malformed
  and no two footnotes share a name, and then its sites and footnotes are those of its lines.
Main exports: LineView, BodyLine.view, views, siteKeys, noteKeys, ParsedDocument.faults_eq_nil_iff,
  ParsedDocument.map_key_sites, ParsedDocument.map_key_footnotes
-/
import Mathlib.Data.List.Nodup
import ReqTrace.Proofs.Document.Lines

namespace ReqTrace

open Text

/-! ### Views of lines -/

/-- What a line of a body says. -/
inductive LineView where
  | sites (entries : List (Identifier × SiteStatus))
  | footnote (name : Identifier) (raw : Text)
  | malformed
  deriving DecidableEq

namespace LineView

/-- The sites on a line. -/
def entries : LineView → List (Identifier × SiteStatus)
  | sites entries => entries
  | _ => []

/-- The footnote on a line, if there is one. -/
def footnote? : LineView → Option (Identifier × Text)
  | footnote name raw => some (name, raw)
  | _ => none

end LineView

/-- What the sites of a line say. -/
def Site.entry (s : Site) : Identifier × SiteStatus :=
  (s.name, s.status)

/-- What a line of a body says. -/
def BodyLine.view : BodyLine → LineView
  | footnote (.ok f) => .footnote f.name f.raw
  | footnote (.error _) => .malformed
  | sites readings =>
      match readings.mapM Except.toOption with
      | some found => .sites (found.map Site.entry)
      | none => .malformed

theorem toOption_eq_some_iff {ε α : Type} {reading : Except ε α} {a : α} :
    reading.toOption = some a ↔ reading = .ok a := by
  cases reading <;> simp [Except.toOption]

theorem mapM_toOption_eq_some_iff {ε α : Type} {readings : List (Except ε α)} {found : List α} :
    readings.mapM Except.toOption = some found ↔ readings = found.map .ok := by
  induction readings generalizing found with
  | nil => simp [eq_comm]
  | cons reading readings ih =>
      cases reading with
      | error fault => cases found <;> simp [Except.toOption]
      | ok a =>
          rw [List.mapM_cons]
          cases hrest : readings.mapM Except.toOption with
          | none =>
              have hnone : ∀ rest : List α, readings ≠ rest.map .ok := by
                intro rest heq
                rw [ih.mpr heq] at hrest
                cases hrest
              cases found <;> simp [Except.toOption, hnone]
          | some rest =>
              have hrest' := ih.mp hrest
              cases found with
              | nil => simp [Except.toOption]
              | cons b found =>
                  have hsame : rest = found ↔ readings = found.map .ok := by
                    rw [← ih, hrest, Option.some_inj]
                  simp [Except.toOption, hsame]

theorem mapM_toOption_eq_none {ε α : Type} {readings : List (Except ε α)}
    (h : readings.mapM Except.toOption = none) : ∃ fault, .error fault ∈ readings := by
  induction readings with
  | nil => simp at h
  | cons reading readings ih =>
      cases reading with
      | error fault => exact ⟨fault, List.mem_cons_self⟩
      | ok a =>
          rw [List.mapM_cons] at h
          cases hrest : readings.mapM Except.toOption with
          | none =>
              obtain ⟨fault, hfault⟩ := ih hrest
              exact ⟨fault, List.mem_cons_of_mem _ hfault⟩
          | some rest => simp [hrest, Except.toOption] at h

/-- A line with sites is not shaped like a footnote, and all its markers are well formed. -/
theorem view_read_eq_sites_iff {line : Nat} {t : Text} {entries : List (Identifier × SiteStatus)} :
    (BodyLine.read line t).view = .sites entries ↔
      Footnote.isFootnoteLine t = false ∧
        ∃ found : List Site, Site.ofLine line t = found.map .ok ∧ found.map Site.entry = entries := by
  cases hshape : Footnote.shape? t with
  | some shape =>
      have hread : ∃ reading, BodyLine.read line t = .footnote reading := by
        simp only [BodyLine.read, Footnote.ofLine?, hshape]
        exact ⟨_, rfl⟩
      obtain ⟨reading, hreading⟩ := hread
      rw [hreading]
      cases reading <;> simp [BodyLine.view, Footnote.isFootnoteLine, hshape]
  | none =>
      have hread : BodyLine.read line t = .sites (Site.ofLine line t) := by
        simp [BodyLine.read, Footnote.ofLine?, hshape]
      rw [hread, BodyLine.view]
      cases hfound : (Site.ofLine line t).mapM Except.toOption with
      | none =>
          simp only [Footnote.isFootnoteLine, hshape, reduceCtorEq, false_iff]
          rintro ⟨-, found, heq, -⟩
          rw [mapM_toOption_eq_some_iff.mpr heq] at hfound
          cases hfound
      | some found =>
          have hmap := mapM_toOption_eq_some_iff.mp hfound
          simp only [Footnote.isFootnoteLine, hshape, Option.isSome_none, true_and, LineView.sites.injEq]
          constructor
          · exact fun heq => ⟨found, hmap, heq⟩
          · rintro ⟨found', heq, rfl⟩
            rw [mapM_toOption_eq_some_iff.mpr heq] at hfound
            cases hfound
            rfl

theorem view_read_eq_footnote_iff {line : Nat} {t : Text} {name : Identifier} {raw : Text} :
    (BodyLine.read line t).view = .footnote name raw ↔
      ∃ f, Footnote.ofLine? line t = some (.ok f) ∧ f.name = name ∧ f.raw = raw := by
  unfold BodyLine.read
  cases Footnote.ofLine? line t with
  | none =>
      simp only [BodyLine.view]
      cases (Site.ofLine line t).mapM Except.toOption <;> simp
  | some reading =>
      cases reading with
      | error fault => simp [BodyLine.view]
      | ok f => simp [BodyLine.view]

theorem isFootnoteLine_of_view {line : Nat} {t : Text} {name : Identifier} {raw : Text}
    (h : (BodyLine.read line t).view = .footnote name raw) : Footnote.isFootnoteLine t = true := by
  obtain ⟨f, hfound, -, -⟩ := view_read_eq_footnote_iff.mp h
  obtain ⟨shape, hshape, -⟩ := Option.bind_eq_some_iff.mp hfound
  exact Option.isSome_iff_exists.mpr ⟨shape, hshape⟩

theorem Site.map_entry_ofMarker (line line' start : Nat) (m : Marker) :
    (ofMarker line start m).map Site.entry = (ofMarker line' start m).map Site.entry := by
  unfold ofMarker
  split
  · rfl
  · split
    · split <;> rfl
    · rfl

/-- What the sites of a line say depends on their names and statuses only. -/
theorem BodyLine.view_sites (readings : List (Except SyntaxFault Site)) :
    (BodyLine.sites readings).view =
      match (readings.map (Except.map Site.entry)).mapM Except.toOption with
      | some entries => .sites entries
      | none => .malformed := by
  cases hfound : readings.mapM Except.toOption with
  | some found =>
      rw [mapM_toOption_eq_some_iff] at hfound
      subst hfound
      have hentries : ((found.map .ok : List (Except SyntaxFault Site)).map (Except.map Site.entry)).mapM
          Except.toOption = some (found.map Site.entry) :=
        mapM_toOption_eq_some_iff.mpr (by simp [Except.map])
      simp only [view, mapM_toOption_eq_some_iff.mpr rfl, hentries]
  | none =>
      obtain ⟨fault, hfault⟩ := mapM_toOption_eq_none hfound
      cases hentries : (readings.map (Except.map Site.entry)).mapM Except.toOption with
      | none => simp only [view, hfound]
      | some entries =>
          have hmem : Except.map Site.entry (.error fault) ∈ readings.map (Except.map Site.entry) :=
            List.mem_map_of_mem hfault
          rw [mapM_toOption_eq_some_iff.mp hentries] at hmem
          simp [Except.map] at hmem

/-- What a line says does not depend on its number. -/
theorem view_read_line (line line' : Nat) (t : Text) :
    (BodyLine.read line t).view = (BodyLine.read line' t).view := by
  cases hshape : Footnote.shape? t with
  | none =>
      have hread : ∀ line, BodyLine.read line t = .sites (Site.ofLine line t) := fun line => by
        simp [BodyLine.read, Footnote.ofLine?, hshape]
      have hentries : (Site.ofLine line t).map (Except.map Site.entry) =
          (Site.ofLine line' t).map (Except.map Site.entry) := by
        simp only [Site.ofLine, List.map_map]
        exact List.map_congr_left fun found _ => Site.map_entry_ofMarker line line' found.1 found.2
      rw [hread, hread, BodyLine.view_sites, BodyLine.view_sites, hentries]
  | some shape =>
      simp only [BodyLine.read, Footnote.ofLine?, hshape, Option.bind_eq_bind, Option.bind_some,
        Option.pure_def]
      split
      · rfl
      · split
        · rfl
        · split <;> rfl

/-! ### Views of bodies -/

/-- What the lines of a body say, with their numbers. -/
def views (header : Header) (lines : List Text) : List (Nat × LineView) :=
  (ParsedDocument.bodyOf header lines).map fun (line, l) => (line, l.view)

/-- The sites of a body with their lines and statuses. -/
def siteKeys (body : List (Nat × LineView)) : List (Identifier × Nat × SiteStatus) :=
  body.flatMap fun (line, v) => v.entries.map fun (name, status) => (name, line, status)

/-- The footnotes of a body with their lines and texts. -/
def noteKeys (body : List (Nat × LineView)) : List (Identifier × Nat × Text) :=
  body.filterMap fun (line, v) => v.footnote?.map fun (name, raw) => (name, line, raw)

/-- What a site says and on which line. -/
def Site.key (s : Site) : Identifier × Nat × SiteStatus :=
  (s.name, s.line, s.status)

/-- What a footnote says and on which line. -/
def Footnote.key (f : Footnote) : Identifier × Nat × Text :=
  (f.name, f.line, f.raw)

@[simp] theorem siteKeys_append (body more : List (Nat × LineView)) :
    siteKeys (body ++ more) = siteKeys body ++ siteKeys more :=
  List.flatMap_append

@[simp] theorem noteKeys_append (body more : List (Nat × LineView)) :
    noteKeys (body ++ more) = noteKeys body ++ noteKeys more :=
  List.filterMap_append

theorem ParsedDocument.mem_bodyOf_iff {header : Header} {lines : List Text} {line : Nat} {l : BodyLine} :
    (line, l) ∈ bodyOf header lines ↔
      ∃ n t, header.bodyStart ≤ n ∧ lines[n]? = some t ∧ line = n + 1 ∧ BodyLine.read (n + 1) t = l := by
  simp only [bodyOf, List.mem_map, Prod.exists, List.mk_mem_zipIdx_iff_le_and_getElem?_sub,
    List.getElem?_drop, Prod.mk.injEq]
  constructor
  · rintro ⟨t, k, ⟨hle, hget⟩, rfl, rfl⟩
    obtain ⟨n, rfl⟩ : ∃ n, k = n + 1 := ⟨k - 1, by omega⟩
    have hindex : header.bodyStart + (n + 1 - (header.bodyStart + 1)) = n := by omega
    rw [hindex] at hget
    exact ⟨n, t, by omega, hget, rfl, rfl⟩
  · rintro ⟨n, t, hle, hget, rfl, rfl⟩
    have hindex : header.bodyStart + (n + 1 - (header.bodyStart + 1)) = n := by omega
    exact ⟨t, n + 1, ⟨by omega, by rw [hindex]; exact hget⟩, rfl, rfl⟩

theorem mem_views_iff {header : Header} {lines : List Text} {line : Nat} {v : LineView} :
    (line, v) ∈ views header lines ↔
      ∃ n t, header.bodyStart ≤ n ∧ lines[n]? = some t ∧ line = n + 1 ∧
        (BodyLine.read (n + 1) t).view = v := by
  simp only [views, List.mem_map, Prod.exists, ParsedDocument.mem_bodyOf_iff, Prod.mk.injEq]
  constructor
  · rintro ⟨_, _, ⟨n, t, hle, hget, rfl, rfl⟩, rfl, rfl⟩
    exact ⟨n, t, hle, hget, rfl, rfl⟩
  · rintro ⟨n, t, hle, hget, rfl, rfl⟩
    exact ⟨n + 1, _, ⟨n, t, hle, hget, rfl, rfl⟩, rfl, rfl⟩

/-! ### Documents without faults -/

/-- A footnote knows its line and keeps the text of it without the returns at its end. -/
theorem Footnote.ofLine?_eq_ok {line : Nat} {t : Text} {f : Footnote}
    (h : ofLine? line t = some (.ok f)) : f.line = line ∧ f.raw = dropReturns t := by
  obtain ⟨hline, hraw, -⟩ := ofLine?_eq_ok_iff.mp h
  exact ⟨hline, hraw⟩

theorem Site.line_of_mem_ofLine {line : Nat} {t : Text} {s : Site} (h : .ok s ∈ ofLine line t) :
    s.line = line := by
  obtain ⟨⟨start, m⟩, -, hmarker⟩ := List.mem_map.mp h
  rw [(ofMarker_eq_ok hmarker).1]
  rfl

namespace BodyLine

/-- The well-formed sites of a line are the ones that are found on it, unless it is a footnote. -/
theorem mem_siteList_iff {line : Nat} {t : Text} {s : Site} :
    s ∈ (read line t).siteList ↔
      Footnote.isFootnoteLine t = false ∧ .ok s ∈ Site.ofLine line t := by
  have hshape : Footnote.isFootnoteLine t = (Footnote.ofLine? line t).isSome := by
    cases h : Footnote.shape? t <;> simp [Footnote.isFootnoteLine, Footnote.ofLine?, h]
  rw [hshape, read]
  cases Footnote.ofLine? line t with
  | some reading => simp [siteList]
  | none => simp [siteList, List.mem_filterMap, toOption_eq_some_iff]

theorem line_of_mem_siteList {line : Nat} {t : Text} {s : Site} (h : s ∈ (read line t).siteList) :
    s.line = line :=
  Site.line_of_mem_ofLine (mem_siteList_iff.mp h).2

/-- A line gives a footnote if it is a well-formed one. -/
theorem footnote?_read_iff {line : Nat} {t : Text} {f : Footnote} :
    (read line t).footnote? = some f ↔ Footnote.ofLine? line t = some (.ok f) := by
  unfold read
  cases Footnote.ofLine? line t with
  | none => simp [footnote?]
  | some reading => cases reading <;> simp [footnote?, Except.toOption]

theorem siteList_eq_entries {l : BodyLine} (h : l.view ≠ .malformed) :
    l.siteList.map Site.entry = l.view.entries := by
  cases l with
  | footnote reading => cases reading <;> rfl
  | sites readings =>
      simp only [view] at h ⊢
      cases hfound : readings.mapM Except.toOption with
      | none => simp [hfound] at h
      | some found =>
          rw [mapM_toOption_eq_some_iff.mp hfound]
          simp [siteList, LineView.entries, List.filterMap_map, Function.comp_def, Except.toOption]

theorem footnote?_eq_view (l : BodyLine) :
    (l.footnote?.map fun f => (f.name, f.raw)) = l.view.footnote? := by
  cases l with
  | footnote reading => cases reading <;> rfl
  | sites readings =>
      simp only [view]
      cases readings.mapM Except.toOption <;> rfl

/-- A line is free of faults if it is not malformed and its footnote is the first one of its name. -/
theorem faults_eq_nil_iff (all : List Footnote) (l : BodyLine) :
    l.faults all = [] ↔ l.view ≠ .malformed ∧ ∀ f, l.footnote? = some f → f.isFirst all = true := by
  cases l with
  | footnote reading =>
      cases reading with
      | error fault => simp [faults, view]
      | ok f => simp [faults, view, footnote?, Except.toOption]
  | sites readings =>
      simp only [faults, view, footnote?]
      cases hfound : readings.mapM Except.toOption with
      | none =>
          simp only [ne_eq, not_true_eq_false, false_and, iff_false]
          intro hnone
          obtain ⟨fault, hfault⟩ := mapM_toOption_eq_none hfound
          have hsome := List.filterMap_eq_nil_iff.mp hnone _ hfault
          cases hsome
      | some found =>
          rw [mapM_toOption_eq_some_iff.mp hfound]
          simp

end BodyLine

/-- Where no two elements share a key, one is found by its key. -/
theorem find?_key_eq_some_iff {α κ : Type} [BEq κ] [LawfulBEq κ] (key : α → κ) {l : List α}
    (nodup : (l.map key).Nodup) {k : κ} {a : α} :
    l.find? (key · == k) = some a ↔ a ∈ l ∧ key a = k := by
  have hfound : ∀ {b}, l.find? (key · == k) = some b → b ∈ l ∧ key b = k := fun h =>
    ⟨List.mem_of_find?_eq_some h, by simpa using List.find?_some h⟩
  constructor
  · exact hfound
  · rintro ⟨ha, hk⟩
    cases hfind : l.find? (key · == k) with
    | none => exact absurd (beq_iff_eq.mpr hk) (List.find?_eq_none.mp hfind a ha)
    | some b =>
        obtain ⟨hb, hk'⟩ := hfound hfind
        rw [List.inj_on_of_nodup_map nodup hb ha (hk'.trans hk.symm)]

/-- The first footnote of a name is on one line. -/
theorem Footnote.line_eq_of_isFirst {all : List Footnote} {f g : Footnote} (hf : f.isFirst all = true)
    (hg : g.isFirst all = true) (name : f.name = g.name) : f.line = g.line := by
  rw [isFirst, Option.any_eq_true] at hf hg
  obtain ⟨x, hx, hxf⟩ := hf
  obtain ⟨y, hy, hyg⟩ := hg
  rw [name, hy] at hx
  cases hx
  rw [← beq_iff_eq.mp hxf, beq_iff_eq.mp hyg]

/-- Among footnotes on lines of their own, every one is the first one of its name exactly if no two share
    a name. -/
theorem Footnote.forall_isFirst_iff {all : List Footnote}
    (lines : all.Pairwise fun f g => f.line ≠ g.line) :
    (∀ f ∈ all, f.isFirst all = true) ↔ (all.map Footnote.name).Nodup := by
  have hline : (all.map Footnote.line).Nodup := List.pairwise_map.mpr lines
  constructor
  · intro first
    refine List.Nodup.map_on (fun f hf g hg hname => ?_) (List.Nodup.of_map _ hline)
    exact List.inj_on_of_nodup_map hline hf hg (line_eq_of_isFirst (first f hf) (first g hg) hname)
  · intro names f hf
    rw [isFirst, Option.any_eq_true]
    exact ⟨f, (find?_key_eq_some_iff Footnote.name names).mpr ⟨hf, rfl⟩, beq_self_eq_true _⟩

namespace ParsedDocument

/-- All footnotes of a document, whether or not they are the first ones of their names. -/
def allFootnotes (header : Header) (lines : List Text) : List Footnote :=
  (bodyOf header lines).filterMap (·.2.footnote?)

theorem bodyOf_ascending (header : Header) (lines : List Text) :
    (bodyOf header lines).Pairwise fun a b => a.1 < b.1 := by
  have hnumbers : (bodyOf header lines).map Prod.fst =
      ((lines.drop header.bodyStart).zipIdx (header.bodyStart + 1)).map Prod.snd := by
    simp [bodyOf, Function.comp_def]
  have hascending : ((bodyOf header lines).map Prod.fst).Pairwise (· < ·) := by
    rw [hnumbers, List.zipIdx_map_snd]
    exact List.pairwise_lt_range'
  exact List.pairwise_map.mp hascending

/-- A site carries the number of its line. -/
theorem line_of_site {header : Header} {lines : List Text} {entry : Nat × BodyLine}
    (h : entry ∈ bodyOf header lines) {s : Site} (hs : s ∈ entry.2.siteList) : s.line = entry.1 := by
  obtain ⟨n, t, -, -, hline, hread⟩ := mem_bodyOf_iff.mp h
  rw [← hread] at hs
  rw [BodyLine.line_of_mem_siteList hs, hline]

/-- A footnote carries the number of its line. -/
theorem line_of_footnote {header : Header} {lines : List Text} {entry : Nat × BodyLine}
    (h : entry ∈ bodyOf header lines) {f : Footnote} (hf : entry.2.footnote? = some f) : f.line = entry.1 := by
  obtain ⟨n, t, -, -, hline, hread⟩ := mem_bodyOf_iff.mp h
  rw [← hread] at hf
  rw [(Footnote.ofLine?_eq_ok (BodyLine.footnote?_read_iff.mp hf)).1, hline]

theorem map_key_allFootnotes (header : Header) (lines : List Text) :
    (allFootnotes header lines).map Footnote.key = noteKeys (views header lines) := by
  rw [allFootnotes, noteKeys, views, List.map_filterMap, List.filterMap_map]
  refine List.filterMap_congr fun entry hentry => ?_
  simp only [Function.comp_apply, ← BodyLine.footnote?_eq_view, Option.map_map]
  cases hfound : entry.2.footnote? with
  | none => rfl
  | some f => simp [Footnote.key, line_of_footnote hentry hfound]

theorem allFootnotes_ascending (header : Header) (lines : List Text) :
    (allFootnotes header lines).Pairwise fun f g => f.line < g.line := by
  rw [allFootnotes, List.pairwise_filterMap]
  refine (bodyOf_ascending header lines).imp_of_mem fun {a b} ha hb hlt f hf g hg => ?_
  rw [line_of_footnote ha hf, line_of_footnote hb hg]
  exact hlt

theorem pairwise_line_allFootnotes (header : Header) (lines : List Text) :
    (allFootnotes header lines).Pairwise fun f g => f.line ≠ g.line :=
  (allFootnotes_ascending header lines).imp Nat.ne_of_lt

/-- A document is free of faults exactly if its header is, no line is malformed, and no two footnotes share
    a name. -/
theorem faults_eq_nil_iff (lines : List Text) :
    (ofLines lines).faults = [] ↔ (Header.ofLines lines).faults = [] ∧
      (∀ entry ∈ views (Header.ofLines lines) lines, entry.2 ≠ .malformed) ∧
      ((noteKeys (views (Header.ofLines lines) lines)).map Prod.fst).Nodup := by
  have hnames : (noteKeys (views (Header.ofLines lines) lines)).map Prod.fst =
      (allFootnotes (Header.ofLines lines) lines).map Footnote.name := by
    rw [← map_key_allFootnotes, List.map_map]
    rfl
  rw [hnames, ← Footnote.forall_isFirst_iff (pairwise_line_allFootnotes _ lines)]
  simp only [ofLines, List.append_eq_nil_iff, List.flatMap_eq_nil_iff, List.map_eq_nil_iff,
    BodyLine.faults_eq_nil_iff, views, List.mem_map, allFootnotes, List.mem_filterMap]
  refine and_congr_right fun _ => ⟨fun h => ⟨?_, ?_⟩, fun h entry hentry => ⟨?_, ?_⟩⟩
  · rintro _ ⟨entry, hentry, rfl⟩
    exact (h entry hentry).1
  · rintro f ⟨entry, hentry, hf⟩
    exact (h entry hentry).2 f hf
  · exact h.1 _ ⟨entry, hentry, rfl⟩
  · exact fun f hf => h.2 f ⟨entry, hentry, hf⟩

/-- The sites of a document without faults are those of its lines. -/
theorem map_key_sites {lines : List Text} (h : (ofLines lines).faults = []) :
    (ofLines lines).sites.map Site.key = siteKeys (views (Header.ofLines lines) lines) := by
  obtain ⟨-, hwell, -⟩ := (faults_eq_nil_iff lines).mp h
  simp only [ofLines, siteKeys, views, List.map_flatMap, List.flatMap_map]
  refine List.flatMap_congr fun entry hentry => ?_
  rw [← BodyLine.siteList_eq_entries (hwell _ (List.mem_map_of_mem hentry)), List.map_map]
  refine List.map_congr_left fun s hs => ?_
  simp [Site.key, Site.entry, line_of_site hentry hs]

/-- The footnotes of a document without faults are those of its lines. -/
theorem footnotes_eq_all {lines : List Text} (h : (ofLines lines).faults = []) :
    (ofLines lines).footnotes = allFootnotes (Header.ofLines lines) lines := by
  obtain ⟨-, -, hnames⟩ := (faults_eq_nil_iff lines).mp h
  rw [← map_key_allFootnotes, List.map_map] at hnames
  exact List.filter_eq_self.mpr
    ((Footnote.forall_isFirst_iff (pairwise_line_allFootnotes _ lines)).mpr hnames)

theorem map_key_footnotes {lines : List Text} (h : (ofLines lines).faults = []) :
    (ofLines lines).footnotes.map Footnote.key = noteKeys (views (Header.ofLines lines) lines) := by
  rw [footnotes_eq_all h, map_key_allFootnotes]

end ParsedDocument

end ReqTrace
