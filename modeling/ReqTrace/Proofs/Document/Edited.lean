/-
Module: ReqTrace.Proofs.Document.Edited
Purpose: What edits do to the lines of a document. The edit of a marker replaces that marker in its line, the edit
  of a footnote replaces its line, and all other lines stay. New footnotes follow the last line that is not blank.
Main exports: Action.line?, LineEdit, LineEdits, rewriteSite?, AddedAtEnd, patchDocument_lines
-/
import ReqTrace.Apply
import ReqTrace.Proofs.Document.Appended
import ReqTrace.Proofs.FileTree

namespace ReqTrace

open Text

/-! ### Edits of lines

The relations say what an edit finds and what it leaves, without the functions that carry it out. -/

/-- The line of a document that an edit names. A footnote at line zero is added at the end. -/
def Action.line? : Action → Option Nat
  | site _ line _ _ => some line
  | footnote _ line _ _ => some line
  | setHash _ _ _ => none
  | dropHash _ _ => none

/-- What an edit does to the lines of a document. Lines are counted from one. -/
inductive LineEdit (lines : List Text) : Action → List Text → Prop where
  /-- A line whose markers are all well formed gets the payload in the place of the first marker of the name,
      between what stands before and after that marker. -/
  | marker {path : Path} {n : Nat} {requirement : RequirementId} {payload left right : Text}
      {status : SiteStatus} {earlier later : List Site}
      (line : lines[n]? = some (left ++ Site.render requirement.name status ++ right))
      (read : Site.ofLine (n + 1) (left ++ Site.render requirement.name status ++ right) =
        (earlier ++ Site.placed (n + 1) (byteLength left) requirement.name status :: later).map .ok)
      (first : ∀ s ∈ earlier, s.name ≠ requirement.name) :
      LineEdit lines (.site path (n + 1) requirement payload) (lines.set n (left ++ payload ++ right))
  /-- A line that is a footnote of the name becomes the payload. -/
  | note {path : Path} {n : Nat} {requirement : RequirementId} {payload t : Text} {footnote : Footnote}
      (line : lines[n]? = some t) (read : Footnote.ofLine? (n + 1) t = some (.ok footnote))
      (name : footnote.name = requirement.name) :
      LineEdit lines (.footnote path (n + 1) requirement payload) (lines.set n payload)
  /-- A footnote that is added later changes no line. -/
  | later (path : Path) (requirement : RequirementId) (payload : Text) :
      LineEdit lines (.footnote path 0 requirement payload) lines
  /-- An edit of a manifest changes no line. -/
  | elsewhere {a : Action} (manifest : a.isManifestEdit = true) : LineEdit lines a lines

/-- Edits one after the other, each of what the one before has left. -/
inductive LineEdits : List Text → List Action → List Text → Prop where
  | nil (lines : List Text) : LineEdits lines [] lines
  | cons {lines next last : List Text} {a : Action} {actions : List Action} (first : LineEdit lines a next)
      (rest : LineEdits next actions last) : LineEdits lines (a :: actions) last

theorem LineEdit.length_eq {lines lines' : List Text} {a : Action} (h : LineEdit lines a lines') :
    lines'.length = lines.length := by
  cases h with
  | marker line read first => exact List.length_set
  | note line read name => exact List.length_set
  | later path requirement payload => rfl
  | elsewhere manifest => rfl

/-- An edit changes no line but the one that it names. -/
theorem LineEdit.getElem?_eq {lines lines' : List Text} {a : Action} (h : LineEdit lines a lines') {n : Nat}
    (other : a.line? ≠ some (n + 1)) : lines'[n]? = lines[n]? := by
  cases h with
  | marker line read first =>
      apply List.getElem?_set_ne
      exact fun heq => other (by rw [Action.line?, heq])
  | note line read name =>
      apply List.getElem?_set_ne
      exact fun heq => other (by rw [Action.line?, heq])
  | later path requirement payload => rfl
  | elsewhere manifest => rfl

/-- An edit at line zero adds a footnote. -/
theorem LineEdit.exists_payload {lines lines' : List Text} {a : Action} (h : LineEdit lines a lines')
    (atEnd : a.line? = some 0) : ∃ payload, newFootnotes [a] = [payload] := by
  cases h with
  | marker line read first => cases atEnd
  | note line read name => cases atEnd
  | later path requirement payload => exact ⟨payload, rfl⟩
  | elsewhere manifest =>
      cases a with
      | site path line requirement payload => cases manifest
      | footnote path line requirement payload => cases manifest
      | setHash path url hash => cases atEnd
      | dropHash path url => cases atEnd

/-- Only edits at line zero add footnotes. -/
theorem newFootnotes_singleton {a : Action} (other : a.line? ≠ some 0) : newFootnotes [a] = [] := by
  cases a with
  | site path line requirement payload => rfl
  | footnote path line requirement payload =>
      cases line with
      | zero => exact absurd rfl other
      | succ n => rfl
  | setHash path url hash => rfl
  | dropHash path url => rfl

theorem LineEdits.length_eq {lines lines' : List Text} {actions : List Action}
    (h : LineEdits lines actions lines') : lines'.length = lines.length := by
  induction h with
  | nil lines => rfl
  | cons first rest ih => exact ih.trans first.length_eq

/-- Lines that no edit names stay as they are. -/
theorem LineEdits.getElem?_eq {lines lines' : List Text} {actions : List Action}
    (h : LineEdits lines actions lines') {n : Nat} (other : ∀ a ∈ actions, a.line? ≠ some (n + 1)) :
    lines'[n]? = lines[n]? := by
  induction h with
  | nil lines => rfl
  | cons first rest ih =>
      have hrest := ih fun a ha => other a (List.mem_cons_of_mem _ ha)
      exact hrest.trans (first.getElem?_eq (other _ List.mem_cons_self))

/-- Footnotes are added exactly if an edit names line zero. -/
theorem LineEdits.newFootnotes_eq_nil_iff {lines lines' : List Text} {actions : List Action}
    (h : LineEdits lines actions lines') :
    newFootnotes actions = [] ↔ ∀ a ∈ actions, a.line? ≠ some 0 := by
  induction h with
  | nil lines => simp [newFootnotes]
  | @cons lines next last a actions first rest ih =>
      have hsplit : newFootnotes (a :: actions) = newFootnotes [a] ++ newFootnotes actions :=
        List.filterMap_append (l := [a])
      rw [hsplit, List.append_eq_nil_iff, ih, List.forall_mem_cons]
      apply and_congr_left'
      constructor
      · intro hnone atEnd
        obtain ⟨payload, hpayload⟩ := first.exists_payload atEnd
        rw [hnone] at hpayload
        cases hpayload
      · exact newFootnotes_singleton

/-! ### Edits that are carried out -/

/-- A site is found on a line if all markers of the line are well formed and it is the first one of its name. -/
theorem siteOn?_eq_some_iff {line : Nat} {t : Text} {name : Identifier} {s : Site} :
    siteOn? line t name = some s ↔ ∃ earlier later, Site.ofLine line t = (earlier ++ s :: later).map .ok ∧
      s.name = name ∧ ∀ x ∈ earlier, x.name ≠ name := by
  constructor
  · intro h
    unfold siteOn? at h
    split at h
    · rename_i found hfound
      obtain ⟨hname, earlier, later, rfl, hearlier⟩ := List.find?_eq_some_iff_append.mp h
      refine ⟨earlier, later, mapM_toOption_eq_some_iff.mp hfound, beq_iff_eq.mp hname, fun x hx heq => ?_⟩
      have hnot := hearlier x hx
      simp [heq] at hnot
    · cases h
  · intro h
    obtain ⟨earlier, later, hread, rfl, hearlier⟩ := h
    rw [siteOn?, mapM_toOption_eq_some_iff.mpr hread]
    apply List.find?_eq_some_iff_append.mpr
    exact ⟨beq_self_eq_true _, earlier, later, rfl, fun x hx => by simpa using hearlier x hx⟩

/-- A site of a name is found on a line exactly if all markers of the line are well formed and one of them has
    the name. -/
theorem exists_siteOn?_iff {line : Nat} {t : Text} {name : Identifier} :
    (∃ s, siteOn? line t name = some s) ↔
      ∃ sites : List Site, Site.ofLine line t = sites.map .ok ∧ name ∈ sites.map Site.name := by
  constructor
  · intro h
    obtain ⟨s, h⟩ := h
    obtain ⟨earlier, later, hread, rfl, -⟩ := siteOn?_eq_some_iff.mp h
    exact ⟨_, hread, by simp⟩
  · intro h
    obtain ⟨sites, hread, hname⟩ := h
    obtain ⟨s, hs, rfl⟩ := List.mem_map.mp hname
    have hfound : (sites.find? (·.name == s.name)).isSome = true :=
      List.find?_isSome.mpr ⟨s, hs, beq_self_eq_true _⟩
    obtain ⟨found, hfound⟩ := Option.isSome_iff_exists.mp hfound
    exact ⟨found, by rw [siteOn?, mapM_toOption_eq_some_iff.mpr hread]; exact hfound⟩

/-- A site that is found on a line stands there as its marker, between what is kept when it is replaced. -/
theorem exists_cut_of_siteOn? {line : Nat} {t : Text} {name : Identifier} {s : Site}
    (h : siteOn? line t name = some s) :
    ∃ left right, t = left ++ Site.render name s.status ++ right ∧
      s = Site.placed line (byteLength left) name s.status ∧
      ∀ payload, LineFile.replaceIn? t s.span payload = some (left ++ payload ++ right) := by
  obtain ⟨earlier, later, hread, rfl, -⟩ := siteOn?_eq_some_iff.mp h
  rw [List.map_append, List.map_cons] at hread
  obtain ⟨left, right, rfl, hplaced, -⟩ := Site.exists_eq_append_render hread
  have hspan : s.span = ⟨byteLength left, byteLength left + byteLength (Site.render s.name s.status)⟩ := by
    rw [hplaced]
    rfl
  refine ⟨left, right, rfl, hplaced, fun payload => ?_⟩
  rw [hspan]
  exact LineFile.replaceIn?_append left _ right payload

/-- The line with another text in the place of the first marker of a name, if all its markers are well formed. -/
def rewriteSite? (line : Nat) (name : Identifier) (payload t : Text) : Option Text :=
  (siteOn? line t name).bind fun s => LineFile.replaceIn? t s.span payload

/-- The marker that is replaced is the first one of its name, and all other sites only move. -/
theorem rewriteSite?_render {line : Nat} {left right : Text} {name : Identifier} {old status : SiteStatus}
    {earlier later : List Site} (read : Site.ofLine line (left ++ Site.render name old ++ right) =
      (earlier ++ Site.placed line (byteLength left) name old :: later).map .ok)
    (first : ∀ s ∈ earlier, s.name ≠ name) (annotated : status ≠ .bare) :
    rewriteSite? line name (Site.render name status) (left ++ Site.render name old ++ right) =
        some (left ++ Site.render name status ++ right) ∧
      Site.ofLine line (left ++ Site.render name status ++ right) =
        (earlier ++ Site.placed line (byteLength left) name status :: later.map
          (Site.shift (byteLength (Site.render name old)) (byteLength (Site.render name status)))).map .ok := by
  have hfound : siteOn? line (left ++ Site.render name old ++ right) name =
      some (Site.placed line (byteLength left) name old) :=
    siteOn?_eq_some_iff.mpr ⟨earlier, later, read, rfl, first⟩
  constructor
  · rw [rewriteSite?, hfound]
    exact LineFile.replaceIn?_append left _ right _
  · rw [List.map_append, List.map_cons] at read
    rw [Site.ofLine_rewritten read annotated, List.map_append, List.map_cons, List.map_map, List.map_map]
    rfl

namespace LineFile

theorem exists_of_line? {f : LineFile} {line : Nat} {t : Text} (h : f.line? line = some t) :
    ∃ n, line = n + 1 ∧ f.lines[n]? = some t := by
  cases line with
  | zero => cases h
  | succ n => exact ⟨n, rfl, h⟩

/-- A marker is replaced exactly if its line is there and a site of the name is found on it. -/
theorem patchSite_eq_ok_iff {path : Path} {f f' : LineFile} {line : Nat} {requirement : RequirementId}
    {payload : Text} : f.patchSite path line requirement payload = .ok f' ↔
      ∃ t s t', f.line? line = some t ∧ siteOn? line t requirement.name = some s ∧
        replaceIn? t s.span payload = some t' ∧ f' = f.setLine line t' := by
  unfold patchSite
  cases hline : f.line? line with
  | none => simp
  | some t =>
      cases hsite : siteOn? line t requirement.name with
      | none => simp [hsite]
      | some s =>
          obtain ⟨left, right, -, -, hreplaced⟩ := exists_cut_of_siteOn? hsite
          simp only [Option.bind_some, replaceSpan?, hline, hsite, hreplaced, Option.bind_eq_bind,
            Option.pure_def, Except.ok.injEq, Option.some.injEq, exists_eq_left', existsAndEq, true_and]
          exact eq_comm

theorem lineEdit_of_patchSite {path p : Path} {f f' : LineFile} {line : Nat} {requirement : RequirementId}
    {payload : Text} (h : f.patchSite path line requirement payload = .ok f') :
    LineEdit f.lines (.site p line requirement payload) f'.lines ∧ f'.ending = f.ending := by
  obtain ⟨t, s, t', hline, hsite, hreplaced, rfl⟩ := patchSite_eq_ok_iff.mp h
  obtain ⟨n, rfl, ht⟩ := exists_of_line? hline
  obtain ⟨left, right, rfl, hplaced, hcut⟩ := exists_cut_of_siteOn? hsite
  obtain ⟨earlier, later, hread, -, hearlier⟩ := siteOn?_eq_some_iff.mp hsite
  obtain rfl := Option.some.inj ((hcut payload).symm.trans hreplaced)
  rw [hplaced] at hread
  exact ⟨.marker ht hread hearlier, rfl⟩

/-- A footnote is replaced exactly if its line is there and is a footnote of the name. -/
theorem patchFootnote_eq_ok_iff {path : Path} {f f' : LineFile} {line : Nat} {requirement : RequirementId}
    {payload : Text} : f.patchFootnote path line requirement payload = .ok f' ↔
      ∃ t, f.line? line = some t ∧ isFootnoteOf line t requirement.name = true ∧ f' = f.setLine line payload := by
  unfold patchFootnote
  cases hline : f.line? line with
  | none => simp
  | some t =>
      by_cases hnote : isFootnoteOf line t requirement.name = true
      · simp only [hnote, if_true, Except.ok.injEq, Option.some.injEq, exists_eq_left', true_and]
        exact eq_comm
      · simp [hnote]

theorem lineEdit_of_patchFootnote {path p : Path} {f f' : LineFile} {line : Nat} {requirement : RequirementId}
    {payload : Text} (h : f.patchFootnote path line requirement payload = .ok f') :
    LineEdit f.lines (.footnote p line requirement payload) f'.lines ∧ f'.ending = f.ending := by
  obtain ⟨t, hline, hnote, rfl⟩ := patchFootnote_eq_ok_iff.mp h
  obtain ⟨n, rfl, ht⟩ := exists_of_line? hline
  unfold isFootnoteOf at hnote
  split at hnote
  · rename_i footnote hfound
    exact ⟨.note ht hfound (beq_iff_eq.mp hnote), rfl⟩
  · cases hnote

/-- An edit that is carried out edits the lines, and the line breaks stay. -/
theorem lineEdit_of_patch {path : Path} {f f' : LineFile} {a : Action} (h : f.patch path a = .ok f') :
    LineEdit f.lines a f'.lines ∧ f'.ending = f.ending := by
  cases a with
  | site p line requirement payload => exact lineEdit_of_patchSite h
  | footnote p line requirement payload =>
      cases line with
      | zero =>
          cases h
          exact ⟨.later p requirement payload, rfl⟩
      | succ n => exact lineEdit_of_patchFootnote h
  | setHash p url hash =>
      cases h
      exact ⟨.elsewhere rfl, rfl⟩
  | dropHash p url =>
      cases h
      exact ⟨.elsewhere rfl, rfl⟩

theorem lineEdits_of_foldlM_patch {path : Path} {f f' : LineFile} {actions : List Action}
    (h : actions.foldlM (patch path) f = .ok f') :
    LineEdits f.lines actions f'.lines ∧ f'.ending = f.ending := by
  induction actions generalizing f with
  | nil =>
      cases h
      exact ⟨.nil _, rfl⟩
  | cons a actions ih =>
      rw [List.foldlM_cons] at h
      obtain ⟨next, hfirst, hrest⟩ := bind_eq_ok_iff.mp h
      obtain ⟨hedit, hending⟩ := lineEdit_of_patch hfirst
      obtain ⟨hedits, hending'⟩ := ih hrest
      exact ⟨.cons hedit hedits, hending'.trans hending⟩

end LineFile

/-! ### Lines at the end -/

/-- What is written when footnotes are added at the end of some lines: the lines up to the last one that is not
    blank, an empty line if there are any and the last of them is no footnote, the footnotes, and an empty line. -/
def AddedAtEnd (lines footnotes written : List Text) : Prop :=
  ∃ body blanks, lines = body ++ blanks ∧ (∀ t ∈ blanks, isBlank t = true) ∧
    (∀ last ∈ body.getLast?, isBlank last = false) ∧
    written = body ++ (if body.getLast?.any (!Footnote.isFootnoteLine ·) then [[]] else []) ++ footnotes ++ [[]]

theorem LineFile.addedAtEnd_appendFootnotes (f : LineFile) {footnotes : List Text} (some : footnotes ≠ []) :
    AddedAtEnd f.lines footnotes (f.appendFootnotes footnotes).lines := by
  obtain ⟨blanks, hsplit, hblanks⟩ := exists_dropBlankEnd_eq f.lines
  refine ⟨dropBlankEnd f.lines, blanks, hsplit, hblanks, isBlank_getLast?_dropBlankEnd f.lines, ?_⟩
  rw [appendFootnotes, if_neg (by simpa using some), ← separator_eq]

theorem LineFile.ending_appendFootnotes (f : LineFile) (footnotes : List Text) :
    (f.appendFootnotes footnotes).ending = f.ending := by
  unfold appendFootnotes
  split
  · rfl
  · rfl

/-! ### Documents -/

/-- What carrying out edits does to a document, whichever edits they are and however many of them name one line.
    Its lines get the edits one after the other, so a line that no edit names stays as it is, and so does all of a
    line around a marker that is replaced. If no edit names line zero, the edited lines are what is written, and
    else the new footnotes are added at their end. The line breaks are those of the document before. -/
theorem patchDocument_lines {path : Path} {t t' : Text} {actions : List Action}
    (h : patchDocument path t actions = .ok t') :
    ∃ edited written : List Text,
      edited.length = (LineFile.parse t).lines.length ∧
      (∀ n, (∀ a ∈ actions, a.line? ≠ some (n + 1)) → edited[n]? = (LineFile.parse t).lines[n]?) ∧
      LineEdits (LineFile.parse t).lines actions edited ∧
      ((∀ a ∈ actions, a.line? ≠ some 0) → written = edited) ∧
      ((∃ a ∈ actions, a.line? = some 0) → AddedAtEnd edited (newFootnotes actions) written) ∧
      t' = Text.join (LineEnding.detect t).text written := by
  obtain ⟨applied, happlied, hrender⟩ := bind_eq_ok_iff.mp h
  obtain ⟨patched, hpatched, happended⟩ := bind_eq_ok_iff.mp happlied
  cases hrender
  cases happended
  obtain ⟨hedits, hending⟩ := LineFile.lineEdits_of_foldlM_patch hpatched
  refine ⟨patched.lines, (patched.appendFootnotes (newFootnotes actions)).lines, hedits.length_eq,
    fun n => hedits.getElem?_eq, hedits, ?_, ?_, ?_⟩
  · intro hnone
    rw [hedits.newFootnotes_eq_nil_iff.mpr hnone]
    rfl
  · intro hsome
    obtain ⟨a, ha, hzero⟩ := hsome
    apply patched.addedAtEnd_appendFootnotes
    exact fun hnil => hedits.newFootnotes_eq_nil_iff.mp hnil a ha hzero
  · have hsame : (patched.appendFootnotes (newFootnotes actions)).ending = LineEnding.detect t := by
      rw [LineFile.ending_appendFootnotes, hending]
      rfl
    rw [LineFile.render, hsame]

/-- Two markers on one line are replaced, each in what the other edit has left, a footnote is replaced, and a
    footnote is added after it in place of the blank line. -/
theorem patchDocument_lines_two_markers :
    let a : RequirementId := ⟨⟨['p'], by decide⟩, ⟨['A'], by decide⟩⟩
    let b : RequirementId := ⟨⟨['p'], by decide⟩, ⟨['B'], by decide⟩⟩
    let path : Path := ⟨"a.md".toList⟩
    let text := "of\r\n`~A~` or `~B~`\r\n[^~B~]: `x`\r\n\r\n".toList
    let actions : List Action := [
      .footnote path 0 a "[^~A~]: `y`".toList, .site path 2 b "`~B~`covered[^~B~]✅".toList,
      .site path 2 a "`~A~`covered[^~A~]✅".toList, .footnote path 3 b "[^~B~]: `z`".toList]
    let text' := ("of\r\n`~A~`covered[^~A~]✅ or `~B~`covered[^~B~]✅\r\n" ++
      "[^~B~]: `z`\r\n[^~A~]: `y`\r\n").toList
    patchDocument path text actions = .ok text' ∧
      ∃ edited written, edited.length = 5 ∧ edited[0]? = some "of".toList ∧
        LineEdits (LineFile.parse text).lines actions edited ∧
        AddedAtEnd edited ["[^~A~]: `y`".toList] written ∧ text' = Text.join "\r\n".toList written := by
  intro a b path text actions text'
  have h : patchDocument path text actions = .ok text' := by decide +kernel
  obtain ⟨edited, written, hlength, hother, hedits, -, hadded, hjoin⟩ := patchDocument_lines h
  refine ⟨h, edited, written, hlength.trans (by decide +kernel), ?_, hedits, ?_, ?_⟩
  · exact (hother 0 (by decide)).trans (by decide +kernel)
  · exact hadded ⟨_, List.mem_cons_self, rfl⟩
  · have hending : LineEnding.detect text = .crlf := by decide +kernel
    rw [hending] at hjoin
    exact hjoin

end ReqTrace
