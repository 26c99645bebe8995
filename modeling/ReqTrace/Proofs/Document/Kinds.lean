/-
Module: ReqTrace.Proofs.Document.Kinds
Purpose: The kind of a line: its part in a header, its shape, and what it says apart from statuses and the text
  of a footnote. An edit in place that is carried out, on whatever text, keeps the kinds of all lines as long as
  it writes no marker into a footnote.
Main exports: Header.LinePart, LineKind, SameKinds, SameKinds.ofLines_header, SameKinds.views_outline,
  Action.WellWritten, LineEdits.sameKinds, ParsedDocument.faults_patchDocument_iff
-/
import ReqTrace.Proofs.Document.Edited
import ReqTrace.Proofs.Document.Retold

namespace ReqTrace

open Text

/-! ### The part of a line in a header -/

namespace Header

/-- What the header reads off a line: whether it is blank, whether it is a fence, and the package that it
    names, valid or not. -/
structure LinePart where
  blank : Bool
  fence : Bool
  package? : Option (Option Identifier)

/-- The part of a line in a header. -/
def partOf (t : Text) : LinePart :=
  { blank := isBlank t
    fence := isFence t
    package? := (dropLead? packageKey (trim t)).map fun value => Identifier.parse? (trim value) }

/-- A header without faults is read from the parts of the lines. -/
theorem ofLines_congr {lines lines' : List Text} (h : lines'.map partOf = lines.map partOf)
    (faults : (ofLines lines).faults = []) : ofLines lines' = ofLines lines := by
  have hstart : (lines'.takeWhile isBlank).length = (lines.takeWhile isBlank).length := by
    have hmap : ∀ lines : List Text,
        (lines.takeWhile isBlank).length = ((lines.map partOf).takeWhile LinePart.blank).length := by
      intro lines
      rw [List.takeWhile_map, List.length_map]
      rfl
    rw [hmap, hmap, h]
  have hdrop : (lines'.drop (lines.takeWhile isBlank).length).map partOf =
      (lines.drop (lines.takeWhile isBlank).length).map partOf := by
    rw [List.map_drop, List.map_drop, h]
  simp only [ofLines, hstart] at faults ⊢
  generalize lines.drop (lines.takeWhile isBlank).length = rest at faults hdrop ⊢
  generalize lines'.drop (lines.takeWhile isBlank).length = rest' at hdrop ⊢
  have hparts : List.Forall₂ (fun t t' => partOf t' = partOf t) rest rest' := by
    rw [← List.forall₂_eq_eq_eq, List.forall₂_map_left_iff, List.forall₂_map_right_iff] at hdrop
    exact hdrop.flip
  -- A header takes three lines.
  rcases hparts with _ | ⟨hopening, _ | ⟨hinner, _ | ⟨hclosing, -⟩⟩⟩
  · rfl
  · rfl
  · rfl
  · rename_i opening opening' inner inner' closing closing' tail tail'
    have hfence : isFence opening' = isFence opening := congrArg LinePart.fence hopening
    have hfence' : isFence closing' = isFence closing := congrArg LinePart.fence hclosing
    have hpackage := congrArg LinePart.package? hinner
    simp only [partOf] at hpackage
    simp only [hfence, hfence'] at faults ⊢
    split
    · rename_i hfences
      rw [if_pos hfences] at faults
      cases hvalue : dropLead? packageKey (trim inner) with
      | none =>
          cases hvalue' : dropLead? packageKey (trim inner') with
          | none => rfl
          | some value' => simp [hvalue, hvalue'] at hpackage
      | some value =>
          cases hvalue' : dropLead? packageKey (trim inner') with
          | none => simp [hvalue, hvalue'] at hpackage
          | some value' =>
              simp only [hvalue, hvalue', Option.map_some, Option.some.injEq] at hpackage faults ⊢
              rw [hpackage]
              cases hparsed : Identifier.parse? (trim value) with
              | none =>
                  rw [hparsed] at faults
                  cases faults
              | some package => rfl
    · rfl

/-- What stands before a marker decides on the part of its line. A package with a marker in it is not
    valid. -/
theorem partOf_append_opening (left rest : Text) :
    partOf (left ++ '`' :: '~' :: rest) =
      { blank := false
        fence := fence.isPrefixOf (trimStart left ++ ['`'])
        package? := (dropLead? packageKey (trimStart left ++ ['`'])).map fun _ => none } := by
  have hback : isBlankChar '`' = false := by decide
  have htilde : isBlankChar '~' = false := by decide
  have hstart : trimStart (left ++ '`' :: '~' :: rest) = (trimStart left ++ ['`']) ++ '~' :: rest := by
    simp [trimStart, dropWhile_append_stop isBlankChar left ('~' :: rest) hback]
  have hblank : isBlank (left ++ '`' :: '~' :: rest) = false := by
    refine Bool.eq_false_iff.mpr fun hall => ?_
    exact not_mem_of_isBlank hall hback (List.mem_append_right _ List.mem_cons_self)
  have hfence : fence.isPrefixOf ((trimStart left ++ ['`']) ++ '~' :: rest) =
      fence.isPrefixOf (trimStart left ++ ['`']) := by
    have hlead := dropLead?_append_stop (by decide : '~' ∉ fence) (trimStart left ++ ['`']) rest
    rw [← isSome_dropLead?, ← isSome_dropLead?, hlead, Option.isSome_map]
  have hvalue : ∀ s, Identifier.parse? (trim (s ++ '~' :: trimEnd rest)) = none := by
    intro s
    have hmem : '~' ∈ trim (s ++ '~' :: trimEnd rest) := by
      have hcut : trimStart (s ++ '~' :: trimEnd rest) = trimStart s ++ '~' :: trimEnd rest :=
        dropWhile_append_stop isBlankChar s _ htilde
      rw [trim, hcut, trimEnd_append_stop _ _ htilde]
      exact List.mem_append_right _ List.mem_cons_self
    refine Option.eq_none_iff_forall_ne_some.mpr fun i heq => ?_
    rw [← Identifier.parse?_eq_some_iff.mp heq] at hmem
    exact i.not_mem_text (by decide) hmem
  have hpackage : (dropLead? packageKey (trim (left ++ '`' :: '~' :: rest))).map
      (fun value => Identifier.parse? (trim value)) =
        (dropLead? packageKey (trimStart left ++ ['`'])).map fun _ => none := by
    rw [trim, hstart, trimEnd_append_stop _ _ htilde, dropLead?_append_stop (by decide : '~' ∉ packageKey),
      Option.map_map]
    exact congrArg (fun f => Option.map f _) (funext hvalue)
  simp only [partOf, isFence, hblank, hstart, hfence, hpackage]

/-- A line that is shaped like a footnote plays no part in a header. -/
theorem partOf_footnote {t : Text} (h : Footnote.isFootnoteLine t = true) :
    partOf t = ⟨false, false, none⟩ := by
  have hfence := not_isFence_of_footnote h
  obtain ⟨rest, rfl⟩ := Footnote.exists_eq_cons h
  have hbracket : isBlankChar '[' = false := by decide
  have hblank : isBlank ('[' :: rest) = false := by simp [isBlank, hbracket]
  have hkey : dropLead? packageKey (trim ('[' :: rest)) = none := by
    have hstart : trimStart ('[' :: rest) = '[' :: rest := List.dropWhile_cons_of_neg (by simp [hbracket])
    have htrim : trim ('[' :: rest) = '[' :: trimEnd rest := by
      rw [trim, hstart]
      exact trimEnd_append_stop [] rest hbracket
    rw [htrim]
    rfl
  simp [partOf, hfence, hblank, hkey]

end Header

/-! ### Kinds of lines -/

/-- What a line says without the statuses of its sites and the text of its footnote. -/
def LineView.outline (v : LineView) : LineView :=
  v.retell (fun _ => .bare) fun _ => some []

/-- What stays the same about a line when a status on it changes or its footnote gets another text. -/
structure LineKind where
  part : Header.LinePart
  isFootnoteLine : Bool
  outline : LineView

/-- The kind of a line. -/
def kindOf (t : Text) : LineKind :=
  { part := Header.partOf t
    isFootnoteLine := Footnote.isFootnoteLine t
    outline := (BodyLine.read 0 t).view.outline }

theorem outline_view_read (line : Nat) (t : Text) :
    (BodyLine.read line t).view.outline = (kindOf t).outline := by
  rw [view_read_line line 0, kindOf]

/-- Lines with the same sites are of one kind if they differ in a marker only. -/
theorem kindOf_render {line : Nat} {left right : Text} {name : Identifier} {status status' : SiteStatus}
    {found found' : List Site}
    (shape : Footnote.isFootnoteLine (left ++ Site.render name status ++ right) = false)
    (h : Site.ofLine line (left ++ Site.render name status ++ right) = found.map .ok)
    (h' : Site.ofLine line (left ++ Site.render name status' ++ right) = found'.map .ok)
    (names : found'.map Site.name = found.map Site.name) :
    kindOf (left ++ Site.render name status' ++ right) = kindOf (left ++ Site.render name status ++ right) := by
  have hshape := Site.isFootnoteLine_render left right name status' status
  have hpart : Header.partOf (left ++ Site.render name status' ++ right) =
      Header.partOf (left ++ Site.render name status ++ right) := by
    obtain ⟨rest, hrender⟩ := Site.exists_render_eq name status
    obtain ⟨rest', hrender'⟩ := Site.exists_render_eq name status'
    simp only [hrender, hrender', List.append_assoc, List.cons_append, Header.partOf_append_opening]
  have hview := view_read_eq_sites_iff.mpr ⟨shape, found, h, rfl⟩
  have hview' := view_read_eq_sites_iff.mpr ⟨hshape.trans shape, found', h', rfl⟩
  have houtline : ∀ sites : List Site, (LineView.sites (sites.map Site.entry)).outline =
      .sites ((sites.map Site.name).map fun name => (name, .bare)) := by
    intro sites
    simp [LineView.outline, LineView.retell, Site.entry]
  have hsites : (kindOf (left ++ Site.render name status' ++ right)).outline =
      (kindOf (left ++ Site.render name status ++ right)).outline := by
    rw [← outline_view_read line, ← outline_view_read line, hview, hview', houtline, houtline, names]
  simp only [kindOf] at hsites ⊢
  rw [hpart, hshape, hsites]

/-- Footnotes of one name are lines of one kind. -/
theorem kindOf_footnote {line line' : Nat} {t t' : Text} {name : Identifier} {raw raw' : Text}
    (h : (BodyLine.read line t).view = .footnote name raw)
    (h' : (BodyLine.read line' t').view = .footnote name raw') : kindOf t' = kindOf t := by
  have houtline : (kindOf t').outline = (kindOf t).outline := by
    rw [← outline_view_read line t, ← outline_view_read line' t', h, h']
    rfl
  simp only [kindOf] at houtline ⊢
  rw [Header.partOf_footnote (isFootnoteLine_of_view h), Header.partOf_footnote (isFootnoteLine_of_view h'),
    isFootnoteLine_of_view h, isFootnoteLine_of_view h', houtline]

/-- Lines of the same kinds, of which none is broken. -/
structure SameKinds (old new : List Text) : Prop where
  kinds : new.map kindOf = old.map kindOf
  plain : (∀ t ∈ old, '\n' ∉ t) → ∀ t ∈ new, '\n' ∉ t

namespace SameKinds

theorem refl (lines : List Text) : SameKinds lines lines :=
  ⟨rfl, fun plain => plain⟩

theorem trans {first second third : List Text} (h : SameKinds first second) (h' : SameKinds second third) :
    SameKinds first third :=
  ⟨h'.kinds.trans h.kinds, fun plain => h'.plain (h.plain plain)⟩

theorem set {lines : List Text} {n : Nat} {t t' : Text} (ht : lines[n]? = some t)
    (kind : kindOf t' = kindOf t) (plain : '\n' ∉ t → '\n' ∉ t') : SameKinds lines (lines.set n t') := by
  obtain ⟨hlt, rfl⟩ := List.getElem?_eq_some_iff.mp ht
  refine ⟨?_, fun hplain u hu => ?_⟩
  · rw [List.map_set, kind, ← List.map_set, List.set_getElem_self]
  · rcases List.mem_or_eq_of_mem_set hu with hu | rfl
    · exact hplain u hu
    · exact plain (hplain _ (List.getElem_mem hlt))

variable {old new : List Text}

/-- The lines have the same header. -/
theorem ofLines_header (h : SameKinds old new) (faults : (Header.ofLines old).faults = []) :
    Header.ofLines new = Header.ofLines old := by
  refine Header.ofLines_congr ?_ faults
  have hparts := congrArg (List.map LineKind.part) h.kinds
  rw [List.map_map, List.map_map] at hparts
  exact hparts

/-- The lines say the same but for statuses and texts of footnotes. -/
theorem views_outline (h : SameKinds old new) (header : Header) :
    (views header new).map (fun entry => (entry.1, entry.2.outline)) =
      (views header old).map fun entry => (entry.1, entry.2.outline) := by
  have hkinds : ∀ lines, (views header lines).map (fun entry => (entry.1, entry.2.outline)) =
      (((lines.map kindOf).drop header.bodyStart).zipIdx (header.bodyStart + 1)).map fun (kind, line) =>
        (line, kind.outline) := by
    intro lines
    simp [views, ParsedDocument.bodyOf, ← List.map_drop, List.zipIdx_map, Function.comp_def,
      outline_view_read]
  rw [hkinds, hkinds, h.kinds]

/-- No line becomes malformed. -/
theorem wellFormed (h : SameKinds old new) {header : Header}
    (wellFormed : ∀ entry ∈ views header old, entry.2 ≠ .malformed) :
    ∀ entry ∈ views header new, entry.2 ≠ .malformed := by
  intro entry hentry hmalformed
  have hmem := List.mem_map_of_mem (f := fun entry : Nat × LineView => (entry.1, entry.2.outline)) hentry
  rw [h.views_outline header, hmalformed] at hmem
  obtain ⟨entry', hentry', heq⟩ := List.mem_map.mp hmem
  exact LineView.retell_ne_malformed (wellFormed entry' hentry') _ _ (Prod.mk.inj heq).2

/-- The footnotes have the same names. -/
theorem noteNames (h : SameKinds old new) (header : Header) :
    (noteKeys (views header new)).map Prod.fst = (noteKeys (views header old)).map Prod.fst := by
  have hnames : ∀ lines, (noteKeys (views header lines)).map Prod.fst =
      (noteKeys ((views header lines).map fun entry => (entry.1, entry.2.outline))).map Prod.fst := by
    intro lines
    simp only [LineView.outline, noteKeys_retell, List.map_map]
    rfl
  rw [hnames, hnames, h.views_outline header]

end SameKinds

/-! ### Edits in place -/

/-- An edit that writes what it is meant to write: a marker with a status, or a line that is a footnote of its
    requirement. -/
def Action.WellWritten : Action → Prop
  | .site _ _ id payload => ∃ status, status ≠ .bare ∧ payload = Site.render id.name status
  | .footnote _ _ id payload =>
      '\n' ∉ payload ∧ ∀ line, (BodyLine.read line payload).view = .footnote id.name payload
  | .setHash _ _ _ => True
  | .dropHash _ _ => True

/-- An edit that does not write a marker into a line that is shaped like a footnote. -/
def Action.SparesFootnotes (f : LineFile) : Action → Prop
  | .site _ line _ _ => ∀ t ∈ f.line? line, Footnote.isFootnoteLine t = false
  | .footnote _ _ _ _ => True
  | .setHash _ _ _ => True
  | .dropHash _ _ => True

instance (f : LineFile) (a : Action) : Decidable (a.SparesFootnotes f) := by
  unfold Action.SparesFootnotes
  split <;> infer_instance

/-- An edit keeps the kinds of all lines. -/
theorem LineEdit.sameKinds {f : LineFile} {lines : List Text} {a : Action} (h : LineEdit f.lines a lines)
    (written : a.WellWritten) (spares : a.SparesFootnotes f) : SameKinds f.lines lines := by
  cases h with
  | @marker path n requirement payload left right old earlier later line read first =>
      obtain ⟨status, annotated, rfl⟩ := written
      have hsplit : Site.ofLine (n + 1) (left ++ Site.render requirement.name old ++ right) =
          earlier.map .ok ++ .ok (Site.placed (n + 1) (byteLength left) requirement.name old) ::
            later.map .ok := by
        rw [read, List.map_append, List.map_cons]
      have hwritten : Site.ofLine (n + 1) (left ++ Site.render requirement.name status ++ right) =
          (earlier ++ Site.placed (n + 1) (byteLength left) requirement.name status :: later.map (Site.shift
            (byteLength (Site.render requirement.name old))
            (byteLength (Site.render requirement.name status)))).map .ok := by
        rw [Site.ofLine_rewritten hsplit annotated, List.map_append, List.map_cons, List.map_map, List.map_map]
        rfl
      apply SameKinds.set line
      · apply kindOf_render (spares _ line) read hwritten
        simp [Site.placed, Site.shift, Function.comp_def]
      · have hrender := Site.not_mem_render requirement.name status
        simp only [List.mem_append, not_or]
        exact fun plain => ⟨⟨plain.1.1, hrender⟩, plain.2⟩
  | @note path n requirement payload t footnote line read name =>
      have hview := view_read_eq_footnote_iff.mpr ⟨footnote, read, name, rfl⟩
      exact SameKinds.set line (kindOf_footnote hview (written.2 0)) fun _ => written.1
  | later path requirement payload => exact .refl _
  | elsewhere manifest => exact .refl _

theorem SameKinds.spares {f f' : LineFile} (h : SameKinds f.lines f'.lines) {a : Action}
    (spares : a.SparesFootnotes f) : a.SparesFootnotes f' := by
  cases a with
  | site p line id payload =>
      intro t' ht'
      obtain ⟨n, rfl, hline'⟩ := LineFile.exists_of_line? ht'
      have hkind := congrArg (·[n]?) h.kinds
      simp only [List.getElem?_map, hline', Option.map_some] at hkind
      obtain ⟨t, ht, heq⟩ := Option.map_eq_some_iff.mp hkind.symm
      have hshape : Footnote.isFootnoteLine t = Footnote.isFootnoteLine t' :=
        congrArg LineKind.isFootnoteLine heq
      rw [← hshape]
      exact spares t ht
  | footnote p line id payload => trivial
  | setHash p url hash => trivial
  | dropHash p url => trivial

/-- Edits that are carried out one after the other keep the kinds of all lines. -/
theorem LineEdits.sameKinds {f f' : LineFile} {actions : List Action} (h : LineEdits f.lines actions f'.lines)
    (written : ∀ a ∈ actions, a.WellWritten) (spares : ∀ a ∈ actions, a.SparesFootnotes f) :
    SameKinds f.lines f'.lines := by
  generalize hlines : f.lines = lines at h
  generalize hlines' : f'.lines = lines' at h
  induction h generalizing f with
  | nil lines => exact .refl _
  | @cons lines next last a actions first rest ih =>
      subst hlines
      have hfirst := first.sameKinds (written a List.mem_cons_self) (spares a List.mem_cons_self)
      have hrest := ih (fun b hb => written b (List.mem_cons_of_mem _ hb))
        (fun b hb => @SameKinds.spares f { f with lines := next } hfirst b
          (spares b (List.mem_cons_of_mem _ hb))) rfl hlines'
      exact hfirst.trans hrest

/-! ### Patched documents -/

/-- The footnotes that are added at the end of a document, with the names of their requirements. -/
def addedFootnotes (actions : List Action) : List (Identifier × Text) :=
  actions.filterMap fun
    | .footnote _ 0 id payload => some (id.name, payload)
    | _ => none

theorem map_snd_addedFootnotes (actions : List Action) :
    (addedFootnotes actions).map Prod.snd = newFootnotes actions := by
  rw [addedFootnotes, List.map_filterMap, newFootnotes]
  refine List.filterMap_congr fun a _ => ?_
  cases a with
  | footnote path line id payload => cases line <;> rfl
  | _ => rfl

theorem mem_addedFootnotes_iff {actions : List Action} {name : Identifier} {payload : Text} :
    (name, payload) ∈ addedFootnotes actions ↔
      ∃ path id, .footnote path 0 id payload ∈ actions ∧ id.name = name := by
  simp only [addedFootnotes, List.mem_filterMap]
  constructor
  · rintro ⟨a, ha, hfound⟩
    split at hfound
    · cases hfound
      exact ⟨_, _, ha, rfl⟩
    · cases hfound
  · rintro ⟨path, id, ha, rfl⟩
    exact ⟨_, ha, rfl⟩

/-- A document that is patched is free of faults if the names of its footnotes and of those that are added
    differ, and then only. -/
theorem ParsedDocument.faults_patchDocument_iff {path : Path} {t t' : Text} {actions : List Action}
    (fine : (parse t).faults = []) (written : ∀ a ∈ actions, a.WellWritten)
    (spares : ∀ a ∈ actions, a.SparesFootnotes (LineFile.parse t))
    (h : patchDocument path t actions = .ok t') :
    (parse t').faults = [] ↔
      ((parse t).footnotes.map Footnote.name ++ (addedFootnotes actions).map Prod.fst).Nodup := by
  obtain ⟨file, happlied, hrender⟩ := bind_eq_ok_iff.mp h
  obtain ⟨patched, hpatched, hadded⟩ := bind_eq_ok_iff.mp happlied
  cases hrender
  have kinds := (LineFile.lineEdits_of_foldlM_patch hpatched).1.sameKinds written spares
  have hplain := kinds.plain fun line hline => LineFile.not_mem_of_mem_parse (t := t) hline
  have hnonempty : patched.lines ≠ [] := by
    have hlength := congrArg List.length kinds.kinds
    rw [List.length_map, List.length_map] at hlength
    exact List.ne_nil_of_length_pos
      (hlength ▸ List.length_pos_iff.mpr (LineFile.lines_parse_ne_nil t))
  have hreads : AreFootnotes (addedFootnotes actions) := by
    rintro ⟨name, payload⟩ hmem line
    obtain ⟨p, id, ha, rfl⟩ := mem_addedFootnotes_iff.mp hmem
    exact (written _ ha).2 line
  have hfeeds : ∀ payload ∈ (addedFootnotes actions).map Prod.snd, '\n' ∉ payload := by
    intro payload hpayload
    obtain ⟨⟨name, payload⟩, hmem, rfl⟩ := List.mem_map.mp hpayload
    obtain ⟨p, id, ha, rfl⟩ := mem_addedFootnotes_iff.mp hmem
    exact (written _ ha).1
  obtain rfl : patched.appendFootnotes ((addedFootnotes actions).map Prod.snd) = file := by
    rw [map_snd_addedFootnotes]
    exact Except.ok.inj hadded
  have happended := LineFile.appended patched hreads
  rw [parse_eq_ofLines t] at fine ⊢
  obtain ⟨hheader, hwell, -⟩ := (faults_eq_nil_iff _).mp fine
  have hnames : ((ofLines (LineFile.parse t).lines).footnotes.map Footnote.name) =
      (noteKeys (views (Header.ofLines (LineFile.parse t).lines) (LineFile.parse t).lines)).map Prod.fst := by
    rw [← map_key_footnotes fine, List.map_map]
    rfl
  have hsame := kinds.ofLines_header hheader
  rw [hsame] at happended
  rw [parse_render (LineFile.appendFootnotes_ne_nil hnonempty _)
      (LineFile.plain_appendFootnotes hplain hfeeds), faults_eq_nil_iff, happended.ofLines,
    happended.noteNames, kinds.noteNames, hnames]
  exact ⟨fun h => h.2.2, fun h => ⟨hheader, happended.wellFormed (kinds.wellFormed hwell), h⟩⟩

end ReqTrace
